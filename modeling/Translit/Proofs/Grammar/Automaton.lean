import Translit.Grammar.Basic

/-!
# The automaton as a graph

A node lists others, under a token or in its fallback list; what can be reached from the root is
all that a walk can come to.

* `Grammar.Lists`, `Grammar.Reachable`, `Grammar.Leads` : the edges, what they lead to, and the
  paths they make;
* `Node.mem_successors_iff` : the nodes that a token leads to;
* `Grammar.Paced` : rules are as long as the paths to their ends;
* `Grammar.Spelled` : each inner node stands for one row of tokens; `Spelled.paced` : such a grammar
  is paced; `Spelled.of_isSpelled` : a check of it;
* `Grammar.ofAutomaton` : a grammar written down as its automaton.
-/

namespace Translit

theorem Node.mem_successors_iff {n : Node} {token : String} {c : NodeId} :
    c ∈ n.successors token ↔
      (∃ ids, n.children.get? token = some ids ∧ c ∈ ids) ∨
        (n.children.get? token = none ∧ c ∈ n.fallback) := by
  unfold successors
  cases h : n.children.get? token <;> simp

/-- The node lists no other node. -/
def Node.IsLeaf (n : Node) : Prop :=
  n.fallback = [] ∧ ∀ token ids, n.children.get? token = some ids → ids = []

theorem Node.IsLeaf.successors {n : Node} (h : n.IsLeaf) (token : String) :
    n.successors token = [] := by
  unfold Node.successors
  cases hc : n.children.get? token with
  | none => exact h.1
  | some ids => exact h.2 token ids hc

/-- A check that a node lists no other. -/
def Node.isLeaf (n : Node) : Bool :=
  n.fallback.isEmpty && n.children.entries.all (·.2.isEmpty)

theorem Node.isLeaf_sound {n : Node} (h : n.isLeaf = true) : n.IsLeaf := by
  simp only [isLeaf, Bool.and_eq_true, List.isEmpty_iff, List.all_eq_true] at h
  exact ⟨h.1, fun token ids hids => h.2 _ (Table.mem_of_get? hids)⟩

/-- The node lists another one, under a token or in its fallback list. -/
def Node.lists (n : Node) (child : NodeId) : Bool :=
  n.fallback.contains child || n.children.entries.any (·.2.contains child)

namespace Grammar

/-- The first node lists the second one, under a token or in its fallback list. -/
def Lists (g : Grammar) (parent child : NodeId) : Prop :=
  ∃ n, g.node? parent = some n ∧
    (child ∈ n.fallback ∨ ∃ token ids, n.children.get? token = some ids ∧ child ∈ ids)

/-- The nodes that the edges lead to from the root. -/
inductive Reachable (g : Grammar) : NodeId → Prop
  | root : Reachable g Grammar.root
  | step {parent child : NodeId} : Reachable g parent → g.Lists parent child → Reachable g child

/-- The node is there and no rule ends at it. -/
def isInner (g : Grammar) (id : NodeId) : Bool := (g.node? id).any (!·.accepting)

theorem isInner_iff {g : Grammar} {id : NodeId} :
    g.isInner id = true ↔ ∃ n, g.node? id = some n ∧ n.accepting = false := by
  simp [isInner, Option.any_eq_true]

theorem isInner_of_node {g : Grammar} {id : NodeId} {n : Node} (hn : g.node? id = some n) :
    g.isInner id = !n.accepting := by
  simp [isInner, hn]

theorem lists_of_mem_successors {g : Grammar} {parent child : NodeId} {n : Node} {token : String}
    (hn : g.node? parent = some n) (h : child ∈ n.successors token) : g.Lists parent child := by
  rcases Node.mem_successors_iff.1 h with ⟨ids, hids, hc⟩ | ⟨-, hc⟩
  · exact ⟨n, hn, Or.inr ⟨token, ids, hids, hc⟩⟩
  · exact ⟨n, hn, Or.inl hc⟩

theorem Lists.entry {g : Grammar} {parent child : NodeId} (h : g.Lists parent child) :
    ∃ n, (parent, n) ∈ g.nodes.entries ∧ n.lists child = true := by
  obtain ⟨n, hn, hc⟩ := h
  refine ⟨n, Table.mem_of_get? hn, ?_⟩
  rw [Node.lists, Bool.or_eq_true, List.contains_iff_mem, List.any_eq_true]
  rcases hc with hc | ⟨token, ids, hids, hc⟩
  · exact Or.inl hc
  · exact Or.inr ⟨_, Table.mem_of_get? hids, List.contains_iff_mem.2 hc⟩

/-- The edges lead from the root to a node by way of others, none of them the first. -/
inductive Leads (g : Grammar) : List NodeId → NodeId → Prop
  | root {child : NodeId} : g.Lists Grammar.root child → Leads g [] child
  | step {path : List NodeId} {parent child : NodeId} :
    Leads g path parent → g.Lists parent child → Leads g (path ++ [parent]) child

/-- The inner nodes on a path, other than the root. -/
def innerCount (g : Grammar) (path : List NodeId) : Nat :=
  path.countP fun id => id ≠ root ∧ g.isInner id = true

theorem innerCount_concat (g : Grammar) (path : List NodeId) (id : NodeId) :
    g.innerCount (path ++ [id]) =
      g.innerCount path + if id ≠ root ∧ g.isInner id = true then 1 else 0 := by
  simp [innerCount, List.countP_append, List.countP_singleton]

/-- Every rule has as many tokens as inner nodes lie on a path to its end, and at least one. -/
def Paced (g : Grammar) : Prop :=
  ∀ path id n ruleId rule, g.Leads path id → g.node? id = some n → n.accepting = true →
    n.rule = some ruleId → g.rule? ruleId = some rule →
      rule.tokenCount = g.innerCount path ∧ 1 ≤ rule.tokenCount

/-- Tokens that key a path of inner nodes from the root to a node. -/
inductive Spells (g : Grammar) : List String → NodeId → Prop
  | root : Spells g [] Grammar.root
  | step {row : List String} {id child : NodeId} {n : Node} {token : String} {ids : List NodeId} :
    Spells g row id → g.node? id = some n → n.children.get? token = some ids → child ∈ ids →
      g.isInner child = true → Spells g (row ++ [token]) child

/-- An automaton where each inner node carries one row of tokens, its `word`, and each leaf stands
for a rule whose tokens are the word of the nodes that list it. -/
structure Spelled (g : Grammar) (word : NodeId → List String) : Prop where
  listed : ∀ parent child, g.Lists parent child → ∃ n, g.node? child = some n
  keyed : ∀ parent n child, g.node? parent = some n → g.isInner child = true →
    child ∉ n.fallback ∧
      ∀ token ids, n.children.get? token = some ids → child ∈ ids → n.accepting = false
  word_eq : ∀ row id, g.Spells row id → word id = row
  leaf : ∀ id n, g.node? id = some n → n.accepting = true → n.IsLeaf
  owner : ∀ id n, g.node? id = some n → n.accepting = true →
    ∃ ruleId rule, n.rule = some ruleId ∧ g.rule? ruleId = some rule ∧
      ∀ parent, g.Lists parent id → parent ≠ root ∧ rule.tokens = word parent

/-- The nodes that a node lists are there; the inner ones are listed by an inner node, under the
token that ends their row. -/
def listsRows (g : Grammar) (word : NodeId → List String) (id : NodeId) (n : Node) : Bool :=
  n.fallback.all (fun m => (g.node? m).isSome && !g.isInner m) &&
    n.children.entries.all fun c => c.2.all fun m => (g.node? m).isSome &&
      (!g.isInner m || (!n.accepting && word m == word id ++ [c.1]))

/-- The node lists nothing, and the nodes that list it carry the tokens of its rule. -/
def endsRow (g : Grammar) (word : NodeId → List String) (id : NodeId) (n : Node) : Bool :=
  n.isLeaf && (n.rule.bind g.rule?).any fun rule =>
    g.nodes.entries.all fun p => !p.2.lists id || (p.1 != root && rule.tokens == word p.1)

/-- A check that a grammar is spelled by its words. -/
def isSpelled (g : Grammar) (word : NodeId → List String) : Bool :=
  (word root).isEmpty && g.nodes.entries.all fun e =>
    g.listsRows word e.1 e.2 && (!e.2.accepting || g.endsRow word e.1 e.2)

section Checks

variable {g : Grammar} {word : NodeId → List String} {id : NodeId} {n : Node}

theorem listsRows_fallback (h : g.listsRows word id n = true) {m : NodeId} (hm : m ∈ n.fallback) :
    (g.node? m).isSome = true ∧ g.isInner m = false := by
  rw [listsRows, Bool.and_eq_true, List.all_eq_true] at h
  simpa using h.1 m hm

theorem listsRows_children (h : g.listsRows word id n = true) {token : String} {ids : List NodeId}
    (hids : n.children.get? token = some ids) {m : NodeId} (hm : m ∈ ids) :
    (g.node? m).isSome = true ∧
      (g.isInner m = true → n.accepting = false ∧ word m = word id ++ [token]) := by
  rw [listsRows, Bool.and_eq_true, List.all_eq_true, List.all_eq_true] at h
  have hc := List.all_eq_true.1 (h.2 _ (Table.mem_of_get? hids)) m hm
  rw [Bool.and_eq_true] at hc
  refine ⟨hc.1, fun hinner => ?_⟩
  simpa [hinner] using hc.2

theorem endsRow_sound (h : g.endsRow word id n = true) :
    n.IsLeaf ∧ ∃ ruleId rule, n.rule = some ruleId ∧ g.rule? ruleId = some rule ∧
      ∀ parent, g.Lists parent id → parent ≠ root ∧ rule.tokens = word parent := by
  rw [endsRow, Bool.and_eq_true, Option.any_eq_true] at h
  obtain ⟨hleaf, rule, hbind, howner⟩ := h
  obtain ⟨ruleId, hruleId, hrule⟩ := Option.bind_eq_some_iff.1 hbind
  refine ⟨Node.isLeaf_sound hleaf, ruleId, rule, hruleId, hrule, fun parent hlists => ?_⟩
  obtain ⟨p, hp, hc⟩ := hlists.entry
  have hentry := List.all_eq_true.1 howner _ hp
  simpa [hc] using hentry

end Checks

namespace Spelled

variable {g : Grammar} {word : NodeId → List String}

/-- A node that lists others is inner. -/
theorem not_accepting (h : g.Spelled word) {parent child : NodeId} {n : Node}
    (hn : g.node? parent = some n) (hc : g.Lists parent child) : n.accepting = false := by
  obtain ⟨n', hn', hc⟩ := hc
  obtain rfl : n = n' := Option.some.inj (hn.symm.trans hn')
  cases hacc : n.accepting with
  | false => rfl
  | true =>
    obtain ⟨hfallback, hchildren⟩ := h.leaf parent n hn hacc
    rcases hc with hc | ⟨token, ids, hids, hc⟩
    · rw [hfallback] at hc
      cases hc
    · rw [hchildren token ids hids] at hc
      cases hc

/-- An inner node is listed under a token, and that token ends its row. -/
theorem spells_child (h : g.Spelled word) {row : List String} {parent child : NodeId}
    (hrow : g.Spells row parent) (hc : g.Lists parent child) (hinner : g.isInner child = true) :
    ∃ token, g.Spells (row ++ [token]) child := by
  obtain ⟨n, hn, hc | ⟨token, ids, hids, hc⟩⟩ := hc
  · exact absurd hc (h.keyed parent n child hn hinner).1
  · exact ⟨token, hrow.step hn hids hc hinner⟩

theorem ne_root (h : g.Spelled word) {row : List String} {token : String} {id : NodeId}
    (hrow : g.Spells (row ++ [token]) id) : id ≠ root := by
  rintro rfl
  have h1 := h.word_eq _ _ hrow
  rw [h.word_eq _ _ .root] at h1
  simp at h1

/-- The rows of the node before the end of a path are as long as the path has inner nodes. -/
theorem spells_of_leads (h : g.Spelled word) {path : List NodeId} {id : NodeId}
    (hpath : g.Leads path id) :
    ∃ parent row, g.Lists parent id ∧ g.Spells row parent ∧ row.length = g.innerCount path := by
  induction hpath with
  | root hc => exact ⟨Grammar.root, [], hc, .root, rfl⟩
  | @step path parent child hpath hc ih =>
    obtain ⟨before, row, hbefore, hrow, hlen⟩ := ih
    obtain ⟨n, hn⟩ := h.listed before parent hbefore
    have hinner : g.isInner parent = true := isInner_iff.2 ⟨n, hn, h.not_accepting hn hc⟩
    obtain ⟨token, hspell⟩ := h.spells_child hrow hbefore hinner
    refine ⟨parent, row ++ [token], hc, hspell, ?_⟩
    rw [innerCount_concat, if_pos ⟨h.ne_root hspell, hinner⟩, List.length_append, hlen]
    rfl

theorem eq_root_of_spells_nil {id : NodeId} (h : g.Spells [] id) : id = root := by
  generalize hrow : ([] : List String) = row at h
  cases h with
  | root => rfl
  | step => simp at hrow

theorem paced (h : g.Spelled word) : g.Paced := by
  intro path id n ruleId rule hpath hn hacc hruleId hrule
  obtain ⟨parent, row, hlists, hspell, hlen⟩ := h.spells_of_leads hpath
  obtain ⟨ruleId', rule', hruleId', hrule', howner⟩ := h.owner id n hn hacc
  obtain rfl : ruleId' = ruleId := Option.some.inj (hruleId'.symm.trans hruleId)
  obtain rfl : rule' = rule := Option.some.inj (hrule'.symm.trans hrule)
  obtain ⟨hne, htokens⟩ := howner parent hlists
  rw [h.word_eq row parent hspell] at htokens
  rw [Rule.tokenCount, htokens]
  refine ⟨hlen, Nat.pos_of_ne_zero fun hzero => hne ?_⟩
  rw [List.length_eq_zero_iff.1 hzero] at hspell
  exact eq_root_of_spells_nil hspell

/-- The entries of a grammar tell whether it is spelled by its words. -/
theorem of_isSpelled (h : g.isSpelled word = true) : g.Spelled word := by
  rw [isSpelled, Bool.and_eq_true, List.isEmpty_iff, List.all_eq_true] at h
  obtain ⟨hroot, hentries⟩ := h
  have hlists : ∀ {id n}, g.node? id = some n → g.listsRows word id n = true := fun hn =>
    (Bool.and_eq_true_iff.1 (hentries _ (Table.mem_of_get? hn))).1
  have hends : ∀ {id n}, g.node? id = some n → n.accepting = true → g.endsRow word id n = true := by
    intro id n hn hacc
    have hentry := (Bool.and_eq_true_iff.1 (hentries _ (Table.mem_of_get? hn))).2
    simpa [hacc] using hentry
  refine ⟨?_, ?_, ?_, ?_, ?_⟩
  · rintro parent child ⟨n, hn, hc | ⟨token, ids, hids, hc⟩⟩
    · exact Option.isSome_iff_exists.1 ((listsRows_fallback (hlists hn) hc).1)
    · exact Option.isSome_iff_exists.1 (listsRows_children (hlists hn) hids hc).1
  · intro parent n child hn hinner
    refine ⟨fun hc => ?_, fun token ids hids hc => ?_⟩
    · rw [(listsRows_fallback (hlists hn) hc).2] at hinner
      cases hinner
    · exact ((listsRows_children (hlists hn) hids hc).2 hinner).1
  · intro row id hrow
    induction hrow with
    | root => exact hroot
    | step hrow hn hids hc hinner ih =>
      rw [((listsRows_children (hlists hn) hids hc).2 hinner).2, ih]
  · intro id n hn hacc
    exact (endsRow_sound (hends hn hacc)).1
  · intro id n hn hacc
    exact (endsRow_sound (hends hn hacc)).2

end Spelled

end Grammar

/-! ## Automata written down -/

/-- A node where no rule ends. -/
def Node.inner (children : List (String × List NodeId)) (fallback : List NodeId) : Node :=
  ⟨false, none, .ofList children, fallback⟩

/-- A node where a rule ends and that lists nothing. -/
def Node.leaf (rule : RuleId) : Node := ⟨true, some rule, .empty, []⟩

/-- The grammar of an automaton, its constrained edges and the tokens of its rules, which write
nothing; its pattern finds no token. -/
def Grammar.ofAutomaton (nodes : List (NodeId × Node))
    (edges : List (NodeId × List (NodeId × Constraints))) (rules : List (List String)) :
    Grammar where
  nodes := .ofList nodes
  edges := .ofList (edges.map fun e => (e.1, .ofList e.2))
  rules := (rules.map fun tokens => ⟨"", none, none, tokens, none, none, .zero⟩).toArray
  onmatchRules := #[]
  onmatchLookup := .empty
  pattern := ⟨"", 0, #[]⟩
  classes := .empty
  whitespace := ⟨" ", "", true⟩

end Translit
