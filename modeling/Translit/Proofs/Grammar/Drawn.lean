import Mathlib
import Translit.Proofs.Grammar.Automaton
import Translit.Proofs.Grammar.Diagram
import Translit.Proofs.Grammar.Load
import Translit.Proofs.Grammar.Skeleton

/-!
# What a diagram shows

The statements of a diagram are what the nodes and edges of the automaton are, so two grammars with
one diagram have one automaton. Nodes and tokens stand in ascending order, whatever order they are
listed in beforehand.

* `Grammar.Trim` : no list of children is empty and no constraints are without a kind;
  `Grammar.trim_of_load` : so it is with grammars that are loaded;
* `Grammar.SameAutomaton` : grammars with the same nodes and lists;
  `Grammar.sameAutomaton_of_statements` : those with the same statements;
* `Grammar.Listing` : an order to list nodes and tokens in;
  `Grammar.Listing.statements_eq` : the statements do not depend on it;
* `Grammar.diagram_shows` : what the text of a diagram is, and what it tells.
-/

namespace Translit

namespace Statement

/-! ## Which statement is about what -/

/-- The statement is about the node. -/
def isNode (id : NodeId) : Statement → Bool
  | node i _ => i = id
  | edge _ _ _ _ => false

/-- The statement is about an edge from the node. -/
def isFrom (id : NodeId) : Statement → Bool
  | node _ _ => false
  | edge parent _ _ _ => parent = id

/-- The statement is about an edge for the token, or one that serves every other token. -/
def isFor (token : Option String) : Statement → Bool
  | node _ _ => false
  | edge _ _ t _ => t = token

/-- The children of edges and what they show are read off a list of them. -/
theorem eq_of_map_edge {parent : NodeId} {token : Option String}
    {shown shown' : NodeId → Constraints} {ids ids' : List NodeId}
    (h : (ids.map fun child => edge parent child token (shown child)) =
      ids'.map fun child => edge parent child token (shown' child)) :
    ids = ids' ∧ ∀ child ∈ ids, shown child = shown' child := by
  induction ids generalizing ids' with
  | nil =>
    cases ids' with
    | nil => exact ⟨rfl, List.forall_mem_nil _⟩
    | cons child' ids' => cases h
  | cons child ids ih =>
    cases ids' with
    | nil => cases h
    | cons child' ids' =>
      rw [List.map_cons, List.map_cons, List.cons.injEq, edge.injEq] at h
      obtain ⟨⟨-, rfl, -, hshown⟩, h⟩ := h
      obtain ⟨rfl, hall⟩ := ih h
      exact ⟨rfl, List.forall_mem_cons.2 ⟨hshown, hall⟩⟩

/-- The label is the first thing between quotes on its line. -/
theorem quote_notMem_lead (s : Statement) : '"' ∉ s.lead.toList := by
  have hnumber (id : NodeId) : '"' ∉ (toString id).toList :=
    Number.notMem_toString (by decide) id.toNat
  cases s with
  | node id production =>
    cases production <;> simp only [lead, String.toList_append, List.mem_append, not_or]
    · exact ⟨⟨by decide, hnumber id⟩, by decide⟩
    · exact ⟨⟨by decide, hnumber id⟩, by decide⟩
  | edge parent child token constraints =>
    cases token <;> simp only [lead, String.toList_append, List.mem_append, not_or]
    · exact ⟨⟨⟨⟨by decide, hnumber parent⟩, by decide⟩, hnumber child⟩, by decide⟩
    · exact ⟨⟨⟨⟨by decide, hnumber parent⟩, by decide⟩, hnumber child⟩, by decide⟩

end Statement

namespace Grammar

/-! ## The statements about a node -/

section Statements

variable (g : Grammar) (showConstraints : Bool) (id : NodeId) (n : Node)

theorem exists_eq_edge {s : Statement} (h : s ∈ g.edgeStatements showConstraints id n) :
    ∃ child token constraints, s = .edge id child token constraints := by
  rcases List.mem_append.1 h with h | h
  · obtain ⟨e, -, h⟩ := List.mem_flatMap.1 h
    obtain ⟨child, -, rfl⟩ := List.mem_map.1 h
    exact ⟨child, _, _, rfl⟩
  · obtain ⟨child, -, rfl⟩ := List.mem_map.1 h
    exact ⟨child, _, _, rfl⟩

/-- One statement about a node, if there is the node. -/
theorem filter_isNode :
    (g.statements showConstraints).filter (·.isNode id) =
      (g.node? id).elim [] fun n => [g.nodeStatement id n] := by
  have hnodes : (g.nodes.entries.map fun e => g.nodeStatement e.1 e.2).filter (·.isNode id) =
      (g.node? id).elim [] fun n => [g.nodeStatement id n] := by
    rw [List.map_eq_flatMap]
    apply g.nodes.filter_flatMap (fun e => [g.nodeStatement e.1 e.2])
    intro e s hs
    rw [List.mem_singleton.1 hs]
    exact decide_eq_true_iff
  have hedges : (g.nodes.entries.flatMap fun e =>
      g.edgeStatements showConstraints e.1 e.2).filter (·.isNode id) = [] := by
    apply List.filter_eq_nil_iff.2
    intro s hs
    obtain ⟨e, -, hs⟩ := List.mem_flatMap.1 hs
    obtain ⟨child, token, constraints, rfl⟩ := g.exists_eq_edge showConstraints e.1 e.2 hs
    exact Bool.false_ne_true
  rw [statements, List.filter_append, hnodes, hedges, List.append_nil]

/-- The statements about edges from a node are those of its lists. -/
theorem filter_isFrom :
    (g.statements showConstraints).filter (·.isFrom id) =
      (g.node? id).elim [] fun n => g.edgeStatements showConstraints id n := by
  have hnodes : (g.nodes.entries.map fun e =>
      g.nodeStatement e.1 e.2).filter (·.isFrom id) = [] := by
    apply List.filter_eq_nil_iff.2
    intro s hs
    obtain ⟨e, -, rfl⟩ := List.mem_map.1 hs
    exact Bool.false_ne_true
  rw [statements, List.filter_append, hnodes, List.nil_append]
  apply g.nodes.filter_flatMap fun e => g.edgeStatements showConstraints e.1 e.2
  intro e s hs
  obtain ⟨child, token, constraints, rfl⟩ := g.exists_eq_edge showConstraints e.1 e.2 hs
  exact decide_eq_true_iff

/-- Those of them that are for a token are about the children under the token. -/
theorem filter_isFor_some (token : String) :
    (g.edgeStatements showConstraints id n).filter (·.isFor (some token)) =
      (n.children.get? token).elim [] fun ids => ids.map fun child =>
        .edge id child (some token) (g.shownOn showConstraints id child) := by
  have hserved : (n.fallback.map fun child => Statement.edge id child none
      (g.shownOn showConstraints id child)).filter (·.isFor (some token)) = [] := by
    apply List.filter_eq_nil_iff.2
    intro s hs
    obtain ⟨child, -, rfl⟩ := List.mem_map.1 hs
    exact Bool.false_ne_true
  rw [edgeStatements, List.filter_append, hserved, List.append_nil]
  apply n.children.filter_flatMap fun e => e.2.map fun child =>
    Statement.edge id child (some e.1) (g.shownOn showConstraints id child)
  intro e s hs
  obtain ⟨child, -, rfl⟩ := List.mem_map.1 hs
  exact decide_eq_true_iff.trans Option.some_inj

/-- The others are about the fallback list. -/
theorem filter_isFor_none :
    (g.edgeStatements showConstraints id n).filter (·.isFor none) =
      n.fallback.map fun child => .edge id child none (g.shownOn showConstraints id child) := by
  have hkeyed : (n.children.entries.flatMap fun e => e.2.map fun child =>
      Statement.edge id child (some e.1) (g.shownOn showConstraints id child)).filter
        (·.isFor none) = [] := by
    apply List.filter_eq_nil_iff.2
    intro s hs
    obtain ⟨e, -, hs⟩ := List.mem_flatMap.1 hs
    obtain ⟨child, -, rfl⟩ := List.mem_map.1 hs
    exact Bool.false_ne_true
  rw [edgeStatements, List.filter_append, hkeyed, List.nil_append]
  apply List.filter_eq_self.2
  intro s hs
  obtain ⟨child, -, rfl⟩ := List.mem_map.1 hs
  rfl

end Statements

/-! ## What two grammars have in common -/

/-- No list of children is empty, and no edge has constraints without any kind. -/
structure Trim (g : Grammar) : Prop where
  children : ∀ id n token ids, g.node? id = some n → n.children.get? token = some ids → ids ≠ []
  kinds : ∀ parent child constraints, g.edge? parent child = some constraints →
    constraints.kinds ≠ []

/-- A grammar that is loaded has nothing of that sort. -/
theorem trim_of_load {compile : String → Option Pattern} {d : Document} {g : Grammar}
    (h : loadWith compile d = .ok g) : g.Trim := by
  obtain ⟨pattern, -, -, hpattern, -⟩ := loadWith_eq_ok h
  rw [loadWith_eq hpattern] at h
  obtain ⟨-, hg⟩ := checked_eq_ok_iff.1 h
  have hbecomes : d.graph.Becomes g := d.graph.becomes_of_eq (hg ▸ rfl) (hg ▸ rfl)
  constructor
  · intro id n token ids hn hids
    obtain ⟨key, m, -, -, hmakes⟩ := hbecomes.node? id n hn
    exact ((hmakes.children token ids).1 hids).2.1
  · intro parent child constraints hc
    obtain ⟨ends, -, e, -, -, -, -, hkinds⟩ := hbecomes.edge? parent child constraints hc
    exact hkinds

/-- The grammars have the same nodes, of which the same are accepting, with the same children under
each token and the same fallback lists. -/
structure SameAutomaton (g g' : Grammar) : Prop where
  isSome_node? : ∀ id, (g.node? id).isSome = (g'.node? id).isSome
  accepting : ∀ id n n', g.node? id = some n → g'.node? id = some n' → n.accepting = n'.accepting
  children : ∀ id n n', g.node? id = some n → g'.node? id = some n' →
    ∀ token, n.children.get? token = n'.children.get? token
  fallback : ∀ id n n', g.node? id = some n → g'.node? id = some n' → n.fallback = n'.fallback

section Same

variable {g g' : Grammar} {showConstraints : Bool} {id : NodeId} {n n' : Node}

/-- Lists of children under one token, and what their edges show. -/
theorem same_children (hg : g.Trim) (hg' : g'.Trim) (hn : g.node? id = some n)
    (hn' : g'.node? id = some n')
    (h : g.edgeStatements showConstraints id n = g'.edgeStatements showConstraints id n')
    (token : String) :
    n.children.get? token = n'.children.get? token ∧
      ∀ ids, n.children.get? token = some ids → ∀ child ∈ ids,
        g.shownOn showConstraints id child = g'.shownOn showConstraints id child := by
  have hfilter := congrArg (List.filter (·.isFor (some token))) h
  rw [filter_isFor_some, filter_isFor_some] at hfilter
  cases hids : n.children.get? token with
  | none =>
    refine ⟨?_, nofun⟩
    cases hids' : n'.children.get? token with
    | none => rfl
    | some ids' =>
      rw [hids, hids'] at hfilter
      exact absurd (List.map_eq_nil_iff.1 hfilter.symm) (hg'.children id n' token ids' hn' hids')
  | some ids =>
    cases hids' : n'.children.get? token with
    | none =>
      rw [hids, hids'] at hfilter
      exact absurd (List.map_eq_nil_iff.1 hfilter) (hg.children id n token ids hn hids)
    | some ids' =>
      rw [hids, hids'] at hfilter
      obtain ⟨rfl, hshown⟩ := Statement.eq_of_map_edge hfilter
      refine ⟨rfl, ?_⟩
      rintro _ ⟨⟩
      exact hshown

/-- Fallback lists, and what their edges show. -/
theorem same_fallback
    (h : g.edgeStatements showConstraints id n = g'.edgeStatements showConstraints id n') :
    n.fallback = n'.fallback ∧ ∀ child ∈ n.fallback,
      g.shownOn showConstraints id child = g'.shownOn showConstraints id child := by
  have hfilter := congrArg (List.filter (·.isFor none)) h
  rw [filter_isFor_none, filter_isFor_none] at hfilter
  exact Statement.eq_of_map_edge hfilter

/-- Where something is shown on an edge, the edge has just that. -/
theorem edge?_eq_of_shownOn (hg : g.Trim) (hg' : g'.Trim) {parent child : NodeId}
    (h : g.shownOn true parent child = g'.shownOn true parent child) :
    g.edge? parent child = g'.edge? parent child := by
  have hne {g : Grammar} (hg : g.Trim) {c : Constraints} (hc : g.edge? parent child = some c) :
      c ≠ .empty := by
    rintro rfl
    exact hg.kinds parent child _ hc rfl
  unfold shownOn at h
  rw [if_pos rfl, if_pos rfl] at h
  cases hc : g.edge? parent child with
  | none =>
    cases hc' : g'.edge? parent child with
    | none => rfl
    | some c' =>
      rw [hc, hc'] at h
      exact absurd h.symm (hne hg' hc')
  | some c =>
    cases hc' : g'.edge? parent child with
    | none =>
      rw [hc, hc'] at h
      exact absurd h (hne hg hc)
    | some c' =>
      rw [hc, hc'] at h
      exact congrArg some h

/-- Grammars with the same statements have the same automaton, and where constraints are shown the
same constraints between a node and those it lists. -/
theorem sameAutomaton_of_statements (hg : g.Trim) (hg' : g'.Trim)
    (h : g.statements showConstraints = g'.statements showConstraints) :
    g.SameAutomaton g' ∧ (showConstraints = true →
      ∀ parent child, g.Lists parent child → g.edge? parent child = g'.edge? parent child) := by
  have hnodes (id : NodeId) := congrArg (List.filter (·.isNode id)) h
  have hedges (id : NodeId) := congrArg (List.filter (·.isFrom id)) h
  simp only [filter_isNode] at hnodes
  simp only [filter_isFrom] at hedges
  have hsame {id : NodeId} {n n' : Node} (hn : g.node? id = some n) (hn' : g'.node? id = some n') :
      g.nodeStatement id n = g'.nodeStatement id n' ∧
        g.edgeStatements showConstraints id n = g'.edgeStatements showConstraints id n' := by
    have hnode := hnodes id
    have hedge := hedges id
    rw [hn, hn'] at hnode hedge
    exact ⟨List.head_eq_of_cons_eq hnode, hedge⟩
  have hsome (id : NodeId) : (g.node? id).isSome = (g'.node? id).isSome := by
    have hnode := hnodes id
    cases hn : g.node? id <;> cases hn' : g'.node? id <;> rw [hn, hn'] at hnode <;> first
      | rfl
      | cases hnode
  refine ⟨⟨hsome, ?_, ?_, ?_⟩, ?_⟩
  · intro id n n' hn hn'
    have hnode := (hsame hn hn').1
    unfold nodeStatement at hnode
    cases hac : n.accepting <;> cases hac' : n'.accepting <;> simp [hac, hac'] at hnode ⊢
  · intro id n n' hn hn' token
    exact (same_children hg hg' hn hn' (hsame hn hn').2 token).1
  · intro id n n' hn hn'
    exact (same_fallback (hsame hn hn').2).1
  · rintro rfl parent child ⟨n, hn, hchild⟩
    obtain ⟨n', hn'⟩ : ∃ n', g'.node? parent = some n' := by
      rw [← Option.isSome_iff_exists, ← hsome parent, hn]
      rfl
    have hedge := (hsame hn hn').2
    apply edge?_eq_of_shownOn hg hg'
    rcases hchild with hchild | ⟨token, ids, hids, hchild⟩
    · exact (same_fallback hedge).2 child hchild
    · exact (same_children hg hg' hn hn' hedge token).2 ids hids child hchild

end Same

/-! ## Listings -/

/-- An order in which the nodes of a grammar are listed, and the tokens of each node. -/
structure Listing (g : Grammar) where
  ids : List NodeId
  tokens : NodeId → List String
  perm_ids : ids.Perm g.nodes.keys
  perm_tokens : ∀ id n, g.node? id = some n → (tokens id).Perm n.children.keys

namespace Listing

variable {g : Grammar} (l : g.Listing) (showConstraints : Bool)

/-- The nodes in ascending order. -/
def sortedIds : List NodeId := l.ids.mergeSort fun i j => (compare i j).isLE

/-- The tokens of a node in ascending order. -/
def sortedTokens (id : NodeId) : List String :=
  (l.tokens id).mergeSort fun s t => (compare s t).isLE

/-- The statements of the edges of a node, its tokens taken from the listing and put in order. -/
def edgeStatements (id : NodeId) (n : Node) : List Statement :=
  (l.sortedTokens id).flatMap (fun token =>
    ((n.children.get? token).getD []).map fun child =>
      .edge id child (some token) (g.shownOn showConstraints id child)) ++
  n.fallback.map fun child => .edge id child none (g.shownOn showConstraints id child)

/-- The statements of a diagram, the nodes taken from the listing and put in order. -/
def statements : List Statement :=
  (l.sortedIds.flatMap fun id => (g.node? id).elim [] fun n => [g.nodeStatement id n]) ++
    l.sortedIds.flatMap fun id => (g.node? id).elim [] (l.edgeStatements showConstraints id)

theorem edgeStatements_eq {id : NodeId} {n : Node} (hn : g.node? id = some n) :
    l.edgeStatements showConstraints id n = g.edgeStatements showConstraints id n := by
  have htokens : l.sortedTokens id = n.children.keys :=
    Table.mergeSort_of_perm (l.perm_tokens id n hn)
  unfold edgeStatements Grammar.edgeStatements
  rw [htokens, ← n.children.flatMap_keys fun token ids => ids.map fun child =>
    Statement.edge id child (some token) (g.shownOn showConstraints id child)]
  congr 2
  funext token
  cases n.children.get? token <;> rfl

/-- In whatever order nodes and tokens are listed, the statements are the same. -/
theorem statements_eq : l.statements showConstraints = g.statements showConstraints := by
  have hids : l.sortedIds = g.nodes.keys := Table.mergeSort_of_perm l.perm_ids
  have hedges : (g.nodes.keys.flatMap fun id =>
      (g.node? id).elim [] (l.edgeStatements showConstraints id)) =
        g.nodes.keys.flatMap fun id =>
          (g.node? id).elim [] (g.edgeStatements showConstraints id) := by
    apply List.flatMap_congr
    intro id _
    cases hn : g.node? id with
    | none => rfl
    | some n => exact l.edgeStatements_eq showConstraints hn
  have hnodes : (g.nodes.keys.flatMap fun id =>
      (g.node? id).elim [] fun n => [g.nodeStatement id n]) =
        g.nodes.entries.flatMap fun e => [g.nodeStatement e.1 e.2] :=
    g.nodes.flatMap_keys fun id n => [g.nodeStatement id n]
  rw [statements, hids, hedges, hnodes, Grammar.statements, List.map_eq_flatMap]
  exact congrArg (_ ++ ·) (g.nodes.flatMap_keys (g.edgeStatements showConstraints))

end Listing

theorem keys_ascending (g : Grammar) : g.nodes.keys.Pairwise (· < ·) := by
  refine List.pairwise_map.2 (g.nodes.ascending.imp ?_)
  intro e e' hlt
  exact compareOfLessAndEq_eq_lt.1 hlt

/-- **A diagram shows the automaton.** Its text is the lines of its statements: one for each node,
by ascending numbers, and then for each node, by ascending numbers, one for each child under a
token, by ascending tokens and in the order of the children, and one for each node of its fallback
list, in the order of the list. So it is from whatever order nodes and tokens are listed in. Each
label is the first string on its line and ends at the quote that is put behind it, whatever is in
it. Two grammars that are loaded and have one diagram have the same automaton, and where constraints
are shown the same constraints between each node and those that it lists. -/
theorem diagram_shows (g : Grammar) (showConstraints : Bool) :
    (g.diagram showConstraints = "digraph automaton \x7b\n  rankdir=LR;\n"
        ++ String.join ((g.statements showConstraints).map Statement.text) ++ "\x7d\n" ∧
      g.nodes.keys.Pairwise (· < ·) ∧
      (∀ id n, g.node? id = some n → n.children.keys.Pairwise KeyLt) ∧
      ∀ l : g.Listing, l.statements showConstraints = g.statements showConstraints) ∧
    (∀ s ∈ g.statements showConstraints,
      s.text = s.lead ++ "\"" ++ s.label ++ "\"];\n" ∧ '"' ∉ s.lead.toList ∧
      ∀ rest, Text.takeBody? false (s.label.toList ++ '"' :: rest) = some (s.label.toList, rest)) ∧
    ∀ g', (∃ compile d, loadWith compile d = .ok g) → (∃ compile d, loadWith compile d = .ok g') →
      g.diagram showConstraints = g'.diagram showConstraints →
      g.SameAutomaton g' ∧ (showConstraints = true →
        ∀ parent child, g.Lists parent child → g.edge? parent child = g'.edge? parent child) := by
  refine ⟨⟨g.diagram_eq showConstraints, g.keys_ascending,
    fun id n _ => n.children.keyLt_keys, fun l => l.statements_eq showConstraints⟩, ?_, ?_⟩
  · intro s _
    exact ⟨rfl, s.quote_notMem_lead, s.sealed_label.takeBody?_append⟩
  · rintro g' ⟨compile, d, hd⟩ ⟨compile', d', hd'⟩ h
    have hread := congrArg Statement.read? h
    rw [Statement.read?_diagram, Statement.read?_diagram] at hread
    exact sameAutomaton_of_statements (trim_of_load hd) (trim_of_load hd') (Option.some.inj hread)

/-- A document with quotes, backslashes and newlines in its tokens, in the constraints of an edge
and in what its rules write; the number is that of the rule of the node `1`. -/
def labelDocument (rule : RuleId) : Document where
  graph := {
    nodes := .ofList [("0", ⟨false, none, .ofList [("\"", [1]), ("\\\n", [2, 1]),
      (Document.fallbackKey, [1])]⟩), ("1", ⟨true, some rule, .empty⟩)]
    edges := .ofList [("0", .ofList [("1", ⟨some ⟨some ["\"]"], none, none, some []⟩⟩)])] }
  rules := [⟨"\"];\n", none, none, ["a"], none, none, .zero⟩,
    ⟨"\"];\n", none, none, ["a", "a"], none, none, .zero⟩]
  onmatchRules := []
  onmatchLookup := .empty
  pattern := "a"
  classes := .empty
  whitespace := ⟨" ", "blank", true⟩

/-- What a rule writes is drawn and not its number, so the diagram is the same for both rules; the
automaton is the same too, and the edge from `0` to `1` has the same constraints. -/
theorem diagram_shows_labelDocument :
    ∃ g g', load (labelDocument 0) = .ok g ∧ load (labelDocument 1) = .ok g' ∧ g ≠ g' ∧
      g.diagram true = g'.diagram true ∧ g.SameAutomaton g' ∧ g.Lists 0 1 ∧
      g.edge? 0 1 = g'.edge? 0 1 := by
  have hload (rule : RuleId) : load (labelDocument rule) = .ok ⟨
      .ofList [(0, ⟨false, none, .ofList [("\"", [1]), ("\\\n", [2, 1])], [1]⟩),
        (1, ⟨true, some rule, .empty, []⟩)],
      .ofList [(0, .ofList [(1, ⟨some ["\"]"], none, none, some []⟩)])],
      (labelDocument rule).rules.toArray, #[], .empty, ⟨"a", 0, #[.take (.single 'a'), .accept]⟩,
      .empty, ⟨" ", "blank", true⟩⟩ := by
    cbv
  obtain ⟨g, hg, hnode, hlists, hstatements⟩ : ∃ g : RuleId → Grammar,
      (∀ rule, load (labelDocument rule) = .ok (g rule)) ∧
      (∀ rule, (g rule).node? 1 = some ⟨true, some rule, .empty, []⟩) ∧
      (∀ rule, (g rule).Lists 0 1) ∧
      (g 0).statements true = (g 1).statements true :=
    ⟨_, hload, fun _ => rfl, fun _ => ⟨_, rfl, .inl (by simp)⟩, by decide⟩
  have hdiagram : (g 0).diagram true = (g 1).diagram true := by
    rw [diagram_eq, diagram_eq, hstatements]
  have hne : g 0 ≠ g 1 := by
    intro h
    have hnode' := congrArg (node? · 1) h
    simp [hnode] at hnode'
  obtain ⟨-, -, hshows⟩ := diagram_shows (g 0) true
  obtain ⟨hsame, hedge⟩ := hshows (g 1) ⟨_, _, hg 0⟩ ⟨_, _, hg 1⟩ hdiagram
  exact ⟨_, _, hg 0, hg 1, hne, hdiagram, hsame, hlists 0, hedge rfl 0 1 (hlists 0)⟩

end Grammar

end Translit
