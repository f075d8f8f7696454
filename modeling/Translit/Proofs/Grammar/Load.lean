import Mathlib
import Translit.Proofs.Grammar.Keys

/-!
# What a document loads to

All keys are read in their order, and the first that is no number is the answer. Where all are
numbers, the last of the keys for a number says what its node is, and the last constrained edge
between keys for two numbers what is asked between their nodes.

* `checked` : what comes of keys that are to be read; `loadWith_eq` : a document is loaded so;
* `Document.Node.Makes`, `Document.Graph.Constrains` : what stands under a key, and under two;
* `Document.Graph.Becomes` : a grammar is what stands under the last keys;
* `Document.Graph.pruned` : an automaton without what leaves no trace;
* `load_byKeys` : when a document loads, with what error it does not, and to what grammar it does.
-/

namespace Translit

namespace Grammar

/-! ## Keys that are read -/

/-- What is made where all keys are numbers; the first that is not is the error. -/
def checked {α : Type} (keys : List String) (a : α) : Except LoadError α :=
  match keys.find? fun key => (NodeId.ofKey? key).isNone with
  | some key => .error (.invalidNodeKey key)
  | none => .ok a

section Checked

variable {α β σ : Type} {keys : List String}

theorem checked_eq_ok_iff {a b : α} :
    checked keys a = .ok b ↔ (∀ key ∈ keys, ∃ id, NodeId.Denotes key id) ∧ a = b := by
  have hread (key : String) :
      ¬ (NodeId.ofKey? key).isNone = true ↔ ∃ id, NodeId.Denotes key id := by
    rw [NodeId.isNone_ofKey?_iff, not_forall_not]
  unfold checked
  split
  · next key hkey =>
    refine ⟨nofun, ?_⟩
    rintro ⟨hall, -⟩
    have hnone := List.find?_some hkey
    exact absurd hnone ((hread key).2 (hall key (List.mem_of_find?_eq_some hkey)))
  · next hnone =>
    rw [Except.ok.injEq]
    refine ⟨?_, And.right⟩
    intro h
    exact ⟨fun key hkey => (hread key).1 (List.find?_eq_none.1 hnone key hkey), h⟩

theorem checked_of_first {before after : List String} {key : String} (a : α)
    (hbefore : ∀ k ∈ before, ∃ id, NodeId.Denotes k id) (hkey : ∀ id, ¬ NodeId.Denotes key id) :
    checked (before ++ key :: after) a = .error (.invalidNodeKey key) := by
  have hfind : (before ++ key :: after).find? (fun k => (NodeId.ofKey? k).isNone) = some key := by
    apply List.find?_eq_some_iff_append.2
    refine ⟨NodeId.isNone_ofKey?_iff.2 hkey, before, after, rfl, ?_⟩
    intro k hk
    rw [Bool.not_eq_true', ← Bool.not_eq_true, NodeId.isNone_ofKey?_iff, not_forall_not]
    exact hbefore k hk
  unfold checked
  rw [hfind]

theorem checked_bind {keys' : List String} {a : α} {b : β} {f : α → Except LoadError β}
    (h : f a = checked keys' b) : (checked keys a).bind f = checked (keys ++ keys') b := by
  unfold checked at h ⊢
  rw [List.find?_append]
  cases keys.find? fun key => (NodeId.ofKey? key).isNone with
  | some key => rfl
  | none => exact h

theorem checked_map (a : α) (f : α → β) :
    (checked keys a).bind (fun a => .ok (f a)) = checked keys (f a) := by
  unfold checked
  cases keys.find? fun key => (NodeId.ofKey? key).isNone <;> rfl

/-- Steps that each read some keys read them all, one step after the other. -/
theorem foldlM_checked {f : σ → α → Except LoadError σ} {keys : α → List String} {put : σ → α → σ}
    (hf : ∀ s a, f s a = checked (keys a) (put s a)) (as : List α) (s : σ) :
    as.foldlM f s = checked (as.flatMap keys) (as.foldl put s) := by
  induction as generalizing s with
  | nil => rfl
  | cons a as ih =>
    rw [List.foldlM_cons, List.flatMap_cons, List.foldl_cons, hf]
    exact checked_bind (ih (put s a))

theorem nodeId_bind {key : String} {f : NodeId → Except LoadError α} {keys : List String} {a : α}
    (h : ∀ id, NodeId.ofKey? key = some id → f id = checked keys a) :
    (nodeId key).bind f = checked (key :: keys) a := by
  unfold nodeId checked
  rw [List.find?_cons]
  cases hid : NodeId.ofKey? key with
  | none => rfl
  | some id => exact h id hid

end Checked

/-- The nodes with that of an entry, if its key is a number. -/
def putNode (nodes : Table NodeId Node) (e : String × Document.Node) : Table NodeId Node :=
  match NodeId.ofKey? e.1 with
  | some id => nodes.insert id (nodeOf e.2)
  | none => nodes

/-- The edges with one more, if the keys of its ends are numbers. -/
def putLink (edges : Table NodeId (Table NodeId Constraints))
    (e : (String × String) × Document.Edge) : Table NodeId (Table NodeId Constraints) :=
  match NodeId.ofKey? e.1.1, NodeId.ofKey? e.1.2 with
  | some parent, some child => insertEdge edges parent child e.2
  | _, _ => edges

theorem loadNodes_eq (t : Table String Document.Node) :
    loadNodes t = checked t.keys (t.entries.foldl putNode .empty) := by
  rw [Table.keys, List.map_eq_flatMap]
  apply foldlM_checked
  intro nodes e
  apply nodeId_bind
  intro id hid
  unfold putNode
  rw [hid]
  rfl

theorem loadEdges_eq (g : Document.Graph) :
    loadEdges g.edges = checked (g.edges.entries.flatMap fun e => e.1 :: e.2.keys)
      (g.links.foldl putLink .empty) := by
  unfold Document.Graph.links
  rw [List.foldl_flatMap]
  apply foldlM_checked
  intro edges targets
  apply nodeId_bind
  intro parent hparent
  rw [Table.keys, List.map_eq_flatMap, Document.Graph.linksFrom, List.foldl_map]
  apply foldlM_checked
  intro edges e
  apply nodeId_bind
  intro child hchild
  unfold putLink
  rw [hparent, hchild]
  rfl

/-- A document whose pattern compiles is loaded by reading its keys and putting in its nodes and its
edges, in their order. -/
theorem loadWith_eq {compile : String → Option Pattern} {d : Document} {pattern : Pattern}
    (h : compile d.pattern = some pattern) :
    loadWith compile d = checked d.graph.keys
      { nodes := d.graph.nodes.entries.foldl putNode .empty
        edges := d.graph.links.foldl putLink .empty
        rules := d.rules.toArray
        onmatchRules := d.onmatchRules.toArray
        onmatchLookup := d.onmatchLookup
        pattern := pattern
        classes := d.classes.mapValues classSet
        whitespace := d.whitespace } := by
  unfold loadWith
  rw [h]
  show (loadNodes d.graph.nodes).bind (fun nodes => (loadEdges d.graph.edges).bind _) = _
  rw [loadNodes_eq, loadEdges_eq]
  apply checked_bind
  exact checked_map _ fun edges => Grammar.mk _ edges _ _ _ _ _ _

/-! ## The last key wins -/

/-- A step that writes its value where it is looked for, if it writes one, and that changes nothing
there if not. -/
def Writes {α β σ : Type} (look : σ → Option β) (put : σ → α → σ) (writes : α → Prop)
    [DecidablePred writes] (value : α → β) : Prop :=
  ∀ s a, look (put s a) = if writes a then some (value a) else look s

section Writes

variable {κ α β σ : Type} {look : σ → Option β} {put : σ → κ × α → σ} {writes : κ × α → Prop}
  [DecidablePred writes] {value : κ × α → β} (h : Writes look put writes value)
  {s : σ} (hs : look s = none)

include h hs

/-- The last entry that writes says what is there in the end. -/
theorem Writes.look_foldl (es : List (κ × α)) :
    look (es.foldl put s) = (es.filter writes).getLast?.map value := by
  induction es using List.reverseRecOn with
  | nil => exact hs
  | append_singleton es e ih =>
    rw [List.foldl_concat, h, List.filter_append, ih]
    by_cases he : writes e <;> simp [he]

theorem Writes.isSome_iff (es : List (κ × α)) :
    (look (es.foldl put s)).isSome = true ↔ ∃ e ∈ es, writes e := by
  rw [h.look_foldl hs, Option.isSome_map, List.getLast?_isSome, ne_eq, List.filter_eq_nil_iff]
  simp only [decide_eq_true_iff, not_forall, not_not, exists_prop]

/-- Where the entries stand in the order of their keys it is the entry of the last key of all that
write. -/
theorem Writes.exists_last {lt : κ → κ → Prop} {es : List (κ × α)}
    (hes : es.Pairwise fun a b => lt a.1 b.1) {b : β} (hb : look (es.foldl put s) = some b) :
    ∃ e ∈ es, writes e ∧ value e = b ∧
      Last lt (fun k => ∃ v, (k, v) ∈ es ∧ writes (k, v)) e.1 := by
  rw [h.look_foldl hs] at hb
  obtain ⟨e, he, hb⟩ := Option.map_eq_some_iff.1 hb
  obtain ⟨before, hbefore⟩ := List.getLast?_eq_some_iff.1 he
  have hmem (x : κ × α) : x ∈ es ∧ writes x ↔ x ∈ before ∨ x = e := by
    rw [← List.mem_singleton, ← List.mem_append, ← hbefore, List.mem_filter, decide_eq_true_iff]
  have hsorted := hes.filter fun e => decide (writes e)
  rw [hbefore] at hsorted
  obtain ⟨hes, hwrites⟩ := (hmem e).2 (.inr rfl)
  refine ⟨e, hes, hwrites, hb, ⟨e.2, hes, hwrites⟩, ?_⟩
  rintro k ⟨v, hv⟩
  rcases (hmem (k, v)).1 hv with hk | rfl
  · exact .inr ((List.pairwise_append.1 hsorted).2.2 _ hk e (List.mem_singleton_self e))
  · exact .inl rfl

end Writes

theorem get?_putNode (nodes : Table NodeId Node) (e : String × Document.Node) (id : NodeId) :
    (putNode nodes e).get? id =
      if NodeId.ofKey? e.1 = some id then some (nodeOf e.2) else nodes.get? id := by
  unfold putNode
  cases NodeId.ofKey? e.1 with
  | none => rfl
  | some id' =>
    simp only [Option.some.injEq]
    exact Table.get?_insert_eq_ite nodes id' id (nodeOf e.2)

theorem writes_putNode (id : NodeId) :
    Writes (fun nodes : Table NodeId Node => nodes.get? id) putNode
      (fun e => NodeId.ofKey? e.1 = some id) (fun e => nodeOf e.2) :=
  fun nodes e => get?_putNode nodes e id

theorem get?_insertEdge (edges : Table NodeId (Table NodeId Constraints)) (p c : NodeId)
    (e : Document.Edge) (parent child : NodeId) :
    ((insertEdge edges p c e).get? parent).bind (·.get? child) =
      if p = parent ∧ c = child ∧ e.demand.isEmpty = false
      then some e.demand else (edges.get? parent).bind (·.get? child) := by
  show ((if e.demand.isEmpty = true then edges else
    edges.insert p (((edges.get? p).getD .empty).insert c e.demand)).get? parent).bind _ = _
  by_cases hfree : e.demand.isEmpty = true
  · rw [if_pos hfree, if_neg (by simp [hfree])]
  · rw [if_neg hfree, Table.get?_insert_eq_ite]
    by_cases hp : p = parent
    · subst hp
      rw [if_pos rfl, Option.bind_some, Table.get?_insert_eq_ite]
      cases edges.get? p <;> simp [hfree]
    · rw [if_neg hp, if_neg (by simp [hp])]

theorem get?_putLink (edges : Table NodeId (Table NodeId Constraints))
    (e : (String × String) × Document.Edge) (parent child : NodeId) :
    ((putLink edges e).get? parent).bind (·.get? child) =
      if NodeId.ofKey? e.1.1 = some parent ∧ NodeId.ofKey? e.1.2 = some child ∧
        e.2.demand.isEmpty = false
      then some e.2.demand else (edges.get? parent).bind (·.get? child) := by
  unfold putLink
  cases NodeId.ofKey? e.1.1 with
  | none => rfl
  | some p =>
    cases NodeId.ofKey? e.1.2 with
    | none => rw [if_neg (by simp)]
    | some c =>
      simp only [Option.some.injEq]
      exact get?_insertEdge edges p c e.2 parent child

theorem writes_putLink (parent child : NodeId) :
    Writes (fun edges : Table NodeId (Table NodeId Constraints) =>
        (edges.get? parent).bind (·.get? child)) putLink
      (fun e => NodeId.ofKey? e.1.1 = some parent ∧ NodeId.ofKey? e.1.2 = some child ∧
        e.2.demand.isEmpty = false)
      (fun e => e.2.demand) :=
  fun edges e => get?_putLink edges e parent child

end Grammar

/-! ## What stands under keys -/

namespace Document

/-- The node that is made of one of the document: its fallback list is the one under the key of
fallback lists, and the other lists stand under their tokens unless they are empty. -/
structure Node.Makes (n : Node) (m : Translit.Node) : Prop where
  accepting : m.accepting = n.accepting
  rule : m.rule = n.rule
  fallback : m.fallback = (n.orderedChildren.get? fallbackKey).getD []
  children : ∀ token ids, m.children.get? token = some ids ↔
    token ≠ fallbackKey ∧ ids ≠ [] ∧ n.orderedChildren.get? token = some ids

theorem Node.makes_nodeOf (n : Node) : n.Makes (Grammar.nodeOf n) := by
  refine ⟨rfl, rfl, rfl, ?_⟩
  intro token ids
  show (n.orderedChildren.filter _).get? token = some ids ↔ _
  rw [Table.get?_filter, Option.filter_eq_some_iff, decide_eq_true_iff, and_comm, and_assoc]

namespace Graph

/-- Between two keys, for these nodes, there is an edge with these constraints, one at least. -/
def Constrains (g : Graph) (parent child : NodeId) (ends : String × String) (k : Constraints) :
    Prop :=
  ∃ e, g.edge? ends = some e ∧ NodeId.Denotes ends.1 parent ∧ NodeId.Denotes ends.2 child ∧
    e.constraints = some k ∧ k.kinds ≠ []

/-- The grammar has a node for each number that a key denotes, made of what is under the last of its
keys, and constraints for each two nodes that have some, those between their last keys. -/
structure Becomes (graph : Graph) (g : Grammar) : Prop where
  isSome_node?_iff : ∀ id, (g.node? id).isSome = true ↔
    ∃ key ∈ graph.nodes.keys, NodeId.Denotes key id
  node? : ∀ id m, g.node? id = some m →
    ∃ key n, Last KeyLt (fun key => key ∈ graph.nodes.keys ∧ NodeId.Denotes key id) key ∧
      graph.nodes.get? key = some n ∧ n.Makes m
  isSome_edge?_iff : ∀ parent child, (g.edge? parent child).isSome = true ↔
    ∃ ends k, graph.Constrains parent child ends k
  edge? : ∀ parent child k, g.edge? parent child = some k →
    ∃ ends, Last (Prod.Lex KeyLt KeyLt) (fun ends => ∃ k, graph.Constrains parent child ends k)
      ends ∧ graph.Constrains parent child ends k

theorem constrains_iff {g : Graph} {parent child : NodeId} {ends : String × String}
    {k : Constraints} : g.Constrains parent child ends k ↔
      ∃ e, (ends, e) ∈ g.links ∧ (NodeId.ofKey? ends.1 = some parent ∧
        NodeId.ofKey? ends.2 = some child ∧ e.demand.isEmpty = false) ∧ e.demand = k := by
  have hdemand (e : Edge) : e.constraints = some k ∧ k.kinds ≠ [] ↔
      e.demand.isEmpty = false ∧ e.demand = k := by
    unfold Edge.demand
    cases e.constraints with
    | none =>
      refine ⟨nofun, ?_⟩
      rintro ⟨hempty, -⟩
      cases hempty
    | some k' =>
      rw [Option.getD_some, Option.some.injEq, Constraints.isEmpty, List.isEmpty_eq_false_iff]
      constructor
      · rintro ⟨rfl, hk⟩
        exact ⟨hk, rfl⟩
      · rintro ⟨hk, rfl⟩
        exact ⟨rfl, hk⟩
  simp only [Constrains, mem_links_iff, NodeId.ofKey?_eq_some_iff, hdemand, and_assoc]

theorem becomes_of_eq (graph : Graph) {g : Grammar}
    (hnodes : g.nodes = graph.nodes.entries.foldl Grammar.putNode .empty)
    (hedges : g.edges = graph.links.foldl Grammar.putLink .empty) : graph.Becomes g := by
  have hkey (id : NodeId) :
      (fun key => ∃ n, (key, n) ∈ graph.nodes.entries ∧ NodeId.ofKey? key = some id) =
        fun key => key ∈ graph.nodes.keys ∧ NodeId.Denotes key id := by
    funext key
    simp [Table.keys, NodeId.ofKey?_eq_some_iff]
  have hends (parent child : NodeId) :
      (fun ends => ∃ e, (ends, e) ∈ graph.links ∧ NodeId.ofKey? ends.1 = some parent ∧
        NodeId.ofKey? ends.2 = some child ∧ e.demand.isEmpty = false) =
      fun ends => ∃ k, graph.Constrains parent child ends k := by
    funext ends
    simp [constrains_iff]
  constructor
  · intro id
    rw [Grammar.node?, hnodes, (Grammar.writes_putNode id).isSome_iff rfl]
    simp [← congrFun (hkey id)]
  · intro id m hm
    rw [Grammar.node?, hnodes] at hm
    obtain ⟨e, he, -, rfl, hlast⟩ :=
      (Grammar.writes_putNode id).exists_last rfl graph.nodes.keyLt_entries hm
    exact ⟨e.1, e.2, hkey id ▸ hlast, Table.get?_eq_some_iff.2 he, e.2.makes_nodeOf⟩
  · intro parent child
    rw [Grammar.edge?, hedges, (Grammar.writes_putLink parent child).isSome_iff rfl]
    simp [← congrFun (hends parent child)]
  · intro parent child k hk
    rw [Grammar.edge?, hedges] at hk
    obtain ⟨e, he, hwrites, hvalue, hlast⟩ :=
      (Grammar.writes_putLink parent child).exists_last rfl graph.linkLt_links hk
    exact ⟨e.1, hends parent child ▸ hlast, constrains_iff.2 ⟨e.2, he, hwrites, hvalue⟩⟩

end Graph

/-! ## What leaves no trace -/

/-- The node without its empty lists of children. -/
def Node.pruned (n : Node) : Node :=
  { n with orderedChildren := n.orderedChildren.filter fun _ ids => ids ≠ [] }

theorem Node.nodeOf_pruned (n : Node) : Grammar.nodeOf n.pruned = Grammar.nodeOf n := by
  have hchildren : (Grammar.nodeOf n.pruned).children = (Grammar.nodeOf n).children := by
    apply Table.eq_of_entries
    show (n.orderedChildren.entries.filter _).filter _ = n.orderedChildren.entries.filter _
    rw [List.filter_filter]
    congr 1
    funext e
    simp
  have hfallback : (Grammar.nodeOf n.pruned).fallback = (Grammar.nodeOf n).fallback := by
    show ((n.orderedChildren.filter _).get? fallbackKey).getD [] =
      (n.orderedChildren.get? fallbackKey).getD []
    rw [Table.get?_filter]
    cases n.orderedChildren.get? fallbackKey with
    | none => rfl
    | some ids => cases ids <;> rfl
  unfold Grammar.nodeOf
  rw [Translit.Node.mk.injEq]
  exact ⟨rfl, rfl, hchildren, hfallback⟩

/-- The automaton without empty lists of children, without edges that ask for nothing, and without
parents that have no other edges. -/
def Graph.pruned (g : Graph) : Graph where
  nodes := g.nodes.mapValues Node.pruned
  edges := (g.edges.mapValues fun targets => targets.filter fun _ e => !e.demand.isEmpty).filter
    fun _ targets => targets.entries ≠ []

namespace Graph

variable (graph : Graph)

theorem linksFrom_filter (parent : String) (targets : Table String Edge) :
    linksFrom parent (targets.filter fun _ e => !e.demand.isEmpty) =
      (linksFrom parent targets).filter fun e => !e.2.demand.isEmpty := by
  unfold linksFrom
  rw [List.filter_map]
  rfl

theorem links_pruned : graph.pruned.links = graph.links.filter fun e => !e.2.demand.isEmpty := by
  unfold links
  rw [List.filter_flatMap]
  show ((graph.edges.entries.map _).filter _).flatMap _ = _
  induction graph.edges.entries with
  | nil => rfl
  | cons e es ih =>
    rw [List.map_cons, List.filter_cons, List.flatMap_cons, ← linksFrom_filter, ← ih]
    split
    · rfl
    · next hnone =>
      -- a parent that is left out has no edges any more
      have hnil : (e.2.filter fun _ e => !e.demand.isEmpty).entries = [] := by simpa using hnone
      rw [linksFrom, hnil]
      rfl

/-- An edge that asks for nothing is not put in. -/
theorem putLink_of_isEmpty {edges : Table NodeId (Table NodeId Constraints)}
    {e : (String × String) × Edge} (h : e.2.demand.isEmpty = true) :
    Grammar.putLink edges e = edges := by
  unfold Grammar.putLink
  split
  · exact if_pos h
  · rfl

theorem foldl_putLink_pruned :
    graph.pruned.links.foldl Grammar.putLink .empty = graph.links.foldl Grammar.putLink .empty := by
  rw [links_pruned, List.foldl_filter]
  congr 1
  funext edges e
  split
  · rfl
  · next h => exact (putLink_of_isEmpty (by simpa using h)).symm

theorem foldl_putNode_pruned :
    graph.pruned.nodes.entries.foldl Grammar.putNode .empty =
      graph.nodes.entries.foldl Grammar.putNode .empty := by
  show (graph.nodes.entries.map _).foldl _ _ = _
  rw [List.foldl_map]
  congr 1
  funext nodes e
  unfold Grammar.putNode
  rw [Node.nodeOf_pruned]

theorem mem_keys_of_pruned {key : String} (h : key ∈ graph.pruned.keys) : key ∈ graph.keys := by
  have hnodes : graph.pruned.nodes.keys = graph.nodes.keys := List.map_map
  unfold keys at h ⊢
  rw [hnodes] at h
  rcases List.mem_append.1 h with h | h
  · exact List.mem_append_left _ h
  · obtain ⟨e', he', hkey⟩ := List.mem_flatMap.1 h
    obtain ⟨e, he, rfl⟩ := List.mem_map.1 (List.mem_filter.1 he').1
    refine List.mem_append_right _ (List.mem_flatMap.2 ⟨e, he, ?_⟩)
    rcases List.mem_cons.1 hkey with rfl | hkey
    · exact List.mem_cons_self
    · obtain ⟨f, hf, rfl⟩ := List.mem_map.1 hkey
      exact List.mem_cons_of_mem _ (List.mem_map_of_mem (List.mem_filter.1 hf).1)

end Graph

end Document

/-! ## Loading -/

namespace Grammar

/-- **Loading is faithful and fails at bad keys only.** Take any way to compile patterns and a
document whose pattern compiles. It loads if all its keys are numbers, and else the first key that
is none is the error; keys are read in the order of their bytes, those of nodes before those of
edges and each parent's before its children's. The grammar has the nodes and the constraints that
stand under the last keys in this order, and has no others. What asks for nothing and lists that
are empty leave no trace. -/
theorem load_byKeys (compile : String → Option Pattern) {d : Document}
    (hpattern : (compile d.pattern).isSome = true) :
    ((∃ g, loadWith compile d = .ok g) ↔ ∀ key ∈ d.graph.keys, ∃ id, NodeId.Denotes key id) ∧
    (∀ before key after, d.graph.keys = before ++ key :: after →
      (∀ k ∈ before, ∃ id, NodeId.Denotes k id) → (∀ id, ¬ NodeId.Denotes key id) →
      loadWith compile d = .error (.invalidNodeKey key)) ∧
    (d.graph.nodes.keys.Pairwise KeyLt ∧ d.graph.edges.keys.Pairwise KeyLt ∧
      ∀ e ∈ d.graph.edges.entries, e.2.keys.Pairwise KeyLt) ∧
    ∀ g, loadWith compile d = .ok g →
      d.graph.Becomes g ∧ loadWith compile { d with graph := d.graph.pruned } = .ok g := by
  obtain ⟨pattern, hpattern⟩ := Option.isSome_iff_exists.1 hpattern
  refine ⟨?_, ?_, ?_, ?_⟩
  · rw [loadWith_eq hpattern]
    constructor
    · rintro ⟨g, hg⟩
      exact (checked_eq_ok_iff.1 hg).1
    · intro hall
      exact ⟨_, checked_eq_ok_iff.2 ⟨hall, rfl⟩⟩
  · intro before key after hsplit hbefore hkey
    rw [loadWith_eq hpattern, hsplit]
    exact checked_of_first _ hbefore hkey
  · exact ⟨d.graph.nodes.keyLt_keys, d.graph.edges.keyLt_keys, fun e _ => e.2.keyLt_keys⟩
  · intro g hg
    rw [loadWith_eq hpattern] at hg
    obtain ⟨hall, hg⟩ := checked_eq_ok_iff.1 hg
    refine ⟨d.graph.becomes_of_eq (hg ▸ rfl) (hg ▸ rfl), ?_⟩
    have hpruned := loadWith_eq (d := { d with graph := d.graph.pruned }) hpattern
    rw [d.graph.foldl_putNode_pruned, d.graph.foldl_putLink_pruned] at hpruned
    rw [hpruned]
    apply checked_eq_ok_iff.2
    exact ⟨fun key hkey => hall key (d.graph.mem_keys_of_pruned hkey), hg⟩

/-- A document with three keys for the node `1`, two edges from `0` to it, of which the last asks
for nothing, and the key of another parent. -/
def keyedDocument (parent : String) : Document where
  graph := {
    nodes := .ofList [("0", ⟨false, none, .ofList [("a", [1])]⟩), ("+1", ⟨true, some 5, .empty⟩),
      ("01", ⟨true, some 6, .empty⟩),
      ("1", ⟨true, some 7, .ofList [("a", []), (Document.fallbackKey, [0])]⟩)]
    edges := .ofList [
      ("0", .ofList [("01", ⟨some ⟨some ["a"], none, none, none⟩⟩), ("1", ⟨some .empty⟩)]),
      (parent, .ofList [("1", ⟨none⟩)])] }
  rules := []
  onmatchRules := []
  onmatchLookup := .empty
  pattern := "a"
  classes := .empty
  whitespace := ⟨" ", "blank", true⟩

/-- The last key of the node says what it is. The edge to `01` counts and not the one to `1`, which
asks for nothing. With a parent's key that is too large a number the document does not load. -/
theorem load_byKeys_keyedDocument :
    let d := keyedDocument "2"
    let d' := keyedDocument "18446744073709551616"
    (Pattern.compile? d.pattern).isSome = true ∧
    (∃ g, load d = .ok g ∧ d.graph.Becomes g ∧ load { d with graph := d.graph.pruned } = .ok g ∧
      g.node? 1 = some ⟨true, some 7, .empty, [0]⟩ ∧
      g.edge? 0 1 = some ⟨some ["a"], none, none, none⟩ ∧ g.edge? 2 1 = none) ∧
    load d' = .error (.invalidNodeKey "18446744073709551616") := by
  intro d d'
  have hpattern : (Pattern.compile? d.pattern).isSome = true := by cbv
  have hload : load d = .ok ⟨.ofList [(0, ⟨false, none, .ofList [("a", [1])], []⟩),
      (1, ⟨true, some 7, .empty, [0]⟩)],
      .ofList [(0, .ofList [(1, ⟨some ["a"], none, none, none⟩)])], #[], #[], .empty,
      ⟨"a", 0, #[.take (.single 'a'), .accept]⟩, .empty, ⟨" ", "blank", true⟩⟩ := by
    cbv
  have hsplit : d'.graph.keys =
      ["+1", "0", "01", "1", "0", "01", "1"] ++ "18446744073709551616" :: ["1"] := by
    cbv
  have hread : ∀ key ∈ ["+1", "0", "01", "1", "0", "01", "1"],
      ¬ (NodeId.ofKey? key).isNone = true := by
    decide
  have hnone : (NodeId.ofKey? "18446744073709551616").isNone = true := by decide
  obtain ⟨-, -, -, hloads⟩ := load_byKeys Pattern.compile? (d := d) hpattern
  obtain ⟨hbecomes, hpruned⟩ := hloads _ hload
  obtain ⟨-, hfirst, -, -⟩ := load_byKeys Pattern.compile? (d := d') hpattern
  refine ⟨hpattern, ⟨_, hload, hbecomes, hpruned, by cbv, by cbv, by cbv⟩, ?_⟩
  apply hfirst _ _ _ hsplit
  · intro key hkey
    have hkey := hread key hkey
    rwa [NodeId.isNone_ofKey?_iff, not_forall_not] at hkey
  · exact NodeId.isNone_ofKey?_iff.1 hnone

end Grammar

end Translit
