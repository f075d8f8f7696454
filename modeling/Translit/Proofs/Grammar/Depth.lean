import Mathlib.Data.List.Nodup
import Mathlib.Logic.Relation
import Translit.Proofs.Grammar.Automaton

/-!
# Automata of bounded depth

* `Grammar.Shallow` : the edges have no cycle that the root leads to, and no path from a child of
  the root has more nodes than a bound;
* `Shallow.length_lt` : then no way along the edges is longer;
* `Shallow.of_height` : a height of the nodes as a check of it.
-/

namespace Translit

namespace Grammar

/-- No node that the root leads to leads back to itself, and a path that starts at a child of the
root and passes no node twice has at most `depth` nodes. A node that is listed and is not there
counts too. -/
structure Shallow (g : Grammar) (depth : Nat) : Prop where
  acyclic : ∀ id, g.Reachable id → ¬ Relation.TransGen g.Lists id id
  length_le : ∀ path id, g.Leads path id → (path ++ [id]).Nodup → (path ++ [id]).length ≤ depth

variable {g : Grammar}

theorem reachable_of_leads {path : List NodeId} {id : NodeId} (h : g.Leads path id) :
    g.Reachable id := by
  induction h with
  | root hlists => exact .step .root hlists
  | step _ hlists ih => exact .step ih hlists

theorem transGen_of_mem_path {path : List NodeId} {id : NodeId} (h : g.Leads path id) :
    ∀ id' ∈ path, Relation.TransGen g.Lists id' id := by
  induction h with
  | root =>
    intro id' hid
    cases hid
  | @step path parent child _ hlists ih =>
    intro id' hid
    rcases List.mem_append.1 hid with hid | hid
    · exact (ih id' hid).tail hlists
    · rw [List.mem_singleton.1 hid]
      exact .single hlists

namespace Shallow

variable {depth : Nat}

/-- Where there is no cycle, no path passes a node twice. -/
theorem nodup (h : g.Shallow depth) {path : List NodeId} {id : NodeId} (hpath : g.Leads path id) :
    (path ++ [id]).Nodup := by
  induction hpath with
  | root => exact List.nodup_singleton _
  | @step path parent child hpath hlists ih =>
    rw [List.nodup_append]
    refine ⟨ih, List.nodup_singleton _, ?_⟩
    rintro id hid id' hid' rfl
    obtain rfl := List.mem_singleton.1 hid'
    have hchild := hpath.step hlists
    exact h.acyclic id (reachable_of_leads hchild) (transGen_of_mem_path hchild id hid)

theorem length_lt (h : g.Shallow depth) {path : List NodeId} {id : NodeId}
    (hpath : g.Leads path id) : path.length < depth := by
  have hle := h.length_le path id hpath (h.nodup hpath)
  rw [List.length_append, List.length_singleton] at hle
  omega

/-- Nodes of which each is higher than those that it lists, the root at most `depth` high. -/
theorem of_height (height : NodeId → Nat) (hroot : height root ≤ depth)
    (h : (g.nodes.entries.all fun e =>
      (e.2.fallback ++ e.2.children.entries.flatMap (·.2)).all (height · < height e.1)) = true) :
    g.Shallow depth := by
  have hlower {parent child : NodeId} (hlists : g.Lists parent child) :
      height child < height parent := by
    obtain ⟨n, hn, hchild⟩ := hlists
    have hentry := List.all_eq_true.1 h _ (Table.mem_of_get? hn)
    have hmem : child ∈ n.fallback ++ n.children.entries.flatMap (·.2) := by
      rw [List.mem_append, List.mem_flatMap]
      rcases hchild with hchild | ⟨token, ids, hids, hchild⟩
      · exact Or.inl hchild
      · exact Or.inr ⟨_, Table.mem_of_get? hids, hchild⟩
    simpa using List.all_eq_true.1 hentry child hmem
  have hbelow {id id' : NodeId} (hfar : Relation.TransGen g.Lists id id') :
      height id' < height id := by
    induction hfar with
    | single hlists => exact hlower hlists
    | tail _ hlists ih => exact Nat.lt_trans (hlower hlists) ih
  have hpath {path : List NodeId} {id : NodeId} (hleads : g.Leads path id) :
      height id + (path ++ [id]).length ≤ height root := by
    induction hleads with
    | root hlists => exact hlower hlists
    | @step path parent child _ hlists ih =>
      have hlt := hlower hlists
      simp only [List.length_append, List.length_singleton] at ih ⊢
      omega
  refine ⟨?_, ?_⟩
  · intro id _ hcycle
    exact Nat.lt_irrefl _ (hbelow hcycle)
  · intro path id hleads _
    have hle := hpath hleads
    omega

end Shallow

end Grammar

end Translit
