import Translit.Proofs.Grammar.Depth
import Translit.Proofs.Walk.Cap

/-!
# How many entries wait

Where a walk is, some of the nodes that each level of its path lists have not been come to, and
nothing else waits. So where paths and lists are short, few entries wait at any time.

* `Grammar.Narrow` : no list of a node is longer than a bound; `Narrow.of_entries` : a check of it;
* `Stacked` : behind an entry there wait no more than its level and those above it have left;
* `Stacked.listed`, `Stacked.step`, `Stacked.after` : what waits stays so;
* `Stacked.length_le`, `heights_le` : the most that ever waits;
* `rules_of_room_le` : a cap that is not below it does nothing.
-/

namespace Translit

namespace Grammar

/-- No list of a node, under a token or in place of one, has more than `breadth` entries. -/
def Narrow (g : Grammar) (breadth : Nat) : Prop :=
  ∀ id n, g.node? id = some n → n.fallback.length ≤ breadth ∧
    ∀ token ids, n.children.get? token = some ids → ids.length ≤ breadth

/-- The most entries that wait in an automaton of so many levels with lists of so many entries. -/
def room (depth breadth : Nat) : Nat := depth * (breadth - 1) + 1

theorem Narrow.length_successors_le {g : Grammar} {breadth : Nat} (h : g.Narrow breadth)
    {id : NodeId} {n : Node} (hn : g.node? id = some n) (token : String) :
    (n.successors token).length ≤ breadth := by
  obtain ⟨hfallback, hchildren⟩ := h id n hn
  unfold Node.successors
  cases hc : n.children.get? token with
  | none => exact hfallback
  | some ids => exact hchildren token ids hc

/-- The entries of a grammar tell how long its lists are. -/
theorem Narrow.of_entries {g : Grammar} {breadth : Nat}
    (h : (g.nodes.entries.all fun e => decide (e.2.fallback.length ≤ breadth) &&
      e.2.children.entries.all fun c => decide (c.2.length ≤ breadth)) = true) :
    g.Narrow breadth := by
  intro id n hn
  have hentry := List.all_eq_true.1 h _ (Table.mem_of_get? hn)
  simp only [Bool.and_eq_true, decide_eq_true_eq, List.all_eq_true] at hentry
  refine ⟨hentry.1, ?_⟩
  intro token ids hids
  exact hentry.2 _ (Table.mem_of_get? hids)

end Grammar

namespace Walk

open Grammar

variable {w : Walk} {depth breadth : Nat}

/-- Behind each entry there wait no more than its level and those above it have left, which is all
but one of what each of them lists. -/
inductive Stacked (g : Grammar) (breadth : Nat) : List Entry → Prop
  | nil : Stacked g breadth []
  | cons {path : List NodeId} {e : Entry} {rest : List Entry} : g.Leads path e.node →
    rest.length ≤ (path.length + 1) * (breadth - 1) → Stacked g breadth rest →
    Stacked g breadth (e :: rest)

theorem Stacked.tail {g : Grammar} {e : Entry} {rest : List Entry}
    (h : Stacked g breadth (e :: rest)) : Stacked g breadth rest := by
  cases h with
  | cons _ _ hrest => exact hrest

/-- Where paths are bounded, so is the number of entries. -/
theorem Stacked.length_le {g : Grammar} (hshallow : g.Shallow depth) {pending : List Entry}
    (h : Stacked g breadth pending) : pending.length ≤ room depth breadth := by
  unfold room
  cases h with
  | nil => exact Nat.zero_le _
  | @cons path e rest hpath hrest _ =>
    have hlevel : path.length + 1 ≤ depth := hshallow.length_lt hpath
    have hmul := Nat.mul_le_mul_right (breadth - 1) hlevel
    rw [List.length_cons]
    omega

/-- Entries of one list, put before what the levels above have left. -/
theorem Stacked.append {g : Grammar} (level : Nat) {es rest : List Entry}
    (hes : ∀ e ∈ es, ∃ path, g.Leads path e.node ∧ path.length = level)
    (hlength : es.length ≤ breadth) (hroom : rest.length ≤ level * (breadth - 1))
    (hrest : Stacked g breadth rest) : Stacked g breadth (es ++ rest) := by
  induction es with
  | nil => exact hrest
  | cons e es ih =>
    obtain ⟨path, hpath, rfl⟩ := hes e List.mem_cons_self
    rw [List.length_cons] at hlength
    apply Stacked.cons hpath
    · show (es ++ rest).length ≤ _
      rw [List.length_append, Nat.succ_mul]
      omega
    · exact ih (fun c hc => hes c (List.mem_cons_of_mem e hc)) (by omega)

section Narrow

variable (hnarrow : w.grammar.Narrow breadth)

include hnarrow

/-- The entry that is taken makes room for all but one of those that it lists. -/
theorem Stacked.listed {e : Entry} {rest : List Entry} {n : Node}
    (h : Stacked w.grammar breadth (e :: rest)) (hn : w.grammar.node? e.node = some n)
    (index : Nat) : Stacked w.grammar breadth (w.listed e.node n index ++ rest) := by
  cases h with
  | @cons path _ _ hpath hroom hrest =>
    refine Stacked.append (path.length + 1) ?_ ?_ hroom hrest
    · intro c hc
      have hlists := lists_of_mem_successors hn (mem_listed hc).1
      exact ⟨path ++ [e.node], hpath.step hlists, by simp⟩
    · unfold Walk.listed
      rw [List.length_map]
      exact hnarrow.length_successors_le hn _

theorem stacked_root {n : Node} (hn : w.grammar.node? root = some n) (index : Nat) :
    Stacked w.grammar breadth (w.listed root n index) := by
  have hroot : Stacked w.grammar breadth (w.listed root n index ++ []) := by
    refine Stacked.append 0 ?_ ?_ (Nat.zero_le _) .nil
    · intro c hc
      exact ⟨[], .root (lists_of_mem_successors hn (mem_listed hc).1), rfl⟩
    · unfold Walk.listed
      rw [List.length_map]
      exact hnarrow.length_successors_le hn _
  rwa [List.append_nil] at hroot

theorem Stacked.step {mode : Mode} {s t : State} (h : Stacked w.grammar breadth s.pending)
    (hstep : w.step mode s = .further t) : Stacked w.grammar breadth t.pending := by
  obtain ⟨e, rest, n, hs, hn, ⟨id, -, rfl⟩ | ⟨-, rfl⟩⟩ := step_further hstep
  · rw [hs] at h
    exact h.tail
  · rw [hs] at h
    exact h.listed hnarrow hn _

theorem Stacked.after {mode : Mode} {n : Nat} {s t : State}
    (h : Stacked w.grammar breadth s.pending) (hafter : w.after mode n s = .further t) :
    Stacked w.grammar breadth t.pending := by
  induction n generalizing s with
  | zero =>
    cases hafter
    exact h
  | succ n ih =>
    unfold Walk.after at hafter
    cases hstep : w.step mode s with
    | ended r =>
      rw [hstep] at hafter
      cases hafter
    | further s' =>
      rw [hstep] at hafter
      exact ih (h.step hnarrow hstep) hafter

variable (hshallow : w.grammar.Shallow depth)

include hshallow

/-- All that waits after some steps from the root. -/
theorem length_pending_le {mode : Mode} {index n : Nat} {pending : List Entry} {s : State}
    (hpush : w.push root index [] = .ok pending)
    (hafter : w.after mode n ⟨pending, []⟩ = .further s) :
    s.pending.length ≤ room depth breadth := by
  obtain ⟨m, hm, rfl⟩ := push_eq_ok hpush
  have hroot : Stacked w.grammar breadth (w.listed root m index ++ []) := by
    rw [List.append_nil]
    exact stacked_root hnarrow hm index
  exact (hroot.after hnarrow hafter).length_le hshallow

theorem heightsFrom_le {mode : Mode} (n : Nat) {s : State}
    (h : Stacked w.grammar breadth s.pending) :
    ∀ size ∈ w.heightsFrom mode n s, size ≤ room depth breadth := by
  induction n generalizing s with
  | zero =>
    intro size hsize
    cases hsize
  | succ n ih =>
    intro size hsize
    unfold heightsFrom at hsize
    rcases List.mem_append.1 hsize with hsize | hsize
    · rw [Option.mem_toList] at hsize
      obtain ⟨e, rest, m, hs, hm, -, rfl⟩ := pushed?_eq_some hsize
      rw [hs] at h
      exact (h.listed hnarrow hm _).length_le hshallow
    · cases hstep : w.step mode s with
      | ended r =>
        rw [hstep] at hsize
        cases hsize
      | further t =>
        rw [hstep] at hsize
        exact ih (h.step hnarrow hstep) size hsize

/-- No push of a walk goes over the bound. -/
theorem heights_le (mode : Mode) (index : Nat) :
    ∀ size ∈ w.heights mode index, size ≤ room depth breadth := by
  intro size hsize
  unfold heights at hsize
  split at hsize
  · cases hsize
  · split at hsize
    · cases hsize
    · next n hn =>
      have hroot := stacked_root hnarrow hn index
      rcases List.mem_cons.1 hsize with rfl | hsize
      · exact hroot.length_le hshallow
      · exact heightsFrom_le hnarrow hshallow _ hroot size hsize

/-- Under a cap that is not below the bound a walk is what it is without one. -/
theorem rules_of_room_le (hcap : room depth breadth ≤ w.cap) (mode : Mode) (index : Nat) :
    w.rules mode index = (w.under 0).rules mode index := by
  have hpos : 0 < w.cap := Nat.lt_of_lt_of_le (Nat.succ_pos _) hcap
  have hfind : ((w.under 0).heights mode index).find? (w.cap < ·) = none := by
    apply List.find?_eq_none.2
    intro size hsize
    have hle := heights_le (w := w.under 0) hnarrow hshallow mode index size hsize
    simp only [decide_eq_true_eq]
    omega
  rw [rules_of_cap hpos, hfind]

end Narrow

end Walk

end Translit
