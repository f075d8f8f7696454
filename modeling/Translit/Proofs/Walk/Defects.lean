import Translit.Proofs.Grammar.Closed
import Translit.Proofs.Walk.Steps

/-!
# Defects that a walk comes upon

Every entry that waits is listed by its parent, and the parent is there. So the node of an entry is
missing only where an existing node lists it, and what an accepting node lacks it lacks in the
grammar itself.

* `hasDefect_of_step`, `hasDefect_of_rules` : the defect that a step, and a walk, ends with is one
  of the grammar's own;
* `rule_of_matchAt` : the grammar has the rule that matches.
-/

namespace Translit.Walk

open Grammar (lists_of_mem_successors)

variable {w : Walk}

theorem lists_of_listed {id : NodeId} {n : Node} (hn : w.grammar.node? id = some n) (index : Nat) :
    ∀ c ∈ w.listed id n index, w.grammar.Lists c.parent c.node := by
  intro c hc
  obtain ⟨hchild, hparent, -⟩ := mem_listed hc
  rw [hparent]
  exact lists_of_mem_successors hn hchild

/-- Where all entries are listed by their parents, a step comes upon no other defect than those of
the grammar. -/
theorem hasDefect_of_step {mode : Mode} {s : State} {d : Defect}
    (hpending : ∀ e ∈ s.pending, w.grammar.Lists e.parent e.node)
    (h : w.step mode s = .ended (.error (.malformed d))) : w.grammar.HasDefect d := by
  obtain ⟨e, rest, hs, ⟨hmissing, herr⟩ | ⟨n, hn, hacc | hpush⟩⟩ := step_ended_error h
  · cases herr
    exact ⟨hmissing, Or.inr ⟨e.parent, hpending e (by simp [hs])⟩⟩
  · obtain ⟨haccepting, ⟨hnone, herr⟩ | ⟨id, hid, hrule, herr⟩⟩ := accepted_eq_error hacc
    · cases herr
      exact ⟨n, hn, haccepting, hnone⟩
    · cases herr
      exact ⟨n, hn, haccepting, hid, hrule⟩
  · -- the node was looked up before its successors are pushed
    rcases push_eq_error hpush with ⟨hmissing, -⟩ | ⟨-, size, herr⟩
    · rw [hn] at hmissing
      cases hmissing
    · cases herr

/-- A walk comes upon no other defect than those of its grammar. -/
theorem hasDefect_of_rules {mode : Mode} {index : Nat} {d : Defect}
    (h : w.rules mode index = some (.error (.malformed d))) : w.grammar.HasDefect d := by
  unfold rules at h
  split at h
  · cases h
  · cases hpush : w.push Grammar.root index [] with
    | error err =>
      rw [hpush] at h
      obtain rfl : err = .malformed d := by simpa using h
      rcases push_eq_error hpush with ⟨hmissing, herr⟩ | ⟨-, size, herr⟩
      · cases herr
        exact ⟨hmissing, Or.inl rfl⟩
      · cases herr
    | ok pending =>
      rw [hpush] at h
      obtain ⟨n, hn, rfl⟩ := push_eq_ok hpush
      rw [List.append_nil] at h
      let I (s : State) : Prop := ∀ e ∈ s.pending, w.grammar.Lists e.parent e.node
      have hstep (s t : State) (hs : I s) (hnext : w.step mode s = .further t) : I t :=
        pending_of_step (fun e m _ hm _ => lists_of_listed hm _) hs hnext
      have hroot : I ⟨w.listed Grammar.root n index, []⟩ := lists_of_listed hn index
      obtain ⟨s, hs, hlast⟩ := exists_last_step hstep hroot (run_eq_some_iff.1 h)
      exact hasDefect_of_step hs hlast

theorem hasDefect_of_matchAt {index : Nat} {d : Defect}
    (h : w.matchAt index = some (.error (.malformed d))) : w.grammar.HasDefect d := by
  obtain ⟨r, hrules, hfirst⟩ := Option.map_eq_some_iff.1 h
  cases r with
  | error err =>
    obtain rfl : err = .malformed d := Except.error.inj hfirst
    exact hasDefect_of_rules hrules
  | ok ids => cases ids <;> cases hfirst

/-- The grammar has the rule that matches. -/
theorem rule_of_matchAt {index : Nat} {id : RuleId} (h : w.matchAt index = some (.ok id)) :
    ∃ rule, w.grammar.rule? id = some rule := by
  obtain ⟨e, n, -, -, hacc⟩ := givenBy_of_matchAt (P := fun _ => True)
    (fun _ _ _ _ => trivial) (fun _ _ _ _ _ _ _ => trivial) h
  obtain ⟨-, -, rule, hrule, -⟩ := accepted_eq_some_iff.1 hacc
  exact ⟨rule, hrule⟩

end Translit.Walk
