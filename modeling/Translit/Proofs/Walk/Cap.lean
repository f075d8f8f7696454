import Translit.Proofs.Walk.Reading

/-!
# Walks under a cap

A cap on the entries that wait is looked at behind each push. Up to the first push that goes over
it a walk under the cap does the same as one without, and there it ends; entries that are taken and
rules that are found do not count.

* `pushed?`, `heights` : the number of entries behind the push of a step, and behind each push of a
  walk from the first one on;
* `step_under_of_none`, `step_under_of_pushed`, `after_under`, `rules_under` : what a cap does to a
  step, to any number of steps and to a walk;
* `Fault` : the errors that a walk can end with;
* `Admits` : a limit that is not below another; `rules_of_admits` : under such a cap a walk has the
  same result, unless it went over the cap it had.
-/

namespace Translit

/-- A limit that lets pass whatever another lets pass; zero stands for none. -/
def Admits (limit limit' : Nat) : Prop := limit' = 0 ∨ (0 < limit ∧ limit ≤ limit')

theorem Admits.refl (limit : Nat) : Admits limit limit := by
  rcases Nat.eq_zero_or_pos limit with hzero | hpos
  · exact Or.inl hzero
  · exact Or.inr ⟨hpos, Nat.le_refl limit⟩

namespace Walk

/-- The same walk under a cap. -/
def under (w : Walk) (cap : Nat) : Walk := { w with cap := cap }

/-- The number of entries that wait behind the push of a step, if the step makes one. -/
def pushed? (w : Walk) (s : State) : Option Nat :=
  match s.pending with
  | [] => none
  | e :: rest =>
    match w.grammar.node? e.node with
    | none => none
    | some n =>
      match w.accepted e n with
      | .ok none => some (w.listed e.node n (w.nextIndex e.index) ++ rest).length
      | _ => none

/-- The numbers of entries behind the pushes of so many steps, up to the end of the walk. -/
def heightsFrom (w : Walk) (mode : Mode) : Nat → State → List Nat
  | 0, _ => []
  | n + 1, s =>
    (w.pushed? s).toList ++
      match w.step mode s with
      | .ended _ => []
      | .further t => heightsFrom w mode n t

/-- The numbers of entries behind the pushes of a walk at an index, that of the root first. -/
def heights (w : Walk) (mode : Mode) (index : Nat) : List Nat :=
  if w.tokens.size ≤ index then []
  else
    match w.grammar.node? Grammar.root with
    | none => []
    | some n =>
      (w.listed Grammar.root n index).length ::
        w.heightsFrom mode w.steps ⟨w.listed Grammar.root n index, []⟩

/-! ## One step under a cap -/

theorem step_of_push {w : Walk} {e : Entry} {n : Node} (hn : w.grammar.node? e.node = some n)
    (hacc : w.accepted e n = .ok none) (mode : Mode) (rest : List Entry) (found : List RuleId) :
    w.step mode ⟨e :: rest, found⟩ =
      match w.push e.node (w.nextIndex e.index) rest with
      | .error err => .ended (.error err)
      | .ok pending => .further ⟨pending, found⟩ := by
  cases hpush : w.push e.node (w.nextIndex e.index) rest <;> simp only [step, hn, hacc, hpush]

theorem pushed?_eq_some {w : Walk} {s : State} {size : Nat} (h : w.pushed? s = some size) :
    ∃ e rest n, s.pending = e :: rest ∧ w.grammar.node? e.node = some n ∧
      w.accepted e n = .ok none ∧
      size = (w.listed e.node n (w.nextIndex e.index) ++ rest).length := by
  unfold pushed? at h
  split at h
  · cases h
  · next e rest hpending =>
    split at h
    · cases h
    · next n hn =>
      split at h
      · next hacc => exact ⟨e, rest, n, hpending, hn, hacc, (Option.some.inj h).symm⟩
      · cases h

section Under

variable {w : Walk} {cap : Nat}

theorem push_under_of_lt (hcap : 0 < cap) {id : NodeId} {n : Node}
    (hn : w.grammar.node? id = some n) {index : Nat} {pending : List Entry}
    (hlt : cap < (w.listed id n index ++ pending).length) :
    (w.under cap).push id index pending =
      .error (.stackLimit (w.listed id n index ++ pending).length cap) := by
  have hn' : (w.under cap).grammar.node? id = some n := hn
  rw [push_of_node hn']
  exact if_pos ⟨hcap, hlt⟩

theorem push_under_of_le {id : NodeId} {n : Node} (hn : w.grammar.node? id = some n) {index : Nat}
    {pending : List Entry} (hle : (w.listed id n index ++ pending).length ≤ cap) :
    (w.under cap).push id index pending = .ok (w.listed id n index ++ pending) := by
  have hn' : (w.under cap).grammar.node? id = some n := hn
  rw [push_of_node hn']
  exact if_neg fun h => Nat.not_lt.2 hle h.2

/-- A step without a push does not look at the cap. -/
theorem step_under_of_none {s : State} (h : w.pushed? s = none) (mode : Mode) :
    (w.under cap).step mode s = w.step mode s := by
  obtain ⟨pending, found⟩ := s
  cases pending with
  | nil => rfl
  | cons e rest =>
    have hgrammar : (w.under cap).grammar = w.grammar := rfl
    cases hn : w.grammar.node? e.node with
    | none => simp only [step, hgrammar, hn]
    | some n =>
      have haccepted : (w.under cap).accepted e n = w.accepted e n := rfl
      cases hacc : w.accepted e n with
      | error err => simp only [step, hgrammar, hn, haccepted, hacc]
      | ok o =>
        cases o with
        | some id => simp only [step, hgrammar, hn, haccepted, hacc]
        | none => simp [pushed?, hn, hacc] at h

/-- A step with a push ends the walk if the push goes over the cap. -/
theorem step_under_of_pushed (huncapped : w.cap = 0) (hcap : 0 < cap) {s : State} {size : Nat}
    (h : w.pushed? s = some size) (mode : Mode) :
    (w.under cap).step mode s =
      if cap < size then .ended (.error (.stackLimit size cap)) else w.step mode s := by
  obtain ⟨pending, found⟩ := s
  obtain ⟨e, rest, n, rfl, hn, hacc, rfl⟩ := pushed?_eq_some h
  have hn' : (w.under cap).grammar.node? e.node = some n := hn
  have hacc' : (w.under cap).accepted e n = .ok none := hacc
  have hnext : (w.under cap).nextIndex e.index = w.nextIndex e.index := rfl
  rw [step_of_push hn' hacc', step_of_push hn hacc, push_of_uncapped huncapped hn, hnext]
  by_cases hlt : cap < (w.listed e.node n (w.nextIndex e.index) ++ rest).length
  · rw [push_under_of_lt hcap hn hlt, if_pos hlt]
  · rw [push_under_of_le hn (Nat.not_lt.1 hlt), if_neg hlt]

/-! ## Walks under a cap -/

theorem after_under (huncapped : w.cap = 0) (hcap : 0 < cap) (mode : Mode) (n : Nat) (s : State) :
    (w.under cap).after mode n s =
      match (w.heightsFrom mode n s).find? (cap < ·) with
      | some size => .ended (.error (.stackLimit size cap))
      | none => w.after mode n s := by
  induction n generalizing s with
  | zero => rfl
  | succ n ih =>
    -- a step that the cap does not change leaves the rest to the induction
    have hrest (hstep : (w.under cap).step mode s = w.step mode s) :
        (w.under cap).after mode (n + 1) s =
          match (match w.step mode s with
            | .ended _ => []
            | .further t => w.heightsFrom mode n t).find? (cap < ·) with
          | some size => .ended (.error (.stackLimit size cap))
          | none => w.after mode (n + 1) s := by
      rw [after, after, hstep]
      cases w.step mode s with
      | ended r => rfl
      | further t => exact ih t
    rw [heightsFrom, List.find?_append]
    cases hpushed : w.pushed? s with
    | none => exact hrest (step_under_of_none hpushed mode)
    | some size =>
      have hstep := step_under_of_pushed huncapped hcap hpushed mode
      by_cases hlt : cap < size
      · rw [if_pos hlt] at hstep
        rw [after, hstep]
        simp [hlt]
      · rw [if_neg hlt] at hstep
        rw [hrest hstep]
        simp [hlt]

/-- A walk under a cap ends with the first push over the cap, or is the walk without one. -/
theorem rules_under (huncapped : w.cap = 0) (hcap : 0 < cap) (mode : Mode) (index : Nat) :
    (w.under cap).rules mode index =
      match (w.heights mode index).find? (cap < ·) with
      | some size => some (.error (.stackLimit size cap))
      | none => w.rules mode index := by
  have hsize : (w.under cap).tokens.size = w.tokens.size := rfl
  by_cases hi : w.tokens.size ≤ index
  · rw [rules, hsize, if_pos hi, heights, if_pos hi, rules, if_pos hi]
    rfl
  · rw [heights, if_neg hi]
    have hi : index < w.tokens.size := Nat.not_le.1 hi
    have hi' : index < (w.under cap).tokens.size := hi
    cases hn : w.grammar.node? Grammar.root with
    | none =>
      have hn' : (w.under cap).grammar.node? Grammar.root = none := hn
      rw [rules_of_push_error hi' (push_of_missing hn' index []),
        rules_of_push_error hi (push_of_missing hn index [])]
      rfl
    | some n =>
      have hnil : w.listed Grammar.root n index ++ [] = w.listed Grammar.root n index :=
        List.append_nil _
      rw [rules_of_push hi (push_of_uncapped huncapped hn index []), hnil]
      by_cases hlt : cap < (w.listed Grammar.root n index).length
      · rw [rules_of_push_error hi' (push_under_of_lt hcap hn (by rwa [hnil])), hnil]
        simp [hlt]
      · have hle := Nat.not_lt.1 hlt
        have hrun := after_under huncapped hcap mode w.steps ⟨w.listed Grammar.root n index, []⟩
        rw [rules_of_push hi' (push_under_of_le hn (by rwa [hnil])), hnil, run,
          show (w.under cap).steps = w.steps from rfl, hrun]
        simp only [List.find?_cons, hlt, decide_false]
        cases (w.heightsFrom mode w.steps ⟨w.listed Grammar.root n index, []⟩).find? (cap < ·) <;>
          rfl

theorem rules_of_cap (hcap : 0 < w.cap) (mode : Mode) (index : Nat) :
    w.rules mode index =
      match ((w.under 0).heights mode index).find? (w.cap < ·) with
      | some size => some (.error (.stackLimit size w.cap))
      | none => (w.under 0).rules mode index :=
  rules_under (w := w.under 0) rfl hcap mode index

/-! ## Errors of a walk -/

/-- The errors that a walk under a cap can end with. -/
inductive Fault (cap : Nat) : ParseError → Prop
  | malformed (d : Defect) : Fault cap (.malformed d)
  | stackLimit (size : Nat) : 0 < cap → Fault cap (.stackLimit size cap)

theorem fault_of_push {id : NodeId} {index : Nat} {pending : List Entry} {err : ParseError}
    (h : w.push id index pending = .error err) : Fault w.cap err := by
  rcases push_eq_error h with ⟨-, rfl⟩ | ⟨hpos, size, rfl⟩
  · exact .malformed _
  · exact .stackLimit size hpos

theorem fault_of_accepted {e : Entry} {n : Node} {err : ParseError}
    (h : w.accepted e n = .error err) : Fault w.cap err := by
  rcases (accepted_eq_error h).2 with ⟨-, rfl⟩ | ⟨id, -, -, rfl⟩
  · exact .malformed _
  · exact .malformed _

theorem fault_of_step {mode : Mode} {s : State} {err : ParseError}
    (h : w.step mode s = .ended (.error err)) : Fault w.cap err := by
  obtain ⟨e, rest, -, ⟨-, rfl⟩ | ⟨n, -, hacc | hpush⟩⟩ := step_ended_error h
  · exact .malformed _
  · exact fault_of_accepted hacc
  · exact fault_of_push hpush

theorem fault_of_after {mode : Mode} {n : Nat} {s : State} {err : ParseError}
    (h : w.after mode n s = .ended (.error err)) : Fault w.cap err := by
  obtain ⟨t, -, hlast⟩ := exists_last_step (I := fun _ => True) (fun _ _ _ _ => trivial) trivial h
  exact fault_of_step hlast

/-- A walk fails with a defect of the grammar or with its own cap. -/
theorem fault_of_rules {mode : Mode} {index : Nat} {err : ParseError}
    (h : w.rules mode index = some (.error err)) : Fault w.cap err := by
  unfold rules at h
  split at h
  · cases h
  · split at h
    · next hpush =>
      obtain rfl := Except.error.inj (Option.some.inj h)
      exact fault_of_push hpush
    · exact fault_of_after (run_eq_some_iff.1 h)

/-! ## Two caps -/

/-- A walk that did not go over its cap has the same result under any cap that lets pass more. -/
theorem rules_of_admits (hadmits : Admits w.cap cap) {mode : Mode} {index : Nat} {r : Result}
    (h : w.rules mode index = some r) (hr : ∀ size limit, r ≠ .error (.stackLimit size limit)) :
    (w.under cap).rules mode index = some r := by
  rcases Nat.eq_zero_or_pos w.cap with hzero | hpos
  · obtain rfl : cap = w.cap := by
      rcases hadmits with h | h <;> omega
    exact h
  · rw [rules_of_cap hpos] at h
    -- no push goes over the cap of the walk, so none goes over the other
    cases hfind : ((w.under 0).heights mode index).find? (w.cap < ·) with
    | some size =>
      rw [hfind] at h
      exact absurd (Option.some.inj h).symm (hr size w.cap)
    | none =>
      rw [hfind] at h
      rcases Nat.eq_zero_or_pos cap with rfl | hcap
      · exact h
      · have hle : w.cap ≤ cap := by
          rcases hadmits with h | h <;> omega
        have hfind' : ((w.under 0).heights mode index).find? (cap < ·) = none := by
          rw [List.find?_eq_none] at hfind ⊢
          intro size hsize
          have hsize := hfind size hsize
          simp only [decide_eq_true_eq] at hsize ⊢
          omega
        have hunder := rules_under (w := w.under 0) rfl hcap mode index
        rw [hfind'] at hunder
        exact hunder.trans h

/-- A walk that went over its cap goes over any cap that is not above. -/
theorem rules_of_le_cap (hcap : 0 < cap) (hle : cap ≤ w.cap) {mode : Mode} {index size limit : Nat}
    (h : w.rules mode index = some (.error (.stackLimit size limit))) :
    ∃ size', (w.under cap).rules mode index = some (.error (.stackLimit size' cap)) := by
  rw [rules_of_cap (Nat.lt_of_lt_of_le hcap hle)] at h
  cases hfind : ((w.under 0).heights mode index).find? (w.cap < ·) with
  | none =>
    rw [hfind] at h
    cases fault_of_rules h with
    | stackLimit _ hpos => exact absurd hpos (Nat.lt_irrefl 0)
  | some high =>
    -- a push over the cap is over the smaller one, so some push is the first that is
    have hhigh : w.cap < high := by simpa using List.find?_some hfind
    have hsome : (((w.under 0).heights mode index).find? (cap < ·)).isSome := by
      rw [List.find?_isSome]
      exact ⟨high, List.mem_of_find?_eq_some hfind, by simpa using Nat.lt_of_le_of_lt hle hhigh⟩
    obtain ⟨size', hsize'⟩ := Option.isSome_iff_exists.1 hsome
    refine ⟨size', ?_⟩
    have hunder := rules_under (w := w.under 0) rfl hcap mode index
    rw [hsize'] at hunder
    exact hunder

/-- A walk that comes to an end without a cap comes to one under every cap. -/
theorem exists_gives_of_uncapped {mode : Mode} {index : Nat} {r : Result}
    (h : (w.under 0).Gives mode index r) : ∃ r', w.Gives mode index r' := by
  rcases Nat.eq_zero_or_pos w.cap with hzero | hpos
  · exact ⟨r, by rwa [under, ← hzero] at h⟩
  · -- within the steps that the walk without a cap takes, either a push goes over or none does
    obtain ⟨n, h⟩ := h
    have hcap := rules_of_cap (w := { w with steps := n }) hpos mode index
    rw [show Walk.rules (({ w with steps := n } : Walk).under 0) mode index = some r from
      h n (Nat.le_refl n)] at hcap
    obtain ⟨r', hr'⟩ : ∃ r', Walk.rules { w with steps := n } mode index = some r' := by
      rw [hcap]
      split <;> exact ⟨_, rfl⟩
    exact ⟨r', gives_of_rules (w := { w with steps := n }) hr'⟩

end Under

/-- **What a cap does.** As long as no push of the uncapped walk goes over it, a walk under the cap
is the uncapped one, step for step. From the first push that goes over it, the walk ends with the
height of that push. So a walk that ends otherwise ends in the same way under every larger cap and
under none, and a walk that goes over its cap goes over every smaller one. -/
theorem rules_cap (g : Grammar) (tokens : Array String) (mode : Mode) (index : Nat) {cap : Nat}
    (hcap : 0 < cap) :
    let heights (n : Nat) := Walk.heights ⟨g, tokens, 0, n⟩ mode index
    let result (limit n : Nat) := Walk.rules ⟨g, tokens, limit, n⟩ mode index
    (∀ n, (∀ size ∈ heights n, size ≤ cap) → result cap n = result 0 n) ∧
    (∀ n size, (heights n).find? (cap < ·) = some size →
      ∀ m, n ≤ m → result cap m = some (.error (.stackLimit size cap))) ∧
    (∀ n r, result cap n = some r → (∀ size limit, r ≠ .error (.stackLimit size limit)) →
      ∀ cap', cap' = 0 ∨ cap ≤ cap' → result cap' n = some r) ∧
    (∀ n size limit, result cap n = some (.error (.stackLimit size limit)) →
      ∀ cap', 0 < cap' → cap' ≤ cap →
        ∃ size', result cap' n = some (.error (.stackLimit size' cap'))) := by
  intro heights result
  have hunder (n : Nat) : result cap n =
      match (heights n).find? (cap < ·) with
      | some size => some (.error (.stackLimit size cap))
      | none => result 0 n :=
    rules_under (w := ⟨g, tokens, 0, n⟩) rfl hcap mode index
  refine ⟨fun n hle => ?_, fun n size hfind m hnm => ?_, fun n r h hr cap' hcap' => ?_,
    fun n size limit h cap' hpos hle => ?_⟩
  · have hfind : (heights n).find? (cap < ·) = none := by
      rw [List.find?_eq_none]
      intro size hsize
      simpa using hle size hsize
    rw [hunder, hfind]
  · have hn : result cap n = some (.error (.stackLimit size cap)) := by rw [hunder, hfind]
    exact rules_of_le (w := ⟨g, tokens, cap, n⟩) hn hnm
  · have hadmits : Admits cap cap' := hcap'.imp id fun hle => ⟨hcap, hle⟩
    exact rules_of_admits (w := ⟨g, tokens, cap, n⟩) hadmits h hr
  · exact rules_of_le_cap (w := ⟨g, tokens, cap, n⟩) hpos hle h

/-- Three entries wait behind the second push. A cap of two ends the walk there, before it meets the
missing node; a cap of three lets it come to that node. -/
theorem rules_cap_strayGrammar :
    let result (cap : Nat) := Walk.rules ⟨strayGrammar, #[" ", "a", "b", " "], cap, 9⟩ .all 1
    0 < 2 ∧ 0 < 3 ∧
      Walk.heights ⟨strayGrammar, #[" ", "a", "b", " "], 0, 9⟩ .all 1 = [1, 3, 3, 2] ∧
      result 2 = some (.error (.stackLimit 3 2)) ∧ result 3 = result 0 ∧
      result 3 = some (.error (.malformed (.missingNode 9))) ∧
      result 4 = some (.error (.malformed (.missingNode 9))) ∧
      ∃ size, result 1 = some (.error (.stackLimit size 1)) := by
  intro result
  have hheights : Walk.heights ⟨strayGrammar, #[" ", "a", "b", " "], 0, 9⟩ .all 1 = [1, 3, 3, 2] := by
    decide
  obtain ⟨-, htrips, -, hsmaller⟩ :=
    rules_cap strayGrammar #[" ", "a", "b", " "] .all 1 (show 0 < 2 by decide)
  obtain ⟨hsame, -, hlarger, -⟩ :=
    rules_cap strayGrammar #[" ", "a", "b", " "] .all 1 (show 0 < 3 by decide)
  have htwo : result 2 = some (.error (.stackLimit 3 2)) :=
    htrips 9 3 (by decide) 9 (Nat.le_refl 9)
  have hthree : result 3 = result 0 := hsame 9 (by decide)
  have hzero : result 0 = some (.error (.malformed (.missingNode 9))) := rfl
  refine ⟨by decide, by decide, hheights, htwo, hthree, hthree.trans hzero, ?_, ?_⟩
  · exact hlarger 9 _ (hthree.trans hzero) (fun _ _ h => by cases h) 4 (Or.inr (by decide))
  · exact hsmaller 9 3 2 htwo 1 (by decide) (by decide)

end Walk

end Translit
