import Translit.Parse.Walk

/-!
# Steps of a walk

What one step of a walk can lead to, and what follows for any number of steps.

* `after_add` : steps behind steps; `ended_unique` : a walk has one end;
* `Gives` : the result of a walk that is given steps enough;
* `accepted_eq_some_iff`, `accepted_eq_error` : when an entry gives a rule, and when it fails;
* `step_further`, `step_ended_ok`, `step_ended_error` : what one step does;
* `exists_last_step` : what each step keeps holds up to the last one;
* `mem_of_after`, `mem_of_rules` : what holds of the entries of a walk holds of the entry that gave
  a rule.
-/

namespace Translit.Walk

/-! ## Numbers of steps -/

theorem after_add (w : Walk) (mode : Mode) (m n : Nat) (s : State) :
    w.after mode (m + n) s =
      match w.after mode m s with
      | .ended r => .ended r
      | .further t => w.after mode n t := by
  induction m generalizing s with
  | zero => rw [Nat.zero_add, after]
  | succ m ih =>
    rw [Nat.succ_add, after, after]
    cases w.step mode s with
    | ended r => rfl
    | further t => exact ih t

theorem after_of_further {w : Walk} {mode : Mode} {m n : Nat} {s t : State} {x : Step}
    (hm : w.after mode m s = .further t) (hn : w.after mode n t = x) :
    w.after mode (m + n) s = x := by
  rw [after_add, hm]
  exact hn

theorem after_one (w : Walk) (mode : Mode) (s : State) : w.after mode 1 s = w.step mode s := by
  rw [after]
  cases w.step mode s <;> rfl

/-- A walk has one end, whatever the number of steps. -/
theorem ended_unique {w : Walk} {mode : Mode} {m n : Nat} {s : State} {r r' : Result}
    (hm : w.after mode m s = .ended r) (hn : w.after mode n s = .ended r') : r = r' := by
  have h1 := after_of_le hm (Nat.le_max_left m n)
  have h2 := after_of_le hn (Nat.le_max_right m n)
  rw [h1] at h2
  exact Step.ended.inj h2

/-- The result of a walk at an index, from some number of steps on. -/
def Gives (w : Walk) (mode : Mode) (index : Nat) (r : Result) : Prop :=
  ∃ n, ∀ steps, n ≤ steps → Walk.rules { w with steps := steps } mode index = some r

theorem rules_of_push {w : Walk} {index : Nat} {pending : List Entry}
    (hi : index < w.tokens.size) (hpush : w.push Grammar.root index [] = .ok pending)
    (mode : Mode) : w.rules mode index = w.run mode ⟨pending, []⟩ := by
  rw [rules, if_neg (Nat.not_le.2 hi), hpush]

theorem rules_of_push_error {w : Walk} {index : Nat} {err : ParseError}
    (hi : index < w.tokens.size) (hpush : w.push Grammar.root index [] = .error err)
    (mode : Mode) : w.rules mode index = some (.error err) := by
  rw [rules, if_neg (Nat.not_le.2 hi), hpush]

theorem rules_steps {w : Walk} {index : Nat} {pending : List Entry} (hi : index < w.tokens.size)
    (hpush : w.push Grammar.root index [] = .ok pending) (mode : Mode) (steps : Nat) (r : Result) :
    Walk.rules { w with steps := steps } mode index = some r ↔
      w.after mode steps ⟨pending, []⟩ = .ended r := by
  have hpush' : Walk.push { w with steps := steps } Grammar.root index [] = .ok pending := hpush
  have hsize : index < ({ w with steps := steps } : Walk).tokens.size := hi
  rw [rules_of_push hsize hpush', run_eq_some_iff, after_steps]

/-- With more steps a walk at an index has the same result. -/
theorem rules_of_le {w : Walk} {mode : Mode} {index steps : Nat} {r : Result}
    (h : w.rules mode index = some r) (hle : w.steps ≤ steps) :
    Walk.rules { w with steps := steps } mode index = some r := by
  unfold rules at h ⊢
  split at h
  · next hi => rwa [if_pos hi]
  · next hi =>
    have hpush : Walk.push { w with steps := steps } Grammar.root index [] =
        w.push Grammar.root index [] := rfl
    rw [if_neg hi, hpush]
    split at h
    · exact h
    · exact run_of_le h hle

theorem gives_of_rules {w : Walk} {mode : Mode} {index : Nat} {r : Result}
    (h : w.rules mode index = some r) : w.Gives mode index r :=
  ⟨w.steps, fun _ hle => rules_of_le h hle⟩

/-- What a walk gives is what it ends with after some number of steps. -/
theorem gives_iff {w : Walk} {mode : Mode} {index : Nat} {r : Result} {pending : List Entry}
    (hi : index < w.tokens.size) (hpush : w.push Grammar.root index [] = .ok pending) :
    w.Gives mode index r ↔ ∃ n, w.after mode n ⟨pending, []⟩ = .ended r := by
  simp only [Gives, rules_steps hi hpush]
  constructor
  · rintro ⟨n, h⟩
    exact ⟨n, h n (Nat.le_refl n)⟩
  · rintro ⟨n, h⟩
    exact ⟨n, fun steps hle => after_of_le h hle⟩

theorem gives_of_push_error {w : Walk} {mode : Mode} {index : Nat} {r : Result} {err : ParseError}
    (hi : index < w.tokens.size) (hpush : w.push Grammar.root index [] = .error err) :
    w.Gives mode index r ↔ r = .error err := by
  have hrules (steps : Nat) :
      Walk.rules { w with steps := steps } mode index = some (.error err) := by
    have hsize : index < ({ w with steps := steps } : Walk).tokens.size := hi
    exact rules_of_push_error hsize hpush mode
  simp only [Gives, hrules, Option.some.injEq]
  constructor
  · rintro ⟨n, h⟩
    exact (h n (Nat.le_refl n)).symm
  · rintro rfl
    exact ⟨0, fun _ _ => rfl⟩

theorem Gives.matchAt {w : Walk} {index : Nat} {r : Result} (h : w.Gives .first index r) :
    ∃ n, ∀ steps, n ≤ steps →
      Walk.matchAt { w with steps := steps } index = some (w.firstRule index r) := by
  obtain ⟨n, h⟩ := h
  refine ⟨n, fun steps hle => ?_⟩
  rw [Walk.matchAt, h steps hle]
  rfl

/-! ## One step -/

theorem nextIndex_eq_min {w : Walk} {index : Nat} (hi : index < w.tokens.size) :
    w.nextIndex index = min (index + 1) (w.tokens.size - 1) := by
  unfold nextIndex
  split <;> omega

theorem nextIndex_lt {w : Walk} {index : Nat} (hi : index < w.tokens.size) :
    w.nextIndex index < w.tokens.size := by
  rw [nextIndex_eq_min hi]
  omega

/-- The entries for the successors of a node at an index. -/
def listed (w : Walk) (id : NodeId) (n : Node) (index : Nat) : List Entry :=
  (n.successors (w.token index)).map (⟨·, id, index⟩)

theorem mem_listed {w : Walk} {id : NodeId} {n : Node} {index : Nat} {c : Entry}
    (h : c ∈ w.listed id n index) :
    c.node ∈ n.successors (w.token index) ∧ c.parent = id ∧ c.index = index := by
  obtain ⟨child, hchild, rfl⟩ := List.mem_map.1 h
  exact ⟨hchild, rfl, rfl⟩

theorem index_of_listed_lt {w : Walk} {id : NodeId} {n : Node} {index : Nat}
    (hi : index < w.tokens.size) : ∀ c ∈ w.listed id n index, c.index < w.tokens.size := by
  intro c hc
  rw [(mem_listed hc).2.2]
  exact hi

/-- A push that finds its node goes over the cap or lists the successors. -/
theorem push_of_node {w : Walk} {id : NodeId} {n : Node} (hn : w.grammar.node? id = some n)
    (index : Nat) (pending : List Entry) :
    w.push id index pending =
      if 0 < w.cap ∧ w.cap < (w.listed id n index ++ pending).length then
        .error (.stackLimit (w.listed id n index ++ pending).length w.cap)
      else .ok (w.listed id n index ++ pending) := by
  unfold push
  rw [hn]
  rfl

theorem push_of_uncapped {w : Walk} (hcap : w.cap = 0) {id : NodeId} {n : Node}
    (hn : w.grammar.node? id = some n) (index : Nat) (pending : List Entry) :
    w.push id index pending = .ok (w.listed id n index ++ pending) := by
  simp [push, hn, hcap, listed]

theorem push_of_missing {w : Walk} {id : NodeId} (hn : w.grammar.node? id = none) (index : Nat)
    (pending : List Entry) :
    w.push id index pending = .error (.malformed (.missingNode id)) := by
  simp [push, hn]

theorem push_eq_ok {w : Walk} {id : NodeId} {index : Nat} {pending pending' : List Entry}
    (h : w.push id index pending = .ok pending') :
    ∃ n, w.grammar.node? id = some n ∧ pending' = w.listed id n index ++ pending := by
  unfold push at h
  split at h
  · cases h
  · next n hn =>
    dsimp only at h
    split at h
    · cases h
    · exact ⟨n, hn, (Except.ok.inj h).symm⟩

theorem push_eq_error {w : Walk} {id : NodeId} {index : Nat} {pending : List Entry}
    {err : ParseError} (h : w.push id index pending = .error err) :
    (w.grammar.node? id = none ∧ err = .malformed (.missingNode id)) ∨
      (0 < w.cap ∧ ∃ size, err = .stackLimit size w.cap) := by
  unfold push at h
  split at h
  · next hn => exact Or.inl ⟨hn, (Except.error.inj h).symm⟩
  · dsimp only at h
    split at h
    · next hover => exact Or.inr ⟨hover.1, _, (Except.error.inj h).symm⟩
    · cases h

/-- An entry fails at an accepting node that has no rule, or one that the grammar does not have. -/
theorem accepted_eq_error {w : Walk} {e : Entry} {n : Node} {err : ParseError}
    (h : w.accepted e n = .error err) :
    n.accepting = true ∧
      ((n.rule = none ∧ err = .malformed (.acceptsNothing e.node)) ∨
        ∃ id, n.rule = some id ∧ w.grammar.rule? id = none ∧
          err = .malformed (.acceptsUnknown e.node id)) := by
  unfold accepted at h
  split at h
  · next hacc =>
    refine ⟨hacc, ?_⟩
    split at h
    · next hrule => exact Or.inl ⟨hrule, (Except.error.inj h).symm⟩
    · next id hrule =>
      split at h
      · next hr => exact Or.inr ⟨id, hrule, hr, (Except.error.inj h).symm⟩
      · dsimp only at h
        split at h <;> cases h
  · cases h

/-- An entry gives the rule of its node if the node accepts and the edge to it holds. -/
theorem accepted_eq_some_iff {w : Walk} {e : Entry} {n : Node} {id : RuleId} :
    w.accepted e n = .ok (some id) ↔
      n.accepting = true ∧ n.rule = some id ∧ ∃ r, w.grammar.rule? id = some r ∧
        (w.grammar.edge? e.parent e.node).all
          (·.hold w.grammar.hasClass w.tokens e.index r.tokenCount) = true := by
  unfold accepted
  constructor
  · intro h
    split at h
    · next hacc =>
      split at h
      · cases h
      · next id' hrule =>
        split at h
        · cases h
        · next r hr =>
          dsimp only at h
          split at h
          · next hhold =>
            obtain rfl : id' = id := by simpa using h
            exact ⟨hacc, hrule, r, hr, hhold⟩
          · cases h
    · cases h
  · rintro ⟨hacc, hrule, r, hr, hhold⟩
    simp only [hacc, hrule, hr, hhold, if_true]

theorem accepted_of_not_accepting {w : Walk} {e : Entry} {n : Node} (h : n.accepting = false) :
    w.accepted e n = .ok none := by
  simp [accepted, h]

/-- The rules found, with one more unless it is among them. -/
def noted (found : List RuleId) (id : RuleId) : List RuleId :=
  if id ∈ found then found else found ++ [id]

theorem noted_eraseDups (ids : List RuleId) (id : RuleId) :
    noted ids.eraseDups id = (ids ++ [id]).eraseDups := by
  rw [List.eraseDups_append, noted]
  by_cases h : id ∈ ids
  · simp [List.removeAll, h]
  · simp [List.removeAll, List.eraseDups_cons, h]

theorem foldl_noted (before ids : List RuleId) :
    ids.foldl noted before.eraseDups = (before ++ ids).eraseDups := by
  induction ids generalizing before with
  | nil => simp
  | cons id ids ih => rw [List.foldl_cons, noted_eraseDups, ih, List.append_assoc]; rfl

theorem mem_noted {found : List RuleId} {id id' : RuleId} (h : id' ∈ noted found id) :
    id' ∈ found ∨ id' = id := by
  unfold noted at h
  split at h
  · exact Or.inl h
  · simpa using h

/-- A step that leads further takes one entry, which gives a rule or lists its successors. -/
theorem step_further {w : Walk} {mode : Mode} {s t : State} (h : w.step mode s = .further t) :
    ∃ e rest n, s.pending = e :: rest ∧ w.grammar.node? e.node = some n ∧
      ((∃ id, w.accepted e n = .ok (some id) ∧ t = ⟨rest, noted s.found id⟩) ∨
        (w.accepted e n = .ok none ∧
          t = ⟨w.listed e.node n (w.nextIndex e.index) ++ rest, s.found⟩)) := by
  unfold step at h
  split at h
  · cases h
  · next e rest hpending =>
    split at h
    · cases h
    · next n hn =>
      refine ⟨e, rest, n, hpending, hn, ?_⟩
      split at h
      · cases h
      · next id hacc =>
        split at h
        · cases h
        · exact Or.inl ⟨id, hacc, (Step.further.inj h).symm⟩
      · next hacc =>
        split at h
        · cases h
        · next pending hpush =>
          obtain ⟨n', hn', rfl⟩ := push_eq_ok hpush
          obtain rfl : n = n' := Option.some.inj (hn.symm.trans hn')
          exact Or.inr ⟨hacc, (Step.further.inj h).symm⟩

/-- A step ends a walk without an error when nothing waits, or with the first rule. -/
theorem step_ended_ok {w : Walk} {mode : Mode} {s : State} {ids : List RuleId}
    (h : w.step mode s = .ended (.ok ids)) :
    (s.pending = [] ∧ ids = s.found) ∨
      ∃ e rest n id, s.pending = e :: rest ∧ w.grammar.node? e.node = some n ∧
        w.accepted e n = .ok (some id) ∧ ids = s.found ++ [id] := by
  unfold step at h
  split at h
  · next hpending => exact Or.inl ⟨hpending, by simpa using h.symm⟩
  · next e rest hpending =>
    split at h
    · cases h
    · next n hn =>
      split at h
      · cases h
      · next id hacc =>
        split at h
        · exact Or.inr ⟨e, rest, n, id, hpending, hn, hacc, by simpa using h.symm⟩
        · cases h
      · split at h <;> cases h

/-- A step ends a walk with an error at an entry whose node is not there, at one that fails to give
its rule, or with the push of its successors. -/
theorem step_ended_error {w : Walk} {mode : Mode} {s : State} {err : ParseError}
    (h : w.step mode s = .ended (.error err)) :
    ∃ e rest, s.pending = e :: rest ∧
      ((w.grammar.node? e.node = none ∧ err = .malformed (.missingNode e.node)) ∨
        ∃ n, w.grammar.node? e.node = some n ∧
          (w.accepted e n = .error err ∨
            w.push e.node (w.nextIndex e.index) rest = .error err)) := by
  unfold step at h
  split at h
  · cases h
  · next e rest hpending =>
    refine ⟨e, rest, hpending, ?_⟩
    split at h
    · next hn => exact Or.inl ⟨hn, (Except.error.inj (Step.ended.inj h)).symm⟩
    · next n hn =>
      refine Or.inr ⟨n, hn, ?_⟩
      split at h
      · next hacc =>
        obtain rfl := Except.error.inj (Step.ended.inj h)
        exact Or.inl hacc
      · split at h <;> cases h
      · split at h
        · next hpush =>
          obtain rfl := Except.error.inj (Step.ended.inj h)
          exact Or.inr hpush
        · cases h

/-! ## What holds of all entries -/

/-- What each step keeps holds of the state that the last step of a walk starts from. -/
theorem exists_last_step {w : Walk} {mode : Mode} {I : State → Prop} {n : Nat} {s : State} {r : Result}
    (hstep : ∀ t t', I t → w.step mode t = .further t' → I t') (hs : I s)
    (h : w.after mode n s = .ended r) : ∃ t, I t ∧ w.step mode t = .ended r := by
  induction n generalizing s with
  | zero => cases h
  | succ n ih =>
    rw [after] at h
    cases hnext : w.step mode s with
    | ended r' =>
      rw [hnext] at h
      obtain rfl : r' = r := Step.ended.inj h
      exact ⟨s, hs, hnext⟩
    | further t =>
      rw [hnext] at h
      exact ih (hstep s t hs hnext) h

section Invariant

variable {w : Walk} {P : Entry → Prop}

/-- A rule is given by an entry with the property. -/
def GivenBy (w : Walk) (P : Entry → Prop) (id : RuleId) : Prop :=
  ∃ e n, P e ∧ w.grammar.node? e.node = some n ∧ w.accepted e n = .ok (some id)

/-- A property that passes from an entry to those it lists passes from the entries of a state to
those of the next. -/
theorem pending_of_step {mode : Mode} {s t : State}
    (hlisted : ∀ e n, P e → w.grammar.node? e.node = some n → w.accepted e n = .ok none →
      ∀ c ∈ w.listed e.node n (w.nextIndex e.index), P c)
    (hpending : ∀ e ∈ s.pending, P e) (h : w.step mode s = .further t) : ∀ e ∈ t.pending, P e := by
  obtain ⟨e, rest, n, hs, hn, hcases⟩ := step_further h
  have he : P e := hpending e (by simp [hs])
  have hrest : ∀ c ∈ rest, P c := fun c hc => hpending c (by simp [hs, hc])
  rcases hcases with ⟨id, -, rfl⟩ | ⟨hacc, rfl⟩
  · exact hrest
  · intro c hc
    rcases List.mem_append.1 hc with hc | hc
    · exact hlisted e n he hn hacc c hc
    · exact hrest c hc

/-- If a property passes from an entry to those it lists, then every rule found comes from an entry
that has it. -/
theorem mem_of_after {mode : Mode} {n : Nat} {s : State} {ids : List RuleId}
    (hlisted : ∀ e n, P e → w.grammar.node? e.node = some n → w.accepted e n = .ok none →
      ∀ c ∈ w.listed e.node n (w.nextIndex e.index), P c)
    (hpending : ∀ e ∈ s.pending, P e) (hfound : ∀ id ∈ s.found, w.GivenBy P id)
    (h : w.after mode n s = .ended (.ok ids)) : ∀ id ∈ ids, w.GivenBy P id := by
  let I (t : State) : Prop := (∀ e ∈ t.pending, P e) ∧ ∀ id ∈ t.found, w.GivenBy P id
  have hkeeps (t t' : State) (ht : I t) (hstep : w.step mode t = .further t') : I t' := by
    refine ⟨pending_of_step hlisted ht.1 hstep, ?_⟩
    obtain ⟨e, rest, m, hs, hm, ⟨id, hacc, rfl⟩ | ⟨-, rfl⟩⟩ := step_further hstep
    · intro id' hid
      rcases mem_noted hid with hid | rfl
      · exact ht.2 id' hid
      · exact ⟨e, m, ht.1 e (by simp [hs]), hm, hacc⟩
    · exact ht.2
  obtain ⟨t, ⟨hpending, hfound⟩, hlast⟩ := exists_last_step hkeeps ⟨hpending, hfound⟩ h
  rcases step_ended_ok hlast with ⟨-, rfl⟩ | ⟨e, rest, m, id, hs, hm, hacc, rfl⟩
  · exact hfound
  · intro id' hid
    rcases List.mem_append.1 hid with hid | hid
    · exact hfound id' hid
    · rw [List.mem_singleton.1 hid]
      exact ⟨e, m, hpending e (by simp [hs]), hm, hacc⟩

/-- The same from the start of a walk. -/
theorem mem_of_rules {mode : Mode} {index : Nat} {ids : List RuleId}
    (hroot : ∀ n, w.grammar.node? Grammar.root = some n → ∀ c ∈ w.listed Grammar.root n index, P c)
    (hlisted : ∀ e n, P e → w.grammar.node? e.node = some n → w.accepted e n = .ok none →
      ∀ c ∈ w.listed e.node n (w.nextIndex e.index), P c)
    (h : w.rules mode index = some (.ok ids)) : ∀ id ∈ ids, w.GivenBy P id := by
  unfold rules at h
  split at h
  · obtain rfl : [] = ids := by simpa using h
    simp
  · cases hpush : w.push Grammar.root index [] with
    | error err => simp [hpush] at h
    | ok pending =>
      simp only [hpush] at h
      obtain ⟨n, hn, rfl⟩ := push_eq_ok hpush
      refine mem_of_after hlisted (fun c hc => ?_) (by simp) (run_eq_some_iff.1 h)
      exact hroot n hn c (by simpa using hc)

theorem givenBy_of_matchAt {index : Nat} {id : RuleId}
    (hroot : ∀ n, w.grammar.node? Grammar.root = some n → ∀ c ∈ w.listed Grammar.root n index, P c)
    (hlisted : ∀ e n, P e → w.grammar.node? e.node = some n → w.accepted e n = .ok none →
      ∀ c ∈ w.listed e.node n (w.nextIndex e.index), P c)
    (h : w.matchAt index = some (.ok id)) : w.GivenBy P id := by
  obtain ⟨r, hr, hfirst⟩ := Option.map_eq_some_iff.1 h
  cases r with
  | error err => cases hfirst
  | ok ids =>
    refine mem_of_rules hroot hlisted hr id ?_
    cases ids with
    | nil => cases hfirst
    | cons id' ids =>
      obtain rfl : id' = id := Except.ok.inj hfirst
      exact List.mem_cons_self

end Invariant

end Translit.Walk
