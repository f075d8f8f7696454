import Translit.Proofs.Walk.Cap

/-!
# The first rule and all rules

Up to the first entry that gives a rule, a walk for the first rule and a walk for all rules are one
walk. There the first one ends, and the second goes on to whatever comes: more rules, a defect of
the grammar or the cap.

* `Accepts` : an entry gives a rule; `Passes` : no entry gives one next;
* `step_of_accepts`, `Passes.step_eq`, `judgedAlike` : what each mode does in these cases;
* `Meets` : a walk comes to an entry; `Meets.all_of_first` : a walk for all rules comes to every
  entry that a walk for the first rule comes to;
* `after_modes`, `rules_modes` : the two walks are the same, or part at an entry that gives a rule;
* `modes_agree` : what the one answer says of the other.
-/

namespace Translit.Walk

/-- The node of an entry accepts the rule, and the constraints of the edge to it hold. -/
def Accepts (w : Walk) (e : Entry) (id : RuleId) : Prop :=
  ∃ n r, w.grammar.node? e.node = some n ∧ n.accepting = true ∧ n.rule = some id ∧
    w.grammar.rule? id = some r ∧
    (w.grammar.edge? e.parent e.node).all
      (·.hold w.grammar.hasClass w.tokens e.index r.tokenCount) = true

/-- A walk at an index comes to an entry, with the rules that were found before. -/
def Meets (w : Walk) (mode : Mode) (index : Nat) (e : Entry) (found : List RuleId) : Prop :=
  index < w.tokens.size ∧ ∃ pending, w.push Grammar.root index [] = .ok pending ∧
    ∃ n rest, w.after mode n ⟨pending, []⟩ = .further ⟨e :: rest, found⟩

variable {w : Walk}

/-! ## One entry in both modes -/

theorem accepts_iff {e : Entry} {n : Node} (hn : w.grammar.node? e.node = some n) {id : RuleId} :
    w.Accepts e id ↔ w.accepted e n = .ok (some id) := by
  rw [accepted_eq_some_iff]
  constructor
  · rintro ⟨n', r, hn', hacc, hid, hr, hhold⟩
    obtain rfl : n = n' := Option.some.inj (hn.symm.trans hn')
    exact ⟨hacc, hid, r, hr, hhold⟩
  · rintro ⟨hacc, hid, r, hr, hhold⟩
    exact ⟨n, r, hn, hacc, hid, hr, hhold⟩

theorem step_of_accepts {e : Entry} {id : RuleId} (h : w.Accepts e id) (rest : List Entry)
    (found : List RuleId) :
    w.step .first ⟨e :: rest, found⟩ = .ended (.ok (found ++ [id])) ∧
      w.step .all ⟨e :: rest, found⟩ = .further ⟨rest, noted found id⟩ := by
  have ⟨n, _, hn, _⟩ := h
  have hacc := (accepts_iff hn).1 h
  constructor
  · rw [step_of_rule hn hacc]
    rfl
  · rw [step_of_rule hn hacc]
    rfl

/-- Nothing waits, or the entry that is next gives no rule. -/
def Passes (w : Walk) (s : State) : Prop :=
  ∀ e rest, s.pending = e :: rest → ∀ id, ¬ w.Accepts e id

theorem passes_or_accepts (w : Walk) (s : State) :
    w.Passes s ∨ ∃ e rest id, s.pending = e :: rest ∧ w.Accepts e id := by
  by_cases h : ∃ e rest id, s.pending = e :: rest ∧ w.Accepts e id
  · exact Or.inr h
  · refine Or.inl fun e rest hs id hacc => h ⟨e, rest, id, hs, hacc⟩

theorem Passes.step_eq {s : State} (h : w.Passes s) : w.step .first s = w.step .all s := by
  obtain ⟨pending, found⟩ := s
  cases pending with
  | nil => rfl
  | cons e rest =>
    cases hn : w.grammar.node? e.node with
    | none => rw [step_of_missing hn, step_of_missing hn]
    | some n =>
      cases hacc : w.accepted e n with
      | error err => rw [step_of_error hn hacc, step_of_error hn hacc]
      | ok o =>
        cases o with
        | some id => exact absurd ((accepts_iff hn).2 hacc) (h e rest rfl id)
        | none => rw [step_of_push hn hacc, step_of_push hn hacc]

theorem Passes.found_eq {s t : State} (h : w.Passes s) {mode : Mode}
    (hstep : w.step mode s = .further t) : t.found = s.found := by
  obtain ⟨e, rest, n, hs, hn, ⟨id, hacc, -⟩ | ⟨-, rfl⟩⟩ := step_further hstep
  · exact absurd ((accepts_iff hn).2 hacc) (h e rest hs id)
  · rfl

theorem Passes.ended_eq {s : State} (h : w.Passes s) {mode : Mode} {ids : List RuleId}
    (hstep : w.step mode s = .ended (.ok ids)) : s.pending = [] ∧ ids = s.found := by
  obtain hend | ⟨e, rest, n, id, hs, hn, hacc, -⟩ := step_ended_ok hstep
  · exact hend
  · exact absurd ((accepts_iff hn).2 hacc) (h e rest hs id)

/-! ## Whole walks in both modes -/

/-- No rule has been found. -/
def Step.Clean : Step → Prop
  | .ended (.ok ids) => ids = []
  | .ended (.error _) => True
  | .further t => t.found = []

theorem Passes.clean {s : State} (h : w.Passes s) (hs : s.found = []) :
    (w.step .all s).Clean := by
  cases hstep : w.step .all s with
  | ended r =>
    cases r with
    | error err => trivial
    | ok ids => exact (h.ended_eq hstep).2.trans hs
  | further t => exact (h.found_eq hstep).trans hs

/-- So many steps are the same in both modes and find nothing, or an entry that gives a rule comes
before, at which a walk for the first rule ends. -/
theorem after_modes (n : Nat) {s : State} (hs : s.found = []) :
    (w.after .first n s = w.after .all n s ∧ (w.after .all n s).Clean) ∨
    ∃ m e rest id, m < n ∧ w.after .all m s = .further ⟨e :: rest, []⟩ ∧ w.Accepts e id ∧
      w.after .first (m + 1) s = .ended (.ok [id]) := by
  induction n generalizing s with
  | zero => exact Or.inl ⟨rfl, hs⟩
  | succ n ih =>
    obtain hpass | ⟨e, rest, id, hpending, hacc⟩ := w.passes_or_accepts s
    · have hstep := hpass.step_eq
      have hclean := hpass.clean hs
      rw [after, after, hstep]
      cases hall : w.step .all s with
      | ended r =>
        rw [hall] at hclean
        exact Or.inl ⟨rfl, hclean⟩
      | further t =>
        rw [hall] at hstep hclean
        obtain hsame | ⟨m, e, rest, id, hlt, hmet, hacc, hfirst⟩ := ih hclean
        · exact Or.inl hsame
        · refine Or.inr ⟨m + 1, e, rest, id, by omega, ?_, hacc, ?_⟩
          · rw [after, hall]
            exact hmet
          · rw [after, hstep]
            exact hfirst
    · obtain rfl : s = ⟨e :: rest, []⟩ := by
        rw [← hpending, ← hs]
      refine Or.inr ⟨0, e, rest, id, by omega, rfl, hacc, ?_⟩
      rw [after_one, (step_of_accepts hacc rest []).1]
      rfl

/-- A walk for all rules keeps those that it has found. -/
theorem found_prefix_of_after {n : Nat} {s : State} {ids : List RuleId}
    (h : w.after .all n s = .ended (.ok ids)) : s.found <+: ids := by
  induction n generalizing s with
  | zero => cases h
  | succ n ih =>
    rw [after] at h
    cases hstep : w.step .all s with
    | ended r =>
      rw [hstep] at h
      obtain rfl : r = .ok ids := Step.ended.inj h
      obtain ⟨-, rfl⟩ | ⟨e, rest, n, id, -, -, -, rfl⟩ := step_ended_ok hstep
      · exact List.prefix_rfl
      · exact List.prefix_append _ _
    | further t =>
      rw [hstep] at h
      obtain ⟨e, rest, m, -, -, ⟨id, -, rfl⟩ | ⟨-, rfl⟩⟩ := step_further hstep
      · refine List.IsPrefix.trans ?_ (ih h)
        show s.found <+: noted s.found id
        unfold noted
        split
        · exact List.prefix_rfl
        · exact List.prefix_append _ _
      · have hfound := ih h
        exact hfound

/-- Every rule that a walk finds is given by an entry that it comes to. -/
theorem exists_accepts_of_after {mode : Mode} {n : Nat} {s : State} {ids : List RuleId}
    (h : w.after mode n s = .ended (.ok ids)) {id : RuleId} (hid : id ∈ ids) :
    id ∈ s.found ∨ ∃ m e rest found, w.after mode m s = .further ⟨e :: rest, found⟩ ∧
      w.Accepts e id := by
  induction n generalizing s with
  | zero => cases h
  | succ n ih =>
    -- the entry that is next is the one that gives the rule, or the rest of the walk has it
    have hnext {e : Entry} {rest : List Entry} (hs : s.pending = e :: rest)
        (hacc : w.Accepts e id) :
        ∃ m e rest found, w.after mode m s = .further ⟨e :: rest, found⟩ ∧ w.Accepts e id := by
      refine ⟨0, e, rest, s.found, ?_, hacc⟩
      rw [← hs]
      rfl
    rw [after] at h
    cases hstep : w.step mode s with
    | ended r =>
      rw [hstep] at h
      obtain rfl : r = .ok ids := Step.ended.inj h
      obtain ⟨-, rfl⟩ | ⟨e, rest, n, id', hs, hn, hacc, rfl⟩ := step_ended_ok hstep
      · exact Or.inl hid
      · rcases List.mem_append.1 hid with hid | hid
        · exact Or.inl hid
        · obtain rfl := List.mem_singleton.1 hid
          exact Or.inr (hnext hs ((accepts_iff hn).2 hacc))
    | further t =>
      rw [hstep] at h
      rcases ih h with hfound | ⟨m, e, rest, found, hmet, hacc⟩
      · obtain ⟨e, rest, n, hs, hn, ⟨id', hacc, rfl⟩ | ⟨-, rfl⟩⟩ := step_further hstep
        · rcases mem_noted hfound with hfound | rfl
          · exact Or.inl hfound
          · exact Or.inr (hnext hs ((accepts_iff hn).2 hacc))
        · exact Or.inl hfound
      · refine Or.inr ⟨m + 1, e, rest, found, ?_, hacc⟩
        rw [after, hstep]
        exact hmet

theorem Meets.all_of_first {index : Nat} {e : Entry} {found : List RuleId}
    (h : w.Meets .first index e found) : found = [] ∧ w.Meets .all index e [] := by
  obtain ⟨hi, pending, hpush, n, rest, hmet⟩ := h
  have hmodes := w.after_modes n (s := ⟨pending, []⟩) rfl
  obtain ⟨hsame, hclean⟩ | ⟨m, -, -, id, hlt, -, -, hfirst⟩ := hmodes
  · rw [← hsame, hmet] at hclean
    obtain rfl : found = [] := hclean
    rw [hsame] at hmet
    exact ⟨rfl, hi, pending, hpush, n, rest, hmet⟩
  · rw [after_of_le hfirst hlt] at hmet
    cases hmet

/-- A walk for the first rule is one for all rules that finds none, or it gives the rule of the
first entry that gives one; this is then the first of all rules, if a walk for all comes to its
end. -/
theorem rules_modes (w : Walk) (index : Nat) :
    (w.rules .first index = w.rules .all index ∧
      ∀ ids, w.rules .all index = some (.ok ids) → ids = []) ∨
    ∃ e id, w.Meets .all index e [] ∧ w.Accepts e id ∧ w.rules .first index = some (.ok [id]) ∧
      ∀ ids, w.rules .all index = some (.ok ids) → ∃ more, ids = id :: more := by
  by_cases hi : index < w.tokens.size
  · cases hpush : w.push Grammar.root index [] with
    | error err =>
      rw [rules_of_push_error hi hpush, rules_of_push_error hi hpush]
      refine Or.inl ⟨rfl, ?_⟩
      intro ids h
      cases h
    | ok pending =>
      rw [rules_of_push hi hpush, rules_of_push hi hpush]
      have hmodes := w.after_modes w.steps (s := ⟨pending, []⟩) rfl
      obtain ⟨hsame, hclean⟩ | ⟨m, e, rest, id, hlt, hmet, hacc, hfirst⟩ := hmodes
      · refine Or.inl ⟨?_, ?_⟩
        · rw [run, run, hsame]
        · intro ids h
          rw [run_eq_some_iff.1 h] at hclean
          exact hclean
      · refine Or.inr ⟨e, id, ⟨hi, pending, hpush, m, rest, hmet⟩, hacc, ?_, ?_⟩
        · exact run_eq_some_iff.2 (after_of_le hfirst hlt)
        · intro ids h
          -- behind the entry a walk for all rules goes on with its rule as the first
          have hnext : w.after .all (m + 1) ⟨pending, []⟩ = .further ⟨rest, [id]⟩ := by
            refine after_of_further hmet ?_
            rw [after_one, (step_of_accepts hacc rest []).2]
            rfl
          obtain ⟨k, hk⟩ : ∃ k, w.steps = m + 1 + k := ⟨w.steps - (m + 1), by omega⟩
          have hall := run_eq_some_iff.1 h
          rw [hk, after_add, hnext] at hall
          obtain ⟨more, rfl⟩ := found_prefix_of_after hall
          exact ⟨more, rfl⟩
  · rw [rules, rules, if_pos (Nat.not_lt.1 hi), if_pos (Nat.not_lt.1 hi)]
    refine Or.inl ⟨rfl, ?_⟩
    intro ids h
    exact (Except.ok.inj (Option.some.inj h)).symm

theorem exists_meets_of_rules {mode : Mode} {index : Nat} {ids : List RuleId}
    (h : w.rules mode index = some (.ok ids)) {id : RuleId} (hid : id ∈ ids) :
    ∃ e found, w.Meets .all index e found ∧ w.Accepts e id := by
  by_cases hi : index < w.tokens.size
  · cases hpush : w.push Grammar.root index [] with
    | error err =>
      rw [rules_of_push_error hi hpush] at h
      cases h
    | ok pending =>
      rw [rules_of_push hi hpush] at h
      have haccepts := exists_accepts_of_after (run_eq_some_iff.1 h) hid
      obtain hnil | ⟨m, e, rest, found, hmet, hacc⟩ := haccepts
      · cases hnil
      · have hmeets : w.Meets mode index e found := ⟨hi, pending, hpush, m, rest, hmet⟩
        cases mode with
        | first => exact ⟨e, [], hmeets.all_of_first.2, hacc⟩
        | all => exact ⟨e, found, hmeets, hacc⟩
  · rw [rules, if_pos (Nat.not_lt.1 hi)] at h
    obtain rfl : [] = ids := Except.ok.inj (Option.some.inj h)
    cases hid

/-! ## Both answers -/

/-- Both modes judge an entry in the same way. Either it gives its rule in both, or in neither; then
they do the same and the rules that were found stay. -/
inductive JudgedAlike (w : Walk) (s : State) : Prop
  | gives {e : Entry} {rest : List Entry} {id : RuleId} :
    s.pending = e :: rest → w.Accepts e id →
    w.step .first s = .ended (.ok (s.found ++ [id])) →
    w.step .all s = .further ⟨rest, noted s.found id⟩ → JudgedAlike w s
  | passes : w.Passes s → w.step .first s = w.step .all s →
    (∀ t, w.step .all s = .further t → t.found = s.found) →
    (∀ ids, w.step .all s = .ended (.ok ids) → ids = s.found) → JudgedAlike w s

theorem judgedAlike (w : Walk) (s : State) : w.JudgedAlike s := by
  obtain hpass | ⟨e, rest, id, hpending, hacc⟩ := w.passes_or_accepts s
  · exact .passes hpass hpass.step_eq (fun t ht => hpass.found_eq ht)
      (fun ids hids => (hpass.ended_eq hids).2)
  · obtain ⟨hfirst, hall⟩ := step_of_accepts hacc rest s.found
    rw [← hpending] at hfirst hall
    exact .gives hpending hacc hfirst hall

theorem matchAt_of_rules {index : Nat} {r : Result} (h : w.rules .first index = some r) :
    w.matchAt index = some (w.firstRule index r) := by
  rw [matchAt, h]
  rfl

theorem rules_of_matchAt_error {index : Nat} {err : ParseError}
    (h : w.matchAt index = some (.error err)) :
    w.rules .first index = some (.error err) ∨
      (w.rules .first index = some (.ok []) ∧ err = .noMatch index (w.token index)) := by
  obtain ⟨r, hrules, hr⟩ := Option.map_eq_some_iff.1 h
  cases r with
  | error err' =>
    obtain rfl : err' = err := Except.error.inj hr
    exact Or.inl hrules
  | ok ids =>
    cases ids with
    | nil => exact Or.inr ⟨hrules, (Except.error.inj hr).symm⟩
    | cons id ids => cases hr

/-- **The first rule and all rules agree**, under every cap. The rule that matches is the first of
all rules, and there is none if there are none. Where a walk for all rules fails, the first rule is
one that it had met before, or there is the same error; and an error of the one is an error of the
other. An entry whose constraints fail gives its rule in neither mode. -/
theorem modes_agree (w : Walk) (index : Nat) :
    (∀ id more, w.matchAll index = some (.ok (id :: more)) → w.matchAt index = some (.ok id)) ∧
    (w.matchAll index = some (.ok []) ↔
      w.matchAt index = some (.error (.noMatch index (w.token index)))) ∧
    (∀ err, w.matchAll index = some (.error err) →
      w.matchAt index = some (.error err) ∨
        ∃ id e, w.matchAt index = some (.ok id) ∧ w.Meets .all index e [] ∧ w.Accepts e id) ∧
    (∀ err, w.matchAt index = some (.error err) →
      (∀ position token, err ≠ .noMatch position token) →
      w.matchAll index = some (.error err)) ∧
    (∀ mode ids, w.rules mode index = some (.ok ids) → ∀ id ∈ ids,
      ∃ e found, w.Meets .all index e found ∧ w.Accepts e id) ∧
    ∀ s, w.JudgedAlike s := by
  have hmeets (mode : Mode) (ids : List RuleId) (h : w.rules mode index = some (.ok ids)) :
      ∀ id ∈ ids, ∃ e found, w.Meets .all index e found ∧ w.Accepts e id :=
    fun _ hid => exists_meets_of_rules h hid
  obtain ⟨hsame, hnone⟩ | ⟨e, id, hmet, hacc, hfirst, hall⟩ := w.rules_modes index
  · refine ⟨?_, ⟨?_, ?_⟩, ?_, ?_, hmeets, w.judgedAlike⟩
    · intro id more h
      cases hnone _ h
    · intro h
      exact matchAt_of_rules (hsame.trans h)
    · intro h
      rcases rules_of_matchAt_error h with herr | ⟨hnil, -⟩
      · cases fault_of_rules herr
      · exact hsame.symm.trans hnil
    · intro err h
      exact Or.inl (matchAt_of_rules (hsame.trans h))
    · intro err h hne
      rcases rules_of_matchAt_error h with herr | ⟨-, hnomatch⟩
      · exact hsame.symm.trans herr
      · exact absurd hnomatch (hne _ _)
  · have hmatch : w.matchAt index = some (.ok id) := matchAt_of_rules hfirst
    refine ⟨?_, ⟨?_, ?_⟩, ?_, ?_, hmeets, w.judgedAlike⟩
    · intro id' more h
      obtain ⟨more', heq⟩ := hall _ h
      obtain ⟨rfl, -⟩ := List.cons.inj heq
      exact hmatch
    · intro h
      obtain ⟨more, heq⟩ := hall _ h
      cases heq
    · intro h
      rw [hmatch] at h
      cases h
    · intro err h
      exact Or.inr ⟨id, e, hmatch, hmet, hacc⟩
    · intro err h
      rw [hmatch] at h
      cases h

/-- The rules `a`, `a b` before `c`, and `a c`; behind `a b` the automaton also lists a node that is
not there. -/
def forkGrammar : Grammar :=
  .ofAutomaton
    [(0, .inner [("a", [1])] []), (1, .inner [("b", [2, 3, 9]), ("c", [5, 3])] []),
      (2, .inner [] [4]), (3, .leaf 0), (4, .leaf 1), (5, .inner [] [6]), (6, .leaf 2)]
    [(2, [(4, ⟨none, some ["c"], none, none⟩)])] [["a"], ["a", "b"], ["a", "c"]]

/-- A walk of `forkGrammar` under a cap. -/
def forkWalk (tokens : Array String) (cap : Nat) : Walk := ⟨forkGrammar, tokens, cap, 9⟩

/-- Over `a c` two rules are found, and a cap of one entry stops both walks. Over `a b` the shorter
rule is met before the missing node. Over `x` there is no rule. -/
theorem modes_agree_forkGrammar :
    ((forkWalk #[" ", "a", "c", " "] 2).matchAll 1 = some (.ok [2, 0]) ∧
      (forkWalk #[" ", "a", "c", " "] 2).matchAt 1 = some (.ok 2)) ∧
    ((forkWalk #[" ", "a", "c", " "] 1).matchAt 1 = some (.error (.stackLimit 2 1)) ∧
      (forkWalk #[" ", "a", "c", " "] 1).matchAll 1 = some (.error (.stackLimit 2 1))) ∧
    ((forkWalk #[" ", "a", "b", " "] 0).matchAll 1 = some (.error (.malformed (.missingNode 9))) ∧
      ∃ id e, (forkWalk #[" ", "a", "b", " "] 0).matchAt 1 = some (.ok id) ∧
        (forkWalk #[" ", "a", "b", " "] 0).Meets .all 1 e [] ∧
        (forkWalk #[" ", "a", "b", " "] 0).Accepts e id) ∧
    (forkWalk #[" ", "x", " "] 0).matchAt 1 = some (.error (.noMatch 1 "x")) := by
  have hall : (forkWalk #[" ", "a", "c", " "] 2).matchAll 1 = some (.ok [2, 0]) := rfl
  have hcap : (forkWalk #[" ", "a", "c", " "] 1).matchAt 1 = some (.error (.stackLimit 2 1)) := rfl
  have hstray : (forkWalk #[" ", "a", "b", " "] 0).matchAll 1 =
      some (.error (.malformed (.missingNode 9))) := rfl
  have hnone : (forkWalk #[" ", "x", " "] 0).matchAll 1 = some (.ok []) := rfl
  have hfound := (forkWalk #[" ", "a", "b", " "] 0).modes_agree 1
  refine ⟨⟨hall, ?_⟩, ⟨hcap, ?_⟩, ⟨hstray, ?_⟩, ?_⟩
  · exact (modes_agree _ 1).1 2 [0] hall
  · exact (modes_agree _ 1).2.2.2.1 _ hcap (fun _ _ h => by cases h)
  · rcases hfound.2.2.1 _ hstray with herr | hmet
    · have hmatch : (forkWalk #[" ", "a", "b", " "] 0).matchAt 1 = some (.ok 0) := rfl
      rw [hmatch] at herr
      cases herr
    · exact hmet
  · exact (modes_agree (forkWalk #[" ", "x", " "] 0) 1).2.1.1 hnone

end Translit.Walk
