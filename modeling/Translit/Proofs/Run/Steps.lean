import Translit.Parse.Run
import Translit.Proofs.Walk.Cap

/-!
# Steps of a run

* `Grammar.Runs` : a run as steps, each from a context and the text written so far to the next;
* `Grammar.Ends` : where a run ends, and with which result;
* `nextStep_eq_ok`, `nextStep_eq_error` : what a step is made of, and what it fails with;
* `runFrom_eq` : a run by its next step; `runFrom_eq_some_iff` : a run is its steps and its end;
* `runs_of_runFrom`, `runs_of_parseWithTrace` : a run without an error is such steps, and stops at
  the last default token or behind it;
* `Runs.exists_taken` : the steps that a run adds, and the text that it writes.
-/

namespace Translit

namespace Grammar

variable {g : Grammar} {limits : Limits}

/-- Steps of a run, one after the other. -/
inductive Runs (g : Grammar) (limits : Limits) : Context → String → Context → String → Prop
  | refl {c : Context} {out : String} : Runs g limits c out c out
  | step {c c' : Context} {out out' : String} {m : RuleMatch} {rule : Rule} :
    c.position < c.stop →
    g.nextStep limits c.sequence.tokens c.position = some (.ok (m, rule)) →
    Runs g limits (c.record m rule.tokenCount)
      (out ++ g.onmatchText m.onmatch ++ rule.production) c' out' →
    Runs g limits c out c' out'

/-- A step is the rule that matches at its index, and the onmatch rule that fits before. -/
theorem nextStep_eq_ok {tokens : Array String} {index : Nat} {m : RuleMatch} {rule : Rule}
    (h : g.nextStep limits tokens index = some (.ok (m, rule))) :
    (g.walk limits tokens).matchAt index = some (.ok m.rule) ∧ g.rule? m.rule = some rule ∧
      m.index = index ∧ g.onmatchAt tokens index = .ok m.onmatch ∧ 0 < rule.tokenCount := by
  obtain ⟨hindex, hpos⟩ := nextStep_progress h
  obtain ⟨r, hmatch, hr⟩ := Option.map_eq_some_iff.1 h
  cases r with
  | error err => cases hr
  | ok id =>
    change g.stepWith tokens index id = .ok (m, rule) at hr
    unfold stepWith at hr
    split at hr
    · cases hr
    · next rule' hrule =>
      split at hr
      · cases hr
      · cases honmatch : g.onmatchAt tokens index with
        | error err =>
          rw [honmatch] at hr
          cases hr
        | ok onmatch =>
          rw [honmatch] at hr
          obtain ⟨rfl, rfl⟩ : (⟨index, id, onmatch⟩ : RuleMatch) = m ∧ rule' = rule := by
            simpa [Except.map] using hr
          exact ⟨hmatch, hrule, rfl, rfl, hpos⟩

/-! ## Failing steps -/

/-- The search for an onmatch rule fails at the first candidate that the grammar does not have. -/
theorem firstOnmatch_eq_error {tokens : Array String} {index : Nat} {ids : List OnmatchId}
    {err : ParseError} (h : g.firstOnmatch tokens index ids = .error err) :
    ∃ id ∈ ids, g.onmatchRule? id = none ∧ err = .malformed (.unknownOnmatch id) := by
  induction ids with
  | nil => cases h
  | cons id ids ih =>
    rw [firstOnmatch] at h
    split at h
    · next hnone => exact ⟨id, List.mem_cons_self, hnone, (Except.error.inj h).symm⟩
    · split at h
      · cases h
      · obtain ⟨id', hid', hnone, rfl⟩ := ih h
        exact ⟨id', List.mem_cons_of_mem id hid', hnone, rfl⟩

theorem onmatchAt_eq_error {tokens : Array String} {index : Nat} {err : ParseError}
    (h : g.onmatchAt tokens index = .error err) :
    ∃ current previous ids id, g.onmatchCandidates? current previous = some ids ∧ id ∈ ids ∧
      g.onmatchRule? id = none ∧ err = .malformed (.unknownOnmatch id) := by
  unfold onmatchAt at h
  split at h
  · next current previous _ _ =>
    obtain ⟨id, hid, hnone, rfl⟩ := firstOnmatch_eq_error h
    cases hids : g.onmatchCandidates? current previous with
    | none => simp [hids] at hid
    | some ids =>
      rw [hids, Option.getD_some] at hid
      exact ⟨current, previous, ids, id, hids, hid, hnone, rfl⟩
  · cases h

/-- A step with a rule fails because the grammar does not have it, because the rule consumes no
token, or with the onmatch rule before it. -/
theorem stepWith_eq_error {tokens : Array String} {index : Nat} {id : RuleId} {err : ParseError}
    (h : g.stepWith tokens index id = .error err) :
    (g.rule? id = none ∧ err = .malformed (.unknownRule id)) ∨
      (∃ rule, g.rule? id = some rule ∧ rule.tokenCount = 0 ∧
        err = .malformed (.emptyRule id)) ∨
      g.onmatchAt tokens index = .error err := by
  unfold stepWith at h
  split at h
  · next hrule => exact Or.inl ⟨hrule, (Except.error.inj h).symm⟩
  · next rule hrule =>
    split at h
    · next hzero => exact Or.inr (Or.inl ⟨rule, hrule, hzero, (Except.error.inj h).symm⟩)
    · cases honmatch : g.onmatchAt tokens index with
      | ok onmatch =>
        rw [honmatch] at h
        cases h
      | error err' =>
        rw [honmatch] at h
        obtain rfl : err' = err := Except.error.inj h
        exact Or.inr (Or.inr rfl)

theorem error_of_stepWith {tokens : Array String} {index : Nat} {id : RuleId} {err : ParseError}
    (h : g.stepWith tokens index id = .error err) : ∃ d, err = .malformed d := by
  rcases stepWith_eq_error h with ⟨-, rfl⟩ | ⟨rule, -, -, rfl⟩ | honmatch
  · exact ⟨_, rfl⟩
  · exact ⟨_, rfl⟩
  · obtain ⟨_, _, _, id', -, -, -, rfl⟩ := onmatchAt_eq_error honmatch
    exact ⟨_, rfl⟩

/-- A step fails because no rule matches at its index, with the error of the walk there, or with the
rule that matches. -/
theorem nextStep_eq_error {tokens : Array String} {index : Nat} {err : ParseError}
    (h : g.nextStep limits tokens index = some (.error err)) :
    err = .noMatch index (tokens[index]?.getD "") ∨
      (g.walk limits tokens).rules .first index = some (.error err) ∨
      ∃ id, (g.walk limits tokens).matchAt index = some (.ok id) ∧
        g.stepWith tokens index id = .error err := by
  obtain ⟨r, hmatch, hr⟩ := Option.map_eq_some_iff.1 h
  cases r with
  | ok id => exact Or.inr (Or.inr ⟨id, hmatch, hr⟩)
  | error err' =>
    obtain rfl : err' = err := Except.error.inj hr
    obtain ⟨res, hrules, hfirst⟩ := Option.map_eq_some_iff.1 hmatch
    cases res with
    | error err'' =>
      obtain rfl : err'' = err' := Except.error.inj hfirst
      exact Or.inr (Or.inl hrules)
    | ok ids =>
      cases ids with
      | nil => exact Or.inl (Except.error.inj hfirst).symm
      | cons id ids => cases hfirst

/-- A step fails because no rule matches at its index, by a defect of the grammar or by the cap. -/
theorem error_of_nextStep {tokens : Array String} {index : Nat} {err : ParseError}
    (h : g.nextStep limits tokens index = some (.error err)) :
    err = .noMatch index (tokens[index]?.getD "") ∨ Walk.Fault limits.stackSize err := by
  rcases nextStep_eq_error h with hnone | hrules | ⟨id, -, hstep⟩
  · exact Or.inl hnone
  · exact Or.inr (Walk.fault_of_rules hrules)
  · obtain ⟨d, rfl⟩ := error_of_stepWith hstep
    exact Or.inr (.malformed d)

/-! ## Whole runs -/

/-- How a run ends in a context: at the last default token or behind it with the text that was
written, or with the error of the step that is next. -/
inductive Ends (g : Grammar) (limits : Limits) (c : Context) (text : String) :
    Except ParseError String → Prop
  | stops : c.stop ≤ c.position → Ends g limits c text (.ok text)
  | fails {err : ParseError} : c.position < c.stop →
    g.nextStep limits c.sequence.tokens c.position = some (.error err) →
    Ends g limits c text (.error err)

variable {c c' : Context} {out : String} {r : Except ParseError String}

/-- A run looks at the step that is next, and goes on behind it. -/
theorem runFrom_eq (c : Context) (out : String) :
    g.runFrom limits c out =
      if c.position < c.stop then
        match g.nextStep limits c.sequence.tokens c.position with
        | none => none
        | some (.error err) => some (c, .error err)
        | some (.ok (m, rule)) =>
          g.runFrom limits (c.record m rule.tokenCount)
            (out ++ g.onmatchText m.onmatch ++ rule.production)
      else some (c, .ok out) := by
  rw [runFrom]
  split
  · split <;> simp_all
  · rfl

theorem ends_of_runFrom (h : g.runFrom limits c out = some (c', r)) :
    ∃ text, g.Runs limits c out c' text ∧ g.Ends limits c' text r := by
  fun_induction runFrom g limits c out with
  | case1 => cases h
  | case2 c out hlt err hnext =>
    obtain ⟨rfl, rfl⟩ : c = c' ∧ .error err = r := by simpa using h
    exact ⟨out, .refl, .fails hlt hnext⟩
  | case3 c out hlt m rule hnext ih =>
    obtain ⟨text, hruns, hends⟩ := ih h
    exact ⟨text, .step hlt hnext hruns, hends⟩
  | case4 c out hstop =>
    obtain ⟨rfl, rfl⟩ : c = c' ∧ .ok out = r := by simpa using h
    exact ⟨out, .refl, .stops (Nat.le_of_not_lt hstop)⟩

theorem runFrom_of_runs {text : String} (hruns : g.Runs limits c out c' text)
    (hends : g.Ends limits c' text r) : g.runFrom limits c out = some (c', r) := by
  induction hruns with
  | refl =>
    rw [runFrom_eq]
    cases hends with
    | stops hstop => rw [if_neg (Nat.not_lt.2 hstop)]
    | fails hlt hnext => rw [if_pos hlt, hnext]
  | step hlt hnext _ ih =>
    rw [runFrom_eq, if_pos hlt, hnext]
    exact ih hends

/-- A run is its steps and its end. -/
theorem runFrom_eq_some_iff :
    g.runFrom limits c out = some (c', r) ↔
      ∃ text, g.Runs limits c out c' text ∧ g.Ends limits c' text r :=
  ⟨ends_of_runFrom, fun ⟨_, hruns, hends⟩ => runFrom_of_runs hruns hends⟩

/-- A run without an error is its steps; it stops where no token is left before the last. -/
theorem runs_of_runFrom {text : String} (h : g.runFrom limits c out = some (c', .ok text)) :
    g.Runs limits c out c' text ∧ c'.stop ≤ c'.position := by
  obtain ⟨text', hruns, hends⟩ := runFrom_eq_some_iff.1 h
  cases hends with
  | stops hstop => exact ⟨hruns, hstop⟩

theorem runs_of_parseWithTrace {input : String} {parsed : Parsed}
    (h : g.parseWithTrace limits input = some (.ok parsed)) :
    g.Runs limits (.ofSequence (g.tokenize input)) "" parsed.context parsed.output ∧
      parsed.context.stop ≤ parsed.context.position := by
  unfold parseWithTrace at h
  split at h
  · cases h
  · dsimp only at h
    split at h
    · cases h
    · obtain ⟨⟨c, result⟩, hrun, hresult⟩ := Option.map_eq_some_iff.1 h
      cases result with
      | error err => cases hresult
      | ok text =>
        obtain rfl : (⟨text, c⟩ : Parsed) = parsed := Except.ok.inj hresult
        exact runs_of_runFrom hrun

/-- The tokens are the same all along. -/
theorem Runs.sequence_eq {c c' : Context} {out out' : String} (h : g.Runs limits c out c' out') :
    c'.sequence = c.sequence := by
  induction h with
  | refl => rfl
  | step _ _ _ ih => exact ih

/-- The steps of a run are added behind those that its context had. Each is the next one at an index
before the last token, and the text grows by what they write. -/
theorem Runs.exists_taken {c c' : Context} {out out' : String} (h : g.Runs limits c out c' out') :
    ∃ taken : List (RuleMatch × Rule),
      c'.steps.toList = c.steps.toList ++ taken.map Prod.fst ∧
      out' = out ++ String.join
        (taken.map fun t => g.onmatchText t.1.onmatch ++ t.2.production) ∧
      ∀ t ∈ taken, t.1.index < c.stop ∧
        g.nextStep limits c.sequence.tokens t.1.index = some (.ok t) := by
  induction h with
  | refl => exact ⟨[], by simp, by simp, by simp⟩
  | @step c c' out out' m rule hlt hnext _ ih =>
    obtain ⟨taken, hsteps, rfl, htaken⟩ := ih
    obtain ⟨hindex, -⟩ := nextStep_progress hnext
    refine ⟨(m, rule) :: taken, ?_, ?_, ?_⟩
    · rw [hsteps]
      simp [Context.record]
    · simp only [List.map_cons, String.join_cons, String.append_assoc]
    · rintro t ht
      rcases List.mem_cons.1 ht with rfl | ht
      · rw [hindex]
        exact ⟨hlt, hnext⟩
      · exact htaken t ht

end Grammar

end Translit
