import Mathlib
import Translit.Proofs.Run.Consumption

/-!
# Parses under limits

Limits restrict: what a parse comes to without being stopped by a limit, it comes to under all
limits that let pass more. Which limit stops it first is fixed: the size of the input, then text
that is not recognized, and only then anything that the run meets.

* `ParseError.isLimit`, `Unlimited` : the errors of limits, and results that are none of them;
* `Limits.Within` : limits that let pass whatever others let pass;
* `nextStep_of_within`, `run_of_within` : a step and a run under such limits;
* `Limits.TooLarge`, `Limits.Refuses` : the two limits on inputs; `parseWithTrace_of_tooLarge`,
  `parseWithTrace_of_refuses`, `parseWithTrace_of_run` : what they do.
-/

namespace Translit

/-- The error tells of a limit and not of the grammar or of a token. -/
def ParseError.isLimit : ParseError → Bool
  | inputTooLarge .. => true
  | stackLimit .. => true
  | unrecognized .. => true
  | noMatch .. => false
  | malformed .. => false

/-- The result is not the error of a limit. -/
def Unlimited {α : Type} (r : Except ParseError α) : Prop :=
  ∀ err, r = .error err → err.isLimit = false

theorem unlimited_ok {α : Type} (a : α) : Unlimited (.ok a : Except ParseError α) := by
  intro err h
  cases h

theorem Unlimited.of_map {α β : Type} {r : Except ParseError α} {f : α → β}
    (h : Unlimited (r.map f)) : Unlimited r := by
  rintro err rfl
  exact h err rfl

/-- The second limits let pass whatever the first ones let pass, and give a walk no fewer steps. -/
structure Limits.Within (l l' : Limits) : Prop where
  inputSize : Admits l.inputSize l'.inputSize
  stackSize : Admits l.stackSize l'.stackSize
  strict : l'.strict = true → l.strict = true
  steps : l.steps ≤ l'.steps

/-- The input has more bytes than the limits allow. -/
def Limits.TooLarge (l : Limits) (input : String) : Prop :=
  0 < l.inputSize ∧ l.inputSize < input.utf8ByteSize

/-- The limits do not allow the stretches of an input that are not recognized. -/
def Limits.Refuses (l : Limits) (s : TokenSequence) : Prop := l.strict = true ∧ s.isClean = false

namespace Limits.Within

variable {l l' : Limits}

theorem not_tooLarge (h : l.Within l') {input : String} (hl : ¬ l.TooLarge input) :
    ¬ l'.TooLarge input := by
  rintro ⟨hpos, hlt⟩
  rcases h.inputSize with hzero | ⟨hpos', hle⟩
  · omega
  · exact hl ⟨hpos', by omega⟩

theorem not_refuses (h : l.Within l') {s : TokenSequence} (hl : ¬ l.Refuses s) :
    ¬ l'.Refuses s :=
  fun hs => hl ⟨h.strict hs.1, hs.2⟩

end Limits.Within

namespace Grammar

variable {g : Grammar} {l l' : Limits}

/-! ## Runs under other limits -/

theorem matchAt_of_within (h : l.Within l') {tokens : Array String} {index : Nat}
    {r : Except ParseError RuleId} (hmatch : (g.walk l tokens).matchAt index = some r)
    (hr : Unlimited r) : (g.walk l' tokens).matchAt index = some r := by
  obtain ⟨res, hrules, rfl⟩ := Option.map_eq_some_iff.1 hmatch
  have hres : ∀ size limit, res ≠ .error (.stackLimit size limit) := by
    rintro size limit rfl
    cases hr (.stackLimit size limit) rfl
  have hcap : ((g.walk l tokens).under l'.stackSize).rules .first index = some res :=
    Walk.rules_of_admits h.stackSize hrules hres
  have hsteps : (g.walk l' tokens).rules .first index = some res :=
    Walk.rules_of_le (w := (g.walk l tokens).under l'.stackSize) hcap h.steps
  rw [Walk.matchAt, hsteps]
  rfl

/-- A step that no limit stops is the same under limits that let pass more. -/
theorem nextStep_of_within (h : l.Within l') {tokens : Array String} {index : Nat}
    {x : Except ParseError (RuleMatch × Rule)} (hnext : g.nextStep l tokens index = some x)
    (hx : Unlimited x) : g.nextStep l' tokens index = some x := by
  obtain ⟨r, hmatch, rfl⟩ := Option.map_eq_some_iff.1 hnext
  have hr : Unlimited r := by
    rintro err rfl
    exact hx err rfl
  rw [nextStep, matchAt_of_within h hmatch hr]
  rfl

theorem Runs.of_nextStep {c c' : Context} {out out' : String} (h : g.Runs l c out c' out')
    (hok : ∀ tokens index x, g.nextStep l tokens index = some (.ok x) →
      g.nextStep l' tokens index = some (.ok x)) : g.Runs l' c out c' out' := by
  induction h with
  | refl => exact .refl
  | step hlt hnext _ ih => exact .step hlt (hok _ _ _ hnext) ih

/-- A run whose steps and whose last error are the same under other limits is the same. -/
theorem runFrom_of_nextStep {c c' : Context} {out : String} {r : Except ParseError String}
    (hok : ∀ tokens index x, g.nextStep l tokens index = some (.ok x) →
      g.nextStep l' tokens index = some (.ok x))
    (herr : ∀ err, r = .error err → ∀ tokens index, g.nextStep l tokens index = some (.error err) →
      g.nextStep l' tokens index = some (.error err))
    (h : g.runFrom l c out = some (c', r)) : g.runFrom l' c out = some (c', r) := by
  obtain ⟨text, hruns, hends⟩ := runFrom_eq_some_iff.1 h
  refine runFrom_eq_some_iff.2 ⟨text, hruns.of_nextStep hok, ?_⟩
  cases hends with
  | stops hstop => exact .stops hstop
  | fails hlt hnext => exact .fails hlt (herr _ rfl _ _ hnext)

/-- A run that no limit stops is the same under limits that let pass more. -/
theorem run_of_within (h : l.Within l') {c c' : Context} {r : Except ParseError String}
    (hrun : g.run l c = some (c', r)) (hr : Unlimited r) : g.run l' c = some (c', r) := by
  refine runFrom_of_nextStep (fun tokens index x hx => ?_) (fun err herr tokens index hx => ?_) hrun
  · exact nextStep_of_within h hx (unlimited_ok x)
  · refine nextStep_of_within h hx ?_
    rintro err' ⟨⟩
    exact hr err herr

/-- A run looks at no other limits than those on walks. -/
theorem run_eq_of_nextStep_eq (h : g.nextStep l = g.nextStep l') (c : Context) :
    g.run l c = g.run l' c := by
  refine Option.ext fun ⟨c', r⟩ => ⟨fun hrun => ?_, fun hrun => ?_⟩
  · exact runFrom_of_nextStep (fun _ _ _ hx => h ▸ hx) (fun _ _ _ _ hx => h ▸ hx) hrun
  · exact runFrom_of_nextStep (fun _ _ _ hx => h ▸ hx) (fun _ _ _ _ hx => h ▸ hx) hrun

theorem error_of_run {c c' : Context} {err : ParseError} (h : g.run l c = some (c', .error err)) :
    (∃ position token, err = .noMatch position token) ∨ Walk.Fault l.stackSize err := by
  obtain ⟨text, -, hends⟩ := runFrom_eq_some_iff.1 h
  cases hends with
  | fails _ hnext => exact (error_of_nextStep hnext).imp (fun h => ⟨_, _, h⟩) id

/-! ## Limits on inputs -/

section Inputs

variable {input : String}

theorem parseWithTrace_of_tooLarge (h : l.TooLarge input) :
    g.parseWithTrace l input =
      some (.error (.inputTooLarge input.utf8ByteSize l.inputSize)) := by
  unfold parseWithTrace
  exact if_pos h

theorem parseWithTrace_of_refuses (h : ¬ l.TooLarge input) (hs : l.Refuses (g.tokenize input)) :
    g.parseWithTrace l input =
      some (.error (.unrecognized (g.tokenize input).unrecognized)) := by
  unfold parseWithTrace
  refine (if_neg h).trans ?_
  exact if_pos ⟨hs.1, by rw [hs.2]; rfl⟩

theorem parseWithTrace_of_run (h : ¬ l.TooLarge input) (hs : ¬ l.Refuses (g.tokenize input)) :
    g.parseWithTrace l input =
      (g.run l (.ofSequence (g.tokenize input))).map fun (context, result) =>
        result.map fun output => ⟨output, context⟩ := by
  unfold parseWithTrace
  refine (if_neg h).trans ?_
  exact if_neg fun hr => hs ⟨hr.1, by simpa using hr.2⟩

theorem error_of_parse (h : ¬ l.TooLarge input) (hs : ¬ l.Refuses (g.tokenize input))
    {err : ParseError} (hparse : g.parseWithTrace l input = some (.error err)) :
    (∃ position token, err = .noMatch position token) ∨ Walk.Fault l.stackSize err := by
  rw [parseWithTrace_of_run h hs] at hparse
  obtain ⟨⟨c, result⟩, hrun, hresult⟩ := Option.map_eq_some_iff.1 hparse
  cases result with
  | ok text => cases hresult
  | error err' =>
    obtain rfl : err' = err := Except.error.inj hresult
    exact error_of_run hrun

theorem parseWithTrace_of_within (h : l.Within l') {r : Except ParseError Parsed}
    (hparse : g.parseWithTrace l input = some r) (hr : Unlimited r) :
    g.parseWithTrace l' input = some r := by
  by_cases hsize : l.TooLarge input
  · rw [parseWithTrace_of_tooLarge hsize, Option.some.injEq] at hparse
    cases hr _ hparse.symm
  · by_cases hs : l.Refuses (g.tokenize input)
    · rw [parseWithTrace_of_refuses hsize hs, Option.some.injEq] at hparse
      cases hr _ hparse.symm
    · rw [parseWithTrace_of_run hsize hs] at hparse
      rw [parseWithTrace_of_run (h.not_tooLarge hsize) (h.not_refuses hs)]
      obtain ⟨⟨c, result⟩, hrun, rfl⟩ := Option.map_eq_some_iff.1 hparse
      rw [run_of_within h hrun hr.of_map]
      rfl

theorem parse_eq_inputTooLarge_iff {size limit : Nat} :
    g.parseWithTrace l input = some (.error (.inputTooLarge size limit)) ↔
      l.TooLarge input ∧ size = input.utf8ByteSize ∧ limit = l.inputSize := by
  constructor
  · intro hparse
    by_cases hsize : l.TooLarge input
    · rw [parseWithTrace_of_tooLarge hsize] at hparse
      obtain ⟨rfl, rfl⟩ : input.utf8ByteSize = size ∧ l.inputSize = limit := by simpa using hparse
      exact ⟨hsize, rfl, rfl⟩
    · by_cases hs : l.Refuses (g.tokenize input)
      · rw [parseWithTrace_of_refuses hsize hs] at hparse
        cases hparse
      · obtain ⟨_, _, herr⟩ | hfault := error_of_parse hsize hs hparse
        · cases herr
        · cases hfault
  · rintro ⟨hsize, rfl, rfl⟩
    exact parseWithTrace_of_tooLarge hsize

theorem parse_eq_unrecognized_iff {spans : List Unrecognized} :
    g.parseWithTrace l input = some (.error (.unrecognized spans)) ↔
      ¬ l.TooLarge input ∧ l.Refuses (g.tokenize input) ∧
        spans = (g.tokenize input).unrecognized := by
  constructor
  · intro hparse
    by_cases hsize : l.TooLarge input
    · rw [parseWithTrace_of_tooLarge hsize] at hparse
      cases hparse
    · by_cases hs : l.Refuses (g.tokenize input)
      · rw [parseWithTrace_of_refuses hsize hs] at hparse
        obtain rfl : (g.tokenize input).unrecognized = spans := by simpa using hparse
        exact ⟨hsize, hs, rfl⟩
      · obtain ⟨_, _, herr⟩ | hfault := error_of_parse hsize hs hparse
        · cases herr
        · cases hfault
  · rintro ⟨hsize, hs, rfl⟩
    exact parseWithTrace_of_refuses hsize hs

/-- **Limits only restrict.** What a parse comes to unless a limit stops it, it comes to under all
limits that let pass more. The size of the input is looked at first and then, where that is asked
for, the text that is not recognized; everything else is the run of a new context, which looks at
the cap alone. -/
theorem parse_limits (g : Grammar) (input : String) :
    (∀ l l' r, Limits.Within l l' → g.parseWithTrace l input = some r → Unlimited r →
      g.parseWithTrace l' input = some r) ∧
    ∀ l : Limits,
      (∀ size limit, g.parseWithTrace l input = some (.error (.inputTooLarge size limit)) ↔
        l.TooLarge input ∧ size = input.utf8ByteSize ∧ limit = l.inputSize) ∧
      (∀ spans, g.parseWithTrace l input = some (.error (.unrecognized spans)) ↔
        ¬ l.TooLarge input ∧ l.Refuses (g.tokenize input) ∧
          spans = (g.tokenize input).unrecognized) ∧
      (¬ l.TooLarge input → ¬ l.Refuses (g.tokenize input) →
        g.parseWithTrace l input =
          (g.run { l with inputSize := 0, strict := false } (.ofSequence (g.tokenize input))).map
            fun (context, result) => result.map fun output => ⟨output, context⟩) := by
  refine ⟨fun l l' r h hparse hr => parseWithTrace_of_within h hparse hr, fun l => ?_⟩
  refine ⟨fun size limit => parse_eq_inputTooLarge_iff, fun spans => parse_eq_unrecognized_iff,
    fun hsize hs => ?_⟩
  have hnext : g.nextStep l = g.nextStep { l with inputSize := 0, strict := false } := rfl
  rw [parseWithTrace_of_run hsize hs, run_eq_of_nextStep_eq hnext]

/-- Two bytes, strict and at most two entries that wait are limits that do not stop `aa`. One byte
is too few for it, and `a?` is refused because of its second character. -/
theorem parse_limits_pairGrammar :
    let l : Limits := ⟨2, 2, true, 50⟩
    let l' : Limits := ⟨0, 3, false, 60⟩
    let parsed : Parsed :=
      ⟨"", ⟨⟨#[" ", "a", "a", " "], []⟩, #[⟨1, 1, none⟩], 3⟩⟩
    l.Within l' ∧ pairGrammar.parseWithTrace l "aa" = some (.ok parsed) ∧
      pairGrammar.parseWithTrace l' "aa" = some (.ok parsed) ∧
      pairGrammar.parseWithTrace { l with inputSize := 1 } "aa" =
        some (.error (.inputTooLarge 2 1)) ∧
      pairGrammar.parseWithTrace l "a?" =
        some (.error (.unrecognized [⟨⟨1, 1, 2⟩, 1, "?"⟩])) := by
  intro l l' parsed
  have hwithin : l.Within l' :=
    ⟨Or.inl rfl, Or.inr ⟨by decide, by decide⟩, (fun h => by cases h), by decide⟩
  have hparse : pairGrammar.parseWithTrace l "aa" = some (.ok parsed) := by
    show pairGrammar.parseWithTrace ⟨2, 2, true, 50⟩ "aa" = _
    cbv
  have hlarge : Limits.TooLarge { l with inputSize := 1 } "aa" := ⟨by decide, by decide⟩
  have hfits : ¬ l.TooLarge "a?" := fun h => absurd h.2 (by decide)
  have hspans : (pairGrammar.tokenize "a?").unrecognized = [⟨⟨1, 1, 2⟩, 1, "?"⟩] := by
    cbv
  have hrefuses : l.Refuses (pairGrammar.tokenize "a?") :=
    ⟨rfl, by rw [TokenSequence.isClean, hspans]; rfl⟩
  obtain ⟨hrestrict, hlimits⟩ := parse_limits pairGrammar "aa"
  obtain ⟨-, hunrecognized, -⟩ := (parse_limits pairGrammar "a?").2 l
  refine ⟨hwithin, hparse, hrestrict l l' _ hwithin hparse (unlimited_ok parsed), ?_, ?_⟩
  · exact ((hlimits { l with inputSize := 1 }).1 2 1).2 ⟨hlarge, by decide, rfl⟩
  · exact (hunrecognized _).2 ⟨hfits, hrefuses, hspans.symm⟩

end Inputs

end Grammar

end Translit
