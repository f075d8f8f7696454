import Mathlib
import Translit.Proofs.Run.Limits

/-!
# Runs that are resumed

A run that failed left its context at the token that it failed at, with the steps before. The next
run goes on from there, under limits of its own. Whatever the runs before came to, the steps of a
context follow each other without a gap, and each is the one that a run without a cap takes.

* `Resumes` : what any number of runs makes of a context;
* `stepEnd?`, `Picked` : the index behind the tokens of a step, and the step that a run without a
  cap takes;
* `Chained` : steps that follow each other without a gap; `Chained.push` : one more of them;
* `InStep` : position, steps and rules of a context agree; `InStep.record` : one more step keeps it;
* `Runs.inStep`, `Runs.steps_prefix` : so does a run, which only adds steps.
-/

namespace Translit

namespace Grammar

/-- The contexts that any number of runs makes of one. Each is under limits of its own and comes to
an end, with a text or with an error. -/
inductive Resumes (g : Grammar) (c : Context) : Context → Prop
  | refl : Resumes g c c
  | run {limits : Limits} {c' c'' : Context} {r : Except ParseError String} :
    Resumes g c c' → g.run limits c' = some (c'', r) → Resumes g c c''

/-- The index behind the tokens that a step consumes, if the grammar has its rule. -/
def stepEnd? (g : Grammar) (m : RuleMatch) : Option Nat :=
  (g.rule? m.rule).map fun rule => m.index + rule.tokenCount

/-- The step is the one that a run without a cap takes at its index. -/
structure Picked (g : Grammar) (tokens : Array String) (m : RuleMatch) : Prop where
  matchAt_eq : ∃ n, ∀ steps, n ≤ steps →
    Walk.matchAt ⟨g, tokens, 0, steps⟩ m.index = some (.ok m.rule)
  onmatchAt_eq : g.onmatchAt tokens m.index = .ok m.onmatch

/-- The steps begin at the first token and end at `position`, each where the one before ends. -/
structure Chained (g : Grammar) (steps : Array RuleMatch) (position : Nat) : Prop where
  first : ∀ m, steps[0]? = some m → m.index = 1
  next : ∀ i m m', steps[i]? = some m → steps[i + 1]? = some m' → g.stepEnd? m = some m'.index
  last : ∀ m, steps.back? = some m → g.stepEnd? m = some position
  empty : steps = #[] → position = 1

/-- The steps of a context are chained up to its position. They consume a token or more, start
before the last token, and are those that a run without a cap takes. -/
structure InStep (g : Grammar) (c : Context) : Prop where
  chained : g.Chained c.steps c.position
  advances : ∀ m ∈ c.steps, ∃ stop, g.stepEnd? m = some stop ∧ m.index < stop ∧ stop ≤ c.position
  before : ∀ m ∈ c.steps, m.index < c.stop
  picked : ∀ m ∈ c.steps, g.Picked c.sequence.tokens m

variable {g : Grammar} {limits : Limits}

theorem picked_of_nextStep {tokens : Array String} {index : Nat} {m : RuleMatch} {rule : Rule}
    (h : g.nextStep limits tokens index = some (.ok (m, rule))) : g.Picked tokens m := by
  obtain ⟨-, -, rfl, honmatch, -⟩ := nextStep_eq_ok h
  refine ⟨⟨limits.steps, fun steps hle => ?_⟩, honmatch⟩
  have hwithin : limits.Within { limits with stackSize := 0, steps := steps } :=
    ⟨Admits.refl _, Or.inl rfl, id, hle⟩
  exact (nextStep_eq_ok (nextStep_of_within hwithin h (unlimited_ok _))).1

theorem chained_empty (g : Grammar) : g.Chained #[] 1 where
  first := by simp
  next := by simp
  last := by simp
  empty := fun _ => rfl

/-- A step from the position on is chained to those before, up to its own end. -/
theorem Chained.push {steps : Array RuleMatch} {position stop : Nat}
    (h : g.Chained steps position) {m : RuleMatch} (hindex : m.index = position)
    (hstop : g.stepEnd? m = some stop) : g.Chained (steps.push m) stop where
  first := by
    intro m' hm'
    rw [Array.getElem?_push] at hm'
    split at hm'
    · next hsize =>
      obtain rfl := Option.some.inj hm'
      rw [hindex, h.empty (Array.eq_empty_of_size_eq_zero hsize.symm)]
    · exact h.first m' hm'
  next := by
    intro i m₁ m₂ h₁ h₂
    rw [Array.getElem?_push] at h₁ h₂
    by_cases hsize : i + 1 = steps.size
    · rw [if_pos hsize] at h₂
      rw [if_neg (by omega)] at h₁
      obtain rfl := Option.some.inj h₂
      rw [hindex]
      refine h.last m₁ ?_
      rw [Array.back?_eq_getElem?, ← hsize]
      exact h₁
    · rw [if_neg hsize] at h₂
      have hlt : i + 1 < steps.size := by
        by_contra hge
        rw [Array.getElem?_eq_none (by omega)] at h₂
        cases h₂
      rw [if_neg (by omega)] at h₁
      exact h.next i m₁ m₂ h₁ h₂
  last := by
    intro m' hm'
    rw [Array.back?_push] at hm'
    obtain rfl := Option.some.inj hm'
    exact hstop
  empty := by
    intro hempty
    simp at hempty

theorem inStep_ofSequence (g : Grammar) (s : TokenSequence) : g.InStep (.ofSequence s) where
  chained := g.chained_empty
  advances := by simp [Context.ofSequence]
  before := by simp [Context.ofSequence]
  picked := by simp [Context.ofSequence]

/-- A step that a run takes keeps position, steps and rules in agreement. -/
theorem InStep.record {c : Context} (h : g.InStep c) (hlt : c.position < c.stop) {m : RuleMatch}
    {rule : Rule} (hnext : g.nextStep limits c.sequence.tokens c.position = some (.ok (m, rule))) :
    g.InStep (c.record m rule.tokenCount) := by
  obtain ⟨-, hrule, hindex, -, hpos⟩ := nextStep_eq_ok hnext
  have hstop : g.stepEnd? m = some (m.index + rule.tokenCount) := by
    rw [stepEnd?, hrule]
    rfl
  have hmem {m' : RuleMatch} (hm' : m' ∈ c.steps.push m) : m' ∈ c.steps ∨ m' = m :=
    Array.mem_push.1 hm'
  refine ⟨h.chained.push hindex hstop, fun m' hm' => ?_, fun m' hm' => ?_, fun m' hm' => ?_⟩
  · show ∃ stop, g.stepEnd? m' = some stop ∧ m'.index < stop ∧ stop ≤ m.index + rule.tokenCount
    rcases hmem hm' with hm' | rfl
    · obtain ⟨stop, hstop', hlt', hle⟩ := h.advances m' hm'
      exact ⟨stop, hstop', hlt', by omega⟩
    · exact ⟨_, hstop, by omega, Nat.le_refl _⟩
  · rcases hmem hm' with hm' | rfl
    · exact h.before m' hm'
    · rw [hindex]
      exact hlt
  · rcases hmem hm' with hm' | rfl
    · exact h.picked m' hm'
    · exact picked_of_nextStep hnext

/-! ## Runs, one after the other -/

section Runs

variable {c c' : Context}

theorem Runs.inStep {out out' : String} (h : g.Runs limits c out c' out') (hc : g.InStep c) :
    g.InStep c' := by
  induction h with
  | refl => exact hc
  | step hlt hnext _ ih => exact ih (hc.record hlt hnext)

theorem Runs.steps_prefix {out out' : String} (h : g.Runs limits c out c' out') :
    c.steps.toList <+: c'.steps.toList := by
  obtain ⟨taken, hsteps, -, -⟩ := h.exists_taken
  exact ⟨_, hsteps.symm⟩

theorem Resumes.sequence_eq (h : g.Resumes c c') : c'.sequence = c.sequence := by
  induction h with
  | refl => rfl
  | run _ hrun ih =>
    obtain ⟨text, hruns, -⟩ := runFrom_eq_some_iff.1 hrun
    exact hruns.sequence_eq.trans ih

theorem Resumes.inStep (h : g.Resumes c c') (hc : g.InStep c) : g.InStep c' := by
  induction h with
  | refl => exact hc
  | run _ hrun ih =>
    obtain ⟨text, hruns, -⟩ := runFrom_eq_some_iff.1 hrun
    exact hruns.inStep ih

theorem InStep.index_lt (h : g.InStep c) {m : RuleMatch} (hm : m ∈ c.steps) :
    m.index < c.position := by
  obtain ⟨stop, -, hlt, hle⟩ := h.advances m hm
  omega

/-- A run that fails leaves its context at the step that fails. -/
theorem error_of_ends {text : String} {err : ParseError}
    (h : g.Ends limits c text (.error err)) :
    c.position < c.stop ∧ g.nextStep limits c.sequence.tokens c.position = some (.error err) ∧
      ∀ position token, err = .noMatch position token →
        position = c.position ∧ c.sequence.tokens[position]? = some token := by
  cases h with
  | fails hlt hnext =>
    refine ⟨hlt, hnext, ?_⟩
    rintro position token rfl
    rcases error_of_nextStep hnext with herr | hfault
    · obtain ⟨rfl, rfl⟩ := ParseError.noMatch.inj herr
      have hsize : c.position < c.sequence.tokens.size := by
        rw [Context.stop] at hlt
        omega
      refine ⟨rfl, ?_⟩
      rw [Array.getElem?_eq_getElem hsize, Option.getD_some]
    · cases hfault

end Runs

/-- **What runs leave behind**, whichever limits they were under and whether they failed or not: the
same tokens, and a context in step with them. A run only adds steps. Without an error it comes to
the last token; with one it is left at the step that failed, of which nothing is recorded. -/
theorem resumes_inStep {s : TokenSequence} {c : Context} (h : g.Resumes (.ofSequence s) c) :
    c.sequence = s ∧ g.InStep c ∧
      ∀ limits c' r, g.run limits c = some (c', r) →
        g.InStep c' ∧ c'.sequence = s ∧ c.steps.toList <+: c'.steps.toList ∧
        (∀ text, r = .ok text → c'.stop ≤ c'.position) ∧
        ∀ err, r = .error err →
          c'.position < c'.stop ∧
          g.nextStep limits s.tokens c'.position = some (.error err) ∧
          (∀ m ∈ c'.steps, m.index < c'.position) ∧
          ∀ position token, err = .noMatch position token →
            position = c'.position ∧ s.tokens[position]? = some token := by
  have hsequence : c.sequence = s := h.sequence_eq
  have hstep : g.InStep c := h.inStep (inStep_ofSequence g s)
  refine ⟨hsequence, hstep, fun limits c' r hrun => ?_⟩
  obtain ⟨text, hruns, hends⟩ := runFrom_eq_some_iff.1 hrun
  have hstep' : g.InStep c' := hruns.inStep hstep
  obtain rfl : c'.sequence = s := hruns.sequence_eq.trans hsequence
  refine ⟨hstep', rfl, hruns.steps_prefix, ?_, ?_⟩
  · rintro text' rfl
    cases hends with
    | stops hstop => exact hstop
  · rintro err rfl
    obtain ⟨hlt, hnext, hposition⟩ := error_of_ends hends
    exact ⟨hlt, hnext, fun m hm => hstep'.index_lt hm, hposition⟩

/-- A first run that may keep one entry fails at the first token; a second one comes to the end from
there. -/
theorem resumes_inStep_pairGrammar :
    let s : TokenSequence := ⟨#[" ", "a", "a", " "], []⟩
    let c : Context := ⟨s, #[⟨1, 1, none⟩], 3⟩
    pairGrammar.run ⟨0, 1, false, 50⟩ (.ofSequence s) =
        some (.ofSequence s, .error (.stackLimit 2 1)) ∧
      pairGrammar.run ⟨0, 0, false, 50⟩ (.ofSequence s) = some (c, .ok "") ∧
      pairGrammar.Resumes (.ofSequence s) c ∧ pairGrammar.InStep c ∧ c.stop ≤ c.position ∧
      pairGrammar.nextStep ⟨0, 1, false, 50⟩ s.tokens 1 = some (.error (.stackLimit 2 1)) := by
  intro s c
  have hfail : pairGrammar.run ⟨0, 1, false, 50⟩ (.ofSequence ⟨#[" ", "a", "a", " "], []⟩) =
      some (⟨⟨#[" ", "a", "a", " "], []⟩, #[], 1⟩, .error (.stackLimit 2 1)) := by
    cbv
  have hrun : pairGrammar.run ⟨0, 0, false, 50⟩ (.ofSequence ⟨#[" ", "a", "a", " "], []⟩) =
      some (⟨⟨#[" ", "a", "a", " "], []⟩, #[⟨1, 1, none⟩], 3⟩, .ok "") := by
    cbv
  have hfresh : pairGrammar.Resumes (.ofSequence s) (.ofSequence s) := .run .refl hfail
  have hresumes : pairGrammar.Resumes (.ofSequence s) c := .run hfresh hrun
  obtain ⟨-, -, hnext⟩ := resumes_inStep hfresh
  obtain ⟨-, -, -, -, herror⟩ := hnext _ _ _ hfail
  obtain ⟨-, -, -, hok, -⟩ := hnext _ _ _ hrun
  exact ⟨hfail, hrun, hresumes, (resumes_inStep hresumes).2.1, hok "" rfl, (herror _ rfl).2.1⟩

end Grammar

end Translit
