import Mathlib
import Translit.Proofs.Run.Steps
import Translit.Proofs.Walk.Defects

/-!
# Defects that a parse comes upon

A parse blames the grammar only for what is wrong with it, and a closed grammar is never blamed.

* `Grammar.Reports` : the errors that walks, matches, runs and parses end with;
* `hasDefect_of_nextStep`, `hasDefect_of_run` : the defect that a step, and a run, ends with is one
  of the grammar's own.
-/

namespace Translit

namespace Grammar

/-- An error that a walk, a match, a run or a parse ends with, over any tokens, from any context and
under any limits. -/
inductive Reports (g : Grammar) : ParseError → Prop
  | rules {tokens : Array String} {cap steps : Nat} {mode : Mode} {index : Nat} {err : ParseError} :
    Walk.rules ⟨g, tokens, cap, steps⟩ mode index = some (.error err) → Reports g err
  | matchAt {tokens : Array String} {cap steps index : Nat} {err : ParseError} :
    Walk.matchAt ⟨g, tokens, cap, steps⟩ index = some (.error err) → Reports g err
  | matchAll {tokens : Array String} {cap steps index : Nat} {err : ParseError} :
    Walk.matchAll ⟨g, tokens, cap, steps⟩ index = some (.error err) → Reports g err
  | run {limits : Limits} {c c' : Context} {err : ParseError} :
    g.run limits c = some (c', .error err) → Reports g err
  | parseWithTrace {limits : Limits} {input : String} {err : ParseError} :
    g.parseWithTrace limits input = some (.error err) → Reports g err
  | parse {limits : Limits} {input : String} {err : ParseError} :
    g.parse limits input = some (.error err) → Reports g err

variable {g : Grammar} {limits : Limits} {d : Defect}

/-- A step of a run comes upon no other defect than those of its grammar. -/
theorem hasDefect_of_nextStep {tokens : Array String} {index : Nat}
    (h : g.nextStep limits tokens index = some (.error (.malformed d))) : g.HasDefect d := by
  rcases nextStep_eq_error h with herr | hrules | ⟨id, hmatch, hstep⟩
  · cases herr
  · exact Walk.hasDefect_of_rules hrules
  · rcases stepWith_eq_error hstep with ⟨hnone, -⟩ | ⟨rule, hrule, hzero, herr⟩ | honmatch
    · obtain ⟨rule, hrule⟩ := Walk.rule_of_matchAt hmatch
      have hrule : g.rule? id = some rule := hrule
      rw [hnone] at hrule
      cases hrule
    · cases herr
      exact ⟨rule, hrule, List.length_eq_zero_iff.1 hzero⟩
    · obtain ⟨current, previous, ids, id', hids, hid, hnone, herr⟩ := onmatchAt_eq_error honmatch
      cases herr
      exact ⟨hnone, current, previous, ids, hids, hid⟩

theorem hasDefect_of_run {c c' : Context}
    (h : g.run limits c = some (c', .error (.malformed d))) : g.HasDefect d := by
  obtain ⟨text, -, hends⟩ := runFrom_eq_some_iff.1 h
  cases hends with
  | fails _ hnext => exact hasDefect_of_nextStep hnext

/-- What stops a parse before its run is no defect. -/
theorem hasDefect_of_parseWithTrace {input : String}
    (h : g.parseWithTrace limits input = some (.error (.malformed d))) : g.HasDefect d := by
  unfold parseWithTrace at h
  split at h
  · cases h
  · dsimp only at h
    split at h
    · cases h
    · obtain ⟨⟨c, result⟩, hrun, hresult⟩ := Option.map_eq_some_iff.1 h
      cases result with
      | ok text => cases hresult
      | error err =>
        obtain rfl : err = .malformed d := Except.error.inj hresult
        exact hasDefect_of_run hrun

/-- **A grammar is blamed for its own defects only.** The defect that a walk, a match, a run or a
parse ends with is one that the grammar has; so a closed grammar is not blamed at all. -/
theorem hasDefect_of_reports (g : Grammar) :
    (∀ d, g.Reports (.malformed d) → g.HasDefect d) ∧
      (g.Closed → ∀ d, ¬ g.Reports (.malformed d)) := by
  have hdefect (d : Defect) (h : g.Reports (.malformed d)) : g.HasDefect d := by
    cases h with
    | rules h => exact Walk.hasDefect_of_rules h
    | matchAt h => exact Walk.hasDefect_of_matchAt h
    | matchAll h => exact Walk.hasDefect_of_rules h
    | run h => exact hasDefect_of_run h
    | parseWithTrace h => exact hasDefect_of_parseWithTrace h
    | parse h =>
      obtain ⟨r, htrace, hr⟩ := Option.map_eq_some_iff.1 h
      cases r with
      | ok parsed => cases hr
      | error err =>
        obtain rfl : err = .malformed d := Except.error.inj hr
        exact hasDefect_of_parseWithTrace htrace
  refine ⟨hdefect, fun hclosed d hreports => ?_⟩
  exact hclosed.not_hasDefect d (hdefect d hreports)

/-- `a` is written as `A`, and between two of them stands the hyphen, if that is the onmatch rule
`id`; there is no other. -/
def hyphenGrammar (id : OnmatchId) : Grammar :=
  { ofAutomaton [(0, .inner [("a", [1])] []), (1, .inner [] [2]), (2, .leaf 0)]
      [(1, [(2, ⟨some [], none, none, none⟩)])] [] with
    rules := #[⟨"A", none, some [], ["a"], none, none, .zero⟩]
    onmatchRules := #[⟨["letter"], ["letter"], "-"⟩]
    onmatchLookup := .ofList [("a", .ofList [("a", [id])])]
    pattern := ⟨"a", 0, #[.take (.single 'a'), .accept]⟩
    classes := .ofList [("a", ["letter"])] }

/-- With the hyphen for its onmatch rule the grammar is closed. With a rule that is not there a run
stops between two `a`, and that rule is what the grammar lacks. -/
theorem hasDefect_of_reports_hyphenGrammar :
    let s : TokenSequence := ⟨#[" ", "a", "a", " "], []⟩
    (hyphenGrammar 0).Closed ∧ (∀ d, ¬ (hyphenGrammar 0).Reports (.malformed d)) ∧
      (hyphenGrammar 7).run .default (.ofSequence s) =
        some (⟨s, #[⟨1, 0, none⟩], 2⟩, .error (.malformed (.unknownOnmatch 7))) ∧
      (hyphenGrammar 7).onmatchRule? 7 = none ∧ (hyphenGrammar 7).OffersOnmatch 7 := by
  have hclosed : (hyphenGrammar 0).Closed := .of_isClosed (by decide)
  have hfirst : (hyphenGrammar 7).nextStep .default #[" ", "a", "a", " "] 1 =
      some (.ok (⟨1, 0, none⟩, ⟨"A", none, some [], ["a"], none, none, .zero⟩)) := by
    cbv
  have hsecond : (hyphenGrammar 7).nextStep .default #[" ", "a", "a", " "] 2 =
      some (.error (.malformed (.unknownOnmatch 7))) := by
    cbv
  intro s
  have hrun : (hyphenGrammar 7).run .default (.ofSequence s) =
      some (⟨s, #[⟨1, 0, none⟩], 2⟩, .error (.malformed (.unknownOnmatch 7))) :=
    runFrom_of_runs (.step (by decide) hfirst .refl) (.fails (by decide) hsecond)
  refine ⟨hclosed, (hasDefect_of_reports (hyphenGrammar 0)).2 hclosed, hrun, ?_⟩
  exact (hasDefect_of_reports (hyphenGrammar 7)).1 (.unknownOnmatch 7) (.run hrun)

end Grammar

end Translit
