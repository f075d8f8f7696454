import Mathlib
import Translit.Proofs.Run.Limits
import Translit.Proofs.Walk.Finite

/-!
# Parses that come to an end

A run takes at least one token with each step, so it comes to its end if its walks do. All walks of
a parse are over tokens that end with the default token, and for their end it is enough to know
where that one token leads.

* `exists_nextStep`, `exists_runFrom`, `exists_parse` : with steps enough for each walk a step, a
  run and a parse have a result, which more steps do not change.
-/

namespace Translit

namespace Grammar

variable {g : Grammar} {limits : Limits}

theorem exists_nextStep {tokens : Array String} {index : Nat} {r : Walk.Result}
    (h : (g.walk limits tokens).Gives .first index r) :
    ∃ n x, ∀ steps, n ≤ steps →
      g.nextStep { limits with steps := steps } tokens index = some x := by
  obtain ⟨n, hmatch⟩ := h.matchAt
  refine ⟨n, ((g.walk limits tokens).firstRule index r).bind (g.stepWith tokens index),
    fun steps hle => ?_⟩
  exact congrArg (Option.map fun r => r.bind (g.stepWith tokens index)) (hmatch steps hle)

/-- A run whose walks come to an end comes to one. -/
theorem exists_runFrom (c : Context) (out : String)
    (hgives : ∀ index, ∃ r, (g.walk limits c.sequence.tokens).Gives .first index r) :
    ∃ n x, ∀ steps, n ≤ steps → g.runFrom { limits with steps := steps } c out = some x := by
  -- each step leaves fewer tokens before the last one
  obtain ⟨room, hroom⟩ : ∃ room, c.stop - c.position = room := ⟨_, rfl⟩
  induction room using Nat.strong_induction_on generalizing c out with
  | _ room ih =>
    by_cases hlt : c.position < c.stop
    · obtain ⟨r, hr⟩ := hgives c.position
      obtain ⟨n, x, hnext⟩ := exists_nextStep hr
      cases x with
      | error err =>
        exact ⟨n, (c, .error err), fun steps hle =>
          runFrom_eq_some_iff.2 ⟨out, .refl, .fails hlt (hnext steps hle)⟩⟩
      | ok x =>
        obtain ⟨m, rule⟩ := x
        obtain ⟨hindex, hpos⟩ := nextStep_progress (hnext n (Nat.le_refl n))
        have hless : (c.record m rule.tokenCount).stop - (c.record m rule.tokenCount).position <
            room := by
          simp only [Context.record, Context.stop] at *
          omega
        obtain ⟨n', ⟨c', r'⟩, hrest⟩ := ih _ hless (c.record m rule.tokenCount)
          (out ++ g.onmatchText m.onmatch ++ rule.production) hgives rfl
        refine ⟨max n n', (c', r'), fun steps hle => ?_⟩
        obtain ⟨text, hruns, hends⟩ := runFrom_eq_some_iff.1 (hrest steps (by omega))
        exact runFrom_eq_some_iff.2
          ⟨text, .step hlt (hnext steps (by omega)) hruns, hends⟩
    · exact ⟨0, (c, .ok out), fun steps _ =>
        runFrom_eq_some_iff.2 ⟨out, .refl, .stops (Nat.not_lt.1 hlt)⟩⟩

/-- A parse whose walks come to an end comes to one. -/
theorem exists_parse {input : String}
    (hgives : ∀ index, ∃ r, (g.walk limits (g.tokenize input).tokens).Gives .first index r) :
    ∃ n r, ∀ steps, n ≤ steps →
      g.parseWithTrace { limits with steps := steps } input = some r := by
  by_cases hsize : limits.TooLarge input
  · refine ⟨0, .error (.inputTooLarge input.utf8ByteSize limits.inputSize), fun steps _ => ?_⟩
    exact parseWithTrace_of_tooLarge (l := { limits with steps := steps }) hsize
  · by_cases hs : limits.Refuses (g.tokenize input)
    · refine ⟨0, .error (.unrecognized (g.tokenize input).unrecognized), fun steps _ => ?_⟩
      exact parseWithTrace_of_refuses (l := { limits with steps := steps }) hsize hs
    · obtain ⟨n, ⟨c, result⟩, hrun⟩ := exists_runFrom (.ofSequence (g.tokenize input)) "" hgives
      refine ⟨n, result.map fun output => ⟨output, c⟩, fun steps hle => ?_⟩
      rw [parseWithTrace_of_run (l := { limits with steps := steps }) hsize hs, run, hrun steps hle]
      rfl

/-- **Walks and parses come to an end** if the nodes that the last token leads to have no cycle,
whatever cycles there are under other tokens. For a parse that token is the default one. -/
theorem returns_of_acyclicUnder (g : Grammar) :
    (∀ last, g.AcyclicUnder last → ∀ tokens : Array String, tokens.back? = some last →
      ∀ mode index cap, ∃ n r, ∀ steps, n ≤ steps →
        Walk.rules ⟨g, tokens, cap, steps⟩ mode index = some r) ∧
    (g.AcyclicUnder g.whitespace.defaultToken → ∀ (limits : Limits) (input : String),
      ∃ n r, ∀ steps, n ≤ steps → g.parse { limits with steps := steps } input = some r) := by
  refine ⟨fun last hacyclic tokens hlast mode index cap => ?_, fun hacyclic limits input => ?_⟩
  · have htoken : Walk.token ⟨g, tokens, cap, 0⟩ (tokens.size - 1) = last := by
      rw [Walk.token, ← Array.back?_eq_getElem?, hlast, Option.getD_some]
    rw [← htoken] at hacyclic
    obtain ⟨r, n, h⟩ := Walk.exists_gives (w := ⟨g, tokens, cap, 0⟩) hacyclic mode index
    exact ⟨n, r, h⟩
  · obtain ⟨-, hlast⟩ := token_stop_tokenize g limits input
    rw [← hlast] at hacyclic
    obtain ⟨n, r, h⟩ := exists_parse fun index => Walk.exists_gives hacyclic .first index
    refine ⟨n, r.map (·.output), fun steps hle => ?_⟩
    rw [parse, h steps hle]
    rfl

/-- The rule `a`; under `a` the node behind it leads back to itself. -/
def spinGrammar : Grammar :=
  .ofAutomaton [(0, .inner [("a", [1])] []), (1, .inner [("a", [1])] [2]), (2, .leaf 0)] [] [["a"]]

/-- Under `a` there is a cycle and under the default token there is none, so walks over rows that
end with that token come to an end, and so do parses. -/
theorem returns_of_acyclicUnder_spinGrammar :
    spinGrammar.AcyclicUnder " " ∧ ¬ spinGrammar.AcyclicUnder "a" ∧
      #[" ", "a", "a", " "].back? = some " " ∧
      (∃ n r, ∀ steps, n ≤ steps →
        Walk.rules ⟨spinGrammar, #[" ", "a", "a", " "], 1, steps⟩ .all 1 = some r) ∧
      ∃ n r, ∀ steps, n ≤ steps →
        spinGrammar.parse { Limits.default with steps := steps } "aa" = some r := by
  have hacyclic : spinGrammar.AcyclicUnder " " := acyclicUnder_of_entries (by decide)
  have hcycle : spinGrammar.LeadsUnder "a" 1 1 := ⟨.inner [("a", [1])] [2], by decide, by decide⟩
  obtain ⟨hwalk, hparse⟩ := returns_of_acyclicUnder spinGrammar
  refine ⟨hacyclic, fun h => h 1 (.single hcycle), by decide, ?_, ?_⟩
  · exact hwalk " " hacyclic #[" ", "a", "a", " "] (by decide) .all 1 1
  · exact hparse hacyclic .default "aa"

end Grammar

end Translit
