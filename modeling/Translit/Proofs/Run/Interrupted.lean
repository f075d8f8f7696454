import Mathlib
import Translit.Proofs.Run.Resumed

/-!
# Interrupted runs

Runs under caps that stop them, one after the other, take the steps that one run without a cap
takes. So when one of them comes to the end, the context is that of the single run, and what the
last run wrote is the end of what the single run writes.

* `Runs.written`, `Runs.trans` : steps write the same behind any text, and steps follow steps;
* `Runs.uncapped` : the steps of a run are steps of a run without a cap;
* `Resumes.runs` : so are those of any number of runs, one behind the other;
* `run_of_stop`, `run_of_error` : a run behind one that came to the end, and behind one that failed.
-/

namespace Translit

namespace Grammar

variable {g : Grammar} {l l' : Limits} {c c' c'' : Context}

/-! ## Steps of several runs -/

/-- What steps write does not depend on what was written before them. -/
theorem Runs.written {out out' : String} (h : g.Runs l c out c' out') :
    ∃ text, out' = out ++ text ∧ ∀ before, g.Runs l c before c' (before ++ text) := by
  induction h with
  | @refl c out =>
    refine ⟨"", String.append_empty.symm, ?_⟩
    intro before
    rw [String.append_empty]
    exact .refl
  | @step c c' out out' m rule hlt hnext hruns ih =>
    obtain ⟨text, rfl, hrest⟩ := ih
    have hassoc (before : String) :
        before ++ g.onmatchText m.onmatch ++ rule.production ++ text =
          before ++ (g.onmatchText m.onmatch ++ rule.production ++ text) := by
      simp only [String.append_assoc]
    refine ⟨g.onmatchText m.onmatch ++ rule.production ++ text, hassoc out, ?_⟩
    intro before
    rw [← hassoc]
    exact .step hlt hnext (hrest _)

theorem Runs.trans {out out' out'' : String} (h : g.Runs l c out c' out')
    (h' : g.Runs l c' out' c'' out'') : g.Runs l c out c'' out'' := by
  induction h with
  | refl => exact h'
  | step hlt hnext _ ih => exact .step hlt hnext (ih h')

theorem Runs.uncapped {out out' : String} (h : g.Runs l c out c' out') (hcap : l'.stackSize = 0)
    (hle : l.steps ≤ l'.steps) : g.Runs l' c out c' out' := by
  refine h.of_nextStep fun tokens index x hx => ?_
  have hwithin : l.Within { l with stackSize := 0, steps := l'.steps } :=
    ⟨Admits.refl _, Or.inl rfl, id, hle⟩
  have hx' := nextStep_of_within hwithin hx (unlimited_ok x)
  rw [← hx', nextStep, nextStep, walk, walk, hcap]

/-- Whatever runs made of a context and steps of another run then make of it, the steps of a run
without a cap make of it too, and write the same in the end. -/
theorem Resumes.runs {out : String} (h : g.Resumes c c') (hruns : g.Runs l c' "" c'' out) :
    ∃ n before, ∀ l' : Limits, l'.stackSize = 0 → n ≤ l'.steps →
      g.Runs l' c "" c'' (before ++ out) := by
  induction h generalizing l c'' out with
  | refl =>
    refine ⟨l.steps, "", ?_⟩
    intro l' hcap hle
    rw [String.empty_append]
    exact hruns.uncapped hcap hle
  | @run l₀ c₀ c' r _ hrun ih =>
    obtain ⟨out₀, hruns₀, -⟩ := runFrom_eq_some_iff.1 hrun
    obtain ⟨n, before, hbefore⟩ := ih hruns₀
    obtain ⟨text, rfl, hlast⟩ := hruns.written
    refine ⟨max n l.steps, before ++ out₀, ?_⟩
    intro l' hcap hle
    rw [String.empty_append]
    exact (hbefore l' hcap (by omega)).trans ((hlast _).uncapped hcap (by omega))

/-! ## Behind the end of a run -/

theorem run_of_stop (h : c.stop ≤ c.position) (l : Limits) : g.run l c = some (c, .ok "") :=
  runFrom_of_runs .refl (.stops h)

theorem stop_of_run {text : String} (h : g.run l c = some (c', .ok text)) :
    c'.stop ≤ c'.position :=
  (runs_of_runFrom h).2

theorem Resumes.eq_of_stop (h : g.Resumes c c') (hstop : c.stop ≤ c.position) : c' = c := by
  induction h with
  | refl => rfl
  | @run l c' c'' r _ hrun ih =>
    rw [ih, run_of_stop hstop] at hrun
    obtain ⟨rfl, -⟩ := Prod.mk.inj (Option.some.inj hrun)
    rfl

/-- The step that failed fails again, and nothing was recorded that would be taken twice. -/
theorem run_of_error {err : ParseError} (h : g.run l c = some (c', .error err)) :
    g.run l c' = some (c', .error err) := by
  obtain ⟨text, -, hends⟩ := runFrom_eq_some_iff.1 h
  cases hends with
  | fails hlt hnext => exact runFrom_of_runs .refl (.fails hlt hnext)

/-- **Runs can be interrupted.** If one of several runs, each under limits of its own, comes to the
end, then the runs behind it change nothing, and its context is the one that a single run without a
cap makes; its text is the end of what that run writes. A run behind the end writes nothing, and a
run behind an error ends with the same error. -/
theorem resumes_run_eq (g : Grammar) (c : Context) :
    (∀ c₁ c₂ l text, g.Resumes c c₁ → g.run l c₁ = some (c₂, .ok text) →
      (∀ c₃, g.Resumes c₂ c₃ → c₃ = c₂) ∧
      ∃ n before, ∀ l' : Limits, l'.stackSize = 0 → n ≤ l'.steps →
        g.run l' c = some (c₂, .ok (before ++ text))) ∧
    (∀ c₁ c₂ l text, g.Resumes c c₁ → g.run l c₁ = some (c₂, .ok text) →
      ∀ l', g.run l' c₂ = some (c₂, .ok "")) ∧
    ∀ c₁ c₂ l err, g.Resumes c c₁ → g.run l c₁ = some (c₂, .error err) →
      g.run l c₂ = some (c₂, .error err) := by
  refine ⟨?_, ?_, ?_⟩
  · intro c₁ c₂ l text hresumes hrun
    refine ⟨fun c₃ h => h.eq_of_stop (stop_of_run hrun), ?_⟩
    obtain ⟨hruns, hstop⟩ := runs_of_runFrom hrun
    obtain ⟨n, before, hbefore⟩ := hresumes.runs hruns
    refine ⟨n, before, ?_⟩
    intro l' hcap hle
    exact runFrom_of_runs (hbefore l' hcap hle) (.stops hstop)
  · intro c₁ c₂ l text _ hrun l'
    exact run_of_stop (stop_of_run hrun) l'
  · intro c₁ c₂ l err _ hrun
    exact run_of_error hrun

/-- `a` is written as `A` and `b` as `B`; two entries wait behind `b`. -/
def letterGrammar : Grammar :=
  { ofAutomaton
      [(0, .inner [("a", [1]), ("b", [3])] []), (1, .inner [] [2]), (2, .leaf 0),
        (3, .inner [] [4, 5]), (4, .leaf 1), (5, .leaf 1)] [] [] with
    rules := #[⟨"A", none, none, ["a"], none, none, .zero⟩,
      ⟨"B", none, none, ["b"], none, none, .zero⟩] }

/-- A cap of one entry stops a run at `b`, again and again. A run under a larger cap goes on from
there and writes `B`; a single run writes `AB`. -/
theorem resumes_run_eq_letterGrammar :
    let s : TokenSequence := ⟨#[" ", "a", "b", " "], []⟩
    let c : Context := ⟨s, #[⟨1, 0, none⟩], 2⟩
    let c' : Context := ⟨s, #[⟨1, 0, none⟩, ⟨2, 1, none⟩], 3⟩
    let low : Limits := ⟨0, 1, false, 50⟩
    let high : Limits := ⟨0, 2, false, 50⟩
    letterGrammar.run low (.ofSequence s) = some (c, .error (.stackLimit 2 1)) ∧
      letterGrammar.run low c = some (c, .error (.stackLimit 2 1)) ∧
      letterGrammar.run high c = some (c', .ok "B") ∧
      letterGrammar.run low c' = some (c', .ok "") ∧
      ∃ n before, ∀ l' : Limits, l'.stackSize = 0 → n ≤ l'.steps →
        letterGrammar.run l' (.ofSequence s) = some (c', .ok (before ++ "B")) := by
  intro s c c' low high
  have hlow : letterGrammar.run ⟨0, 1, false, 50⟩ (.ofSequence ⟨#[" ", "a", "b", " "], []⟩) =
      some (⟨⟨#[" ", "a", "b", " "], []⟩, #[⟨1, 0, none⟩], 2⟩, .error (.stackLimit 2 1)) := by
    cbv
  have hhigh : letterGrammar.run ⟨0, 2, false, 50⟩
        ⟨⟨#[" ", "a", "b", " "], []⟩, #[⟨1, 0, none⟩], 2⟩ =
      some (⟨⟨#[" ", "a", "b", " "], []⟩, #[⟨1, 0, none⟩, ⟨2, 1, none⟩], 3⟩, .ok "B") := by
    cbv
  have hstopped : letterGrammar.Resumes (.ofSequence s) c := .run .refl hlow
  obtain ⟨hsingle, hbehind, hagain⟩ := resumes_run_eq letterGrammar (.ofSequence s)
  refine ⟨hlow, ?_, hhigh, ?_, ?_⟩
  · exact hagain _ _ low _ .refl hlow
  · exact hbehind c c' high "B" hstopped hhigh low
  · exact (hsingle c c' high "B" hstopped hhigh).2

end Grammar

end Translit
