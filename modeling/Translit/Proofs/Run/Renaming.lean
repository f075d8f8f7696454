import Mathlib
import Translit.Proofs.Run.Steps
import Translit.Proofs.Walk.Renaming

/-!
# Parses with a renamed grammar

The numbers of nodes are seen in no output, step or position of a parse: only an error that blames
the grammar tells of them.

* `stepWith_rename` : a step once its rule is known; it looks at no node and blames none;
* `nextStep_rename`, `run_rename`, `parseWithTrace_rename` : steps, runs and parses;
* `results_rename` : all that a grammar is asked for.
-/

namespace Translit

namespace Grammar

variable {f : NodeId → NodeId} (g : Grammar)

theorem tokenize_rename (input : String) : (g.rename f).tokenize input = g.tokenize input := rfl

theorem onmatchAt_rename (tokens : Array String) (index : Nat) :
    (g.rename f).onmatchAt tokens index = g.onmatchAt tokens index := by
  have hfirst (ids : List OnmatchId) :
      (g.rename f).firstOnmatch tokens index ids = g.firstOnmatch tokens index ids := by
    induction ids with
    | nil => rfl
    | cons id ids ih =>
      unfold firstOnmatch
      rw [ih]
      rfl
  unfold onmatchAt
  simp only [hfirst]
  rfl

theorem stepWith_rename (tokens : Array String) (index : Nat) (id : RuleId) :
    (g.rename f).stepWith tokens index id =
      (g.stepWith tokens index id).mapError (ParseError.rename f) := by
  have hsame : (g.rename f).stepWith tokens index id = g.stepWith tokens index id := by
    unfold stepWith
    rw [onmatchAt_rename]
    rfl
  rw [hsame]
  cases hstep : g.stepWith tokens index id with
  | ok x => rfl
  | error err =>
    -- none of the errors of a step names a node
    rcases stepWith_eq_error hstep with ⟨-, rfl⟩ | ⟨rule, -, -, rfl⟩ | honmatch
    · rfl
    · rfl
    · obtain ⟨_, _, _, _, -, -, -, rfl⟩ := onmatchAt_eq_error honmatch
      rfl

section Run

variable (hf : Function.Injective f) (hroot : f root = root) (limits : Limits)

include hf hroot

theorem nextStep_rename (tokens : Array String) (index : Nat) :
    (g.rename f).nextStep limits tokens index =
      (g.nextStep limits tokens index).map (·.mapError (ParseError.rename f)) := by
  have hmatch : ((g.rename f).walk limits tokens).matchAt index =
      ((g.walk limits tokens).matchAt index).map (·.mapError (ParseError.rename f)) :=
    Walk.matchAt_rename (w := g.walk limits tokens) hf hroot index
  unfold nextStep
  rw [hmatch, Option.map_map, Option.map_map]
  congr 1
  funext r
  cases r with
  | error err => rfl
  | ok id => exact stepWith_rename g tokens index id

/-- A run ends in the same context with the same text, or with the same error told of by other
numbers. -/
theorem runFrom_rename (c : Context) (out : String) :
    (g.rename f).runFrom limits c out =
      (g.runFrom limits c out).map fun (c', r) => (c', r.mapError (ParseError.rename f)) := by
  fun_induction runFrom g limits c out with
  | case1 c out hlt hnone =>
    rw [runFrom_eq, if_pos hlt, nextStep_rename g hf hroot, hnone]
    rfl
  | case2 c out hlt err herr =>
    rw [runFrom_eq, if_pos hlt, nextStep_rename g hf hroot, herr]
    rfl
  | case3 c out hlt m rule hnext ih =>
    rw [runFrom_eq, if_pos hlt, nextStep_rename g hf hroot, hnext]
    exact ih
  | case4 c out hstop =>
    rw [runFrom_eq, if_neg hstop]
    rfl

theorem run_rename (c : Context) :
    (g.rename f).run limits c =
      (g.run limits c).map fun (c', r) => (c', r.mapError (ParseError.rename f)) :=
  runFrom_rename g hf hroot limits c ""

theorem parseWithTrace_rename (input : String) :
    (g.rename f).parseWithTrace limits input =
      (g.parseWithTrace limits input).map (·.mapError (ParseError.rename f)) := by
  unfold parseWithTrace
  simp only [tokenize_rename, run_rename g hf hroot]
  split
  · rfl
  · split
    · rfl
    · rw [Option.map_map, Option.map_map]
      congr 1
      funext ⟨c, r⟩
      cases r <;> rfl

end Run

/-- **Node numbers are only names.** Under other numbers for its nodes, in its lists and at the ends
of its edges, with the root kept, a grammar gives the same rules, outputs, contexts and errors for
all tokens, inputs and limits. Only an error that blames a node tells of it by its new number. -/
theorem results_rename (g : Grammar) {f : NodeId → NodeId} (hf : Function.Injective f)
    (hroot : f root = root) :
    (∀ tokens cap steps index,
      let w : Walk := ⟨g, tokens, cap, steps⟩
      let w' : Walk := ⟨g.rename f, tokens, cap, steps⟩
      (∀ mode, w'.rules mode index =
        (w.rules mode index).map (·.mapError (ParseError.rename f))) ∧
      w'.matchAt index = (w.matchAt index).map (·.mapError (ParseError.rename f)) ∧
      w'.matchAll index = (w.matchAll index).map (·.mapError (ParseError.rename f))) ∧
    ∀ limits : Limits,
      (∀ c, (g.rename f).run limits c =
        (g.run limits c).map fun (c', r) => (c', r.mapError (ParseError.rename f))) ∧
      ∀ input, (g.rename f).tokenize input = g.tokenize input ∧
        (g.rename f).parseWithTrace limits input =
          (g.parseWithTrace limits input).map (·.mapError (ParseError.rename f)) ∧
        (g.rename f).parse limits input =
          (g.parse limits input).map (·.mapError (ParseError.rename f)) := by
  refine ⟨?_, ?_⟩
  · intro tokens cap steps index w w'
    have hrules := Walk.rules_rename (w := w) hf hroot
    exact ⟨fun mode => hrules mode index, Walk.matchAt_rename (w := w) hf hroot index,
      hrules .all index⟩
  · intro limits
    refine ⟨run_rename g hf hroot limits, ?_⟩
    intro input
    refine ⟨rfl, parseWithTrace_rename g hf hroot limits input, ?_⟩
    unfold parse
    rw [parseWithTrace_rename g hf hroot, Option.map_map, Option.map_map]
    congr 1
    funext r
    cases r <;> rfl

/-- The rule `a`, behind the default token. The list of the node that `b` leads to names one that is
not there; the pattern finds `a` and `b`. -/
def brokenGrammar : Grammar :=
  { ofAutomaton
      [(0, .inner [("a", [1]), ("b", [2])] []), (1, .inner [] [3]), (2, .inner [] [9]),
        (3, .leaf 0)]
      [(1, [(3, ⟨some [" "], none, none, none⟩)])] [["a"]] with
    pattern := ⟨"a|b", 0, #[.take (.range 'a' 'b'), .accept]⟩ }

/-- Two nodes take each other's number, and one of them is missing. The walk that comes to the
missing node blames it by its new number; a parse that does not is as it was. -/
theorem results_rename_brokenGrammar :
    let f : NodeId → NodeId := Equiv.swap 1 9
    let walk (g : Grammar) : Walk := ⟨g, #[" ", "b", " "], 0, 9⟩
    let limits : Limits := ⟨0, 0, false, 9⟩
    let parsed : Parsed := ⟨"", ⟨⟨#[" ", "a", " "], []⟩, #[⟨1, 0, none⟩], 2⟩⟩
    Function.Injective f ∧ f root = root ∧
      (walk brokenGrammar).rules .all 1 = some (.error (.malformed (.missingNode 9))) ∧
      (walk (brokenGrammar.rename f)).rules .all 1 = some (.error (.malformed (.missingNode 1))) ∧
      brokenGrammar.parseWithTrace limits "a" = some (.ok parsed) ∧
      (brokenGrammar.rename f).parseWithTrace limits "a" = some (.ok parsed) := by
  have hmissing : Walk.rules ⟨brokenGrammar, #[" ", "b", " "], 0, 9⟩ .all 1 =
      some (.error (.malformed (.missingNode 9))) := rfl
  have htokens : brokenGrammar.tokenize "a" = ⟨#[" ", "a", " "], []⟩ := by
    cbv
  have hnext : brokenGrammar.nextStep ⟨0, 0, false, 9⟩ #[" ", "a", " "] 1 =
      some (.ok (⟨1, 0, none⟩, ⟨"", none, none, ["a"], none, none, .zero⟩)) := rfl
  have hrun : brokenGrammar.run ⟨0, 0, false, 9⟩ (.ofSequence ⟨#[" ", "a", " "], []⟩) =
      some (⟨⟨#[" ", "a", " "], []⟩, #[⟨1, 0, none⟩], 2⟩, .ok "") :=
    runFrom_of_runs (.step (by decide) hnext .refl) (.stops (by decide))
  have hname : Equiv.swap (1 : NodeId) 9 9 = 1 := Equiv.swap_apply_right 1 9
  intro f walk limits parsed
  have hroot : f root = root := by decide
  have hparsed : brokenGrammar.parseWithTrace limits "a" = some (.ok parsed) := by
    unfold parseWithTrace
    simp only [htokens, limits, hrun]
    rfl
  obtain ⟨hwalks, hruns⟩ := results_rename brokenGrammar (Equiv.injective (Equiv.swap 1 9)) hroot
  refine ⟨Equiv.injective _, hroot, hmissing, ?_, hparsed, ?_⟩
  · rw [← hname]
    exact ((hwalks #[" ", "b", " "] 0 9 1).1 .all).trans (congrArg _ hmissing)
  · rw [((hruns limits).2 "a").2.1, hparsed]
    rfl

end Grammar

end Translit
