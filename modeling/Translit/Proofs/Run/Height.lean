import Mathlib
import Translit.Proofs.Run.Limits
import Translit.Proofs.Walk.Height
import Translit.Proofs.Walk.Modes

/-!
# A cap that is enough

From the length of the paths of an automaton and that of its lists one can tell how many entries
wait at most, for all inputs. Under a cap that is not below this number nothing is stopped by it.

* `Overruns` : results of walks that went over a cap; without a cap there are none;
* `rules_of_enough`, `matchAt_of_enough`, `run_of_enough`, `parse_of_enough` : under such a cap
  all is what it is without one;
* `cap_enough` : so nothing goes over it.
-/

namespace Translit

/-- The result is that of a walk that went over a cap. -/
def Overruns {α : Type} (r : Option (Except ParseError α)) : Prop :=
  ∃ size limit, r = some (.error (.stackLimit size limit))

namespace Grammar

variable {g : Grammar} {limits : Limits} {depth breadth : Nat}

/-! ## Without a cap -/

section Uncapped

variable (hcap : limits.stackSize = 0)

include hcap

theorem not_overruns_rules (tokens : Array String) (mode : Mode) (index : Nat) :
    ¬ Overruns ((g.walk limits tokens).rules mode index) := by
  rintro ⟨size, limit, h⟩
  have hcap' : (g.walk limits tokens).cap = 0 := hcap
  cases Walk.fault_of_rules h with
  | stackLimit _ hpos => omega

theorem not_overruns_matchAt (tokens : Array String) (index : Nat) :
    ¬ Overruns ((g.walk limits tokens).matchAt index) := by
  rintro ⟨size, limit, h⟩
  rcases Walk.rules_of_matchAt_error h with hrules | ⟨-, herr⟩
  · exact not_overruns_rules hcap tokens .first index ⟨size, limit, hrules⟩
  · cases herr

theorem not_overruns_parse (input : String) : ¬ Overruns (g.parseWithTrace limits input) := by
  rintro ⟨size, limit, hparse⟩
  by_cases hsize : limits.TooLarge input
  · rw [parseWithTrace_of_tooLarge hsize] at hparse
    cases hparse
  · by_cases hs : limits.Refuses (g.tokenize input)
    · rw [parseWithTrace_of_refuses hsize hs] at hparse
      cases hparse
    · obtain ⟨_, _, herr⟩ | hfault := error_of_parse hsize hs hparse
      · cases herr
      · cases hfault with
        | stackLimit _ hpos => omega

end Uncapped

/-! ## Under a cap that is enough -/

section Enough

variable (hshallow : g.Shallow depth) (hnarrow : g.Narrow breadth)
  (hcap : room depth breadth ≤ limits.stackSize)

include hshallow hnarrow hcap

theorem rules_of_enough (tokens : Array String) (mode : Mode) (index : Nat) :
    (g.walk limits tokens).rules mode index =
      (g.walk { limits with stackSize := 0 } tokens).rules mode index :=
  Walk.rules_of_room_le (w := g.walk limits tokens) hnarrow hshallow hcap mode index

theorem matchAt_of_enough (tokens : Array String) (index : Nat) :
    (g.walk limits tokens).matchAt index =
      (g.walk { limits with stackSize := 0 } tokens).matchAt index := by
  unfold Walk.matchAt
  rw [rules_of_enough hshallow hnarrow hcap]
  rfl

theorem run_of_enough (c : Context) :
    g.run limits c = g.run { limits with stackSize := 0 } c := by
  apply run_eq_of_nextStep_eq
  funext tokens index
  unfold nextStep
  rw [matchAt_of_enough hshallow hnarrow hcap]

theorem parse_of_enough (input : String) :
    g.parseWithTrace limits input = g.parseWithTrace { limits with stackSize := 0 } input := by
  unfold parseWithTrace
  simp only [run_of_enough hshallow hnarrow hcap]

end Enough

/-- **A cap that is enough.** Take an automaton without a cycle that the root leads to, with at most
`depth` nodes on a path from a child of the root and at most `breadth` entries in a list. No more
than `depth * (breadth - 1) + 1` entries ever wait, whatever the tokens are; so under a cap that is
not below this number walks, runs and parses are what they are without one and never go over it. -/
theorem cap_enough (g : Grammar) {depth breadth : Nat} (hshallow : g.Shallow depth)
    (hnarrow : g.Narrow breadth) :
    let most := depth * (breadth - 1) + 1
    (∀ tokens cap steps mode index,
      let w : Walk := ⟨g, tokens, cap, steps⟩
      (∀ size ∈ w.heights mode index, size ≤ most) ∧
      ∀ pending n s, w.push root index [] = .ok pending →
        w.after mode n ⟨pending, []⟩ = .further s → s.pending.length ≤ most) ∧
    ∀ limits : Limits, most ≤ limits.stackSize →
      let free : Limits := { limits with stackSize := 0 }
      (∀ tokens mode index,
        (g.walk limits tokens).rules mode index = (g.walk free tokens).rules mode index ∧
        ¬ Overruns ((g.walk limits tokens).rules mode index) ∧
        ¬ Overruns ((g.walk limits tokens).matchAt index) ∧
        ¬ Overruns ((g.walk limits tokens).matchAll index)) ∧
      (∀ c, g.run limits c = g.run free c) ∧
      ∀ input, g.parseWithTrace limits input = g.parseWithTrace free input ∧
        ¬ Overruns (g.parseWithTrace limits input) := by
  intro most
  refine ⟨?_, ?_⟩
  · intro tokens cap steps mode index w
    refine ⟨Walk.heights_le (w := w) hnarrow hshallow mode index, ?_⟩
    intro pending n s hpush hafter
    exact Walk.length_pending_le (w := w) hnarrow hshallow hpush hafter
  · intro limits hcap free
    have hrules (tokens : Array String) (mode : Mode) (index : Nat) :
        ¬ Overruns ((g.walk limits tokens).rules mode index) := by
      rw [rules_of_enough hshallow hnarrow hcap]
      exact not_overruns_rules rfl tokens mode index
    refine ⟨?_, run_of_enough hshallow hnarrow hcap, ?_⟩
    · intro tokens mode index
      refine ⟨rules_of_enough hshallow hnarrow hcap tokens mode index, hrules tokens mode index,
        ?_, hrules tokens .all index⟩
      rw [matchAt_of_enough hshallow hnarrow hcap]
      exact not_overruns_matchAt rfl tokens index
    · intro input
      refine ⟨parse_of_enough hshallow hnarrow hcap input, ?_⟩
      rw [parse_of_enough hshallow hnarrow hcap]
      exact not_overruns_parse rfl input

/-- Two lists of two nodes below `a`, the second one below the first node of the other; the last
node is not there. The pattern finds `a`. -/
def crowdGrammar : Grammar :=
  { ofAutomaton
      [(0, .inner [("a", [1, 2])] []), (1, .inner [] [3, 4]), (2, .leaf 0), (3, .leaf 0)] []
      [["a"]] with
    pattern := ⟨"a", 0, #[.take (.single 'a'), .accept]⟩ }

theorem shallow_crowdGrammar : crowdGrammar.Shallow 2 :=
  .of_height (fun id => if id = 0 then 2 else if id = 1 then 1 else 0) (by decide) (by decide)

/-- Three entries wait when both lists are open, and that is the bound. A cap of three is enough; a
cap of two stops the walk and the parse. -/
theorem cap_enough_crowdGrammar :
    let limits (cap : Nat) : Limits := ⟨0, cap, false, 9⟩
    let tokens : Array String := #[" ", "a", " "]
    crowdGrammar.Shallow 2 ∧ crowdGrammar.Narrow 2 ∧ 2 * (2 - 1) + 1 ≤ (limits 3).stackSize ∧
      (∀ size ∈ Walk.heights ⟨crowdGrammar, tokens, 0, 9⟩ .all 1, size ≤ 3) ∧
      Walk.heights ⟨crowdGrammar, tokens, 0, 9⟩ .all 1 = [2, 3] ∧
      ¬ Overruns ((crowdGrammar.walk (limits 3) tokens).matchAll 1) ∧
      ¬ Overruns (crowdGrammar.parseWithTrace (limits 3) "a") ∧
      Overruns ((crowdGrammar.walk (limits 2) tokens).matchAll 1) ∧
      Overruns (crowdGrammar.parseWithTrace (limits 2) "a") := by
  intro limits tokens
  have hnarrow : crowdGrammar.Narrow 2 := .of_entries (by decide)
  obtain ⟨hwalk, henough⟩ := cap_enough crowdGrammar shallow_crowdGrammar hnarrow
  obtain ⟨hwalks, -, hparse⟩ := henough (limits 3) (by decide)
  have hmatch : Walk.matchAll ⟨crowdGrammar, #[" ", "a", " "], 2, 9⟩ 1 =
      some (.error (.stackLimit 3 2)) := rfl
  have hstopped : crowdGrammar.parseWithTrace ⟨0, 2, false, 9⟩ "a" =
      some (.error (.stackLimit 3 2)) := by
    cbv
  refine ⟨shallow_crowdGrammar, hnarrow, by decide, (hwalk tokens 0 9 .all 1).1, by decide, ?_, ?_,
    ⟨3, 2, hmatch⟩, ⟨3, 2, hstopped⟩⟩
  · exact (hwalks tokens .all 1).2.2.2
  · exact (hparse "a").2

end Grammar

end Translit
