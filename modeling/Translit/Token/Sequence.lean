import Translit.Grammar.Basic
import Translit.Token.Unrecognized

/-!
# Tokens of an input

The matches of the tokenizer pattern give the tokens; a match counts if it is not empty and the
text of its first group that took part, or of the whole match without groups, is not empty either.
What lies between the matches that count is unrecognized. The default token stands at both ends,
and where the policy says so a run of blank tokens becomes one default token, at the ends none more.

* `Piece` : a token or a stretch between tokens; `texts_pieces` : together they are the input;
* `tokenRow` : the tokens with their ends, from the texts that were found;
* `Grammar.tokenize` : the token sequence of an input.
-/

namespace Translit

/-- A part of an input: a stretch without tokens, or a match and the token it gives. -/
inductive Piece where
  | gap (text : List Char)
  | token (whole text : List Char)
deriving DecidableEq

namespace Piece

/-- The part of the input that a piece covers. -/
def text : Piece → List Char
  | gap cs => cs
  | token whole _ => whole

/-- The text that a match gives: its first group that took part, or all of it. -/
def chosen (h : Pattern.Hit) : List Char := (h.groups.findSome? id).getD h.whole

/-- A stretch put before a row of pieces, joined with a stretch that is first there. -/
def prependGap : List Char → List Piece → List Piece
  | [], ps => ps
  | cs, gap ds :: ps => gap (cs ++ ds) :: ps
  | cs, ps => gap cs :: ps

/-- The pieces of a row of matches and of what is left behind the last. -/
def ofHits (rest : List Char) : List Pattern.Hit → List Piece
  | [] => prependGap rest []
  | h :: hs =>
    if h.whole ≠ [] ∧ chosen h ≠ [] then
      prependGap h.skipped (token h.whole (chosen h) :: ofHits rest hs)
    else prependGap (h.skipped ++ h.whole) (ofHits rest hs)

/-- The pieces of an input. -/
def all (p : Pattern) (input : List Char) : List Piece := ofHits (p.hits input).2 (p.hits input).1

theorem text_prependGap (cs : List Char) (ps : List Piece) :
    (prependGap cs ps).flatMap text = cs ++ ps.flatMap text := by
  unfold prependGap
  split <;> simp [text]

theorem text_ofHits (rest : List Char) (hs : List Pattern.Hit) :
    (ofHits rest hs).flatMap text = Pattern.joined hs rest := by
  induction hs with
  | nil => simp [ofHits, text_prependGap, Pattern.joined]
  | cons h hs ih =>
    simp only [Pattern.joined, List.flatMap_cons, List.append_assoc] at ih ⊢
    unfold ofHits
    split <;> simp [text_prependGap, text, ih]

/-- The pieces of an input cover it in order. -/
theorem texts_pieces (p : Pattern) (input : List Char) :
    (all p input).flatMap text = input := by
  rw [all, text_ofHits, Pattern.joined_hits]

/-- The texts of the tokens among pieces. -/
def tokenTexts (ps : List Piece) : List String :=
  ps.filterMap fun
    | token _ cs => some (String.ofList cs)
    | gap _ => none

/-- The stretches without tokens among the pieces of `input` that start at `offset`. -/
def unrecognized (input : List Char) : Nat → List Piece → List Unrecognized
  | _, [] => []
  | offset, gap cs :: ps =>
    .ofStretch input offset cs :: unrecognized input (offset + Text.bytes cs) ps
  | offset, token whole _ :: ps => unrecognized input (offset + Text.bytes whole) ps

end Piece

/-- What follows the first default token when runs of blank tokens become one: `afterBlank` tells
that the token before was blank, and the last token is a default token whether or not the input
ended blank. -/
def consolidated (w : Whitespace) (isBlank : String → Bool) :
    (afterBlank : Bool) → List String → List String
  | true, [] => []
  | false, [] => [w.defaultToken]
  | afterBlank, t :: ts =>
    if isBlank t then
      if afterBlank then consolidated w isBlank true ts
      else w.defaultToken :: consolidated w isBlank true ts
    else t :: consolidated w isBlank false ts

/-- The tokens of an input from the texts found in it. -/
def tokenRow (w : Whitespace) (isBlank : String → Bool) (texts : List String) : List String :=
  if w.consolidate then
    match consolidated w isBlank true texts with
    | [] => [w.defaultToken, w.defaultToken]
    | ts => w.defaultToken :: ts
  else w.defaultToken :: (texts ++ [w.defaultToken])

/-- The tokens of one input and its stretches without tokens. -/
structure TokenSequence where
  tokens : Array String
  unrecognized : List Unrecognized
deriving DecidableEq

/-- The whole input was recognized. -/
def TokenSequence.isClean (s : TokenSequence) : Bool := s.unrecognized.isEmpty

/-- The token sequence of an input. -/
def Grammar.tokenize (g : Grammar) (input : String) : TokenSequence :=
  let cs := input.toList
  let pieces := Piece.all g.pattern cs
  { tokens := (tokenRow g.whitespace g.isBlank (Piece.tokenTexts pieces)).toArray
    unrecognized := Piece.unrecognized cs 0 pieces }

end Translit
