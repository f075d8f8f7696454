import Translit.Text.Position
import Translit.Text.Quoted

/-!
# Unrecognized text

A stretch of the input that no token was found in, with where it starts, how many bytes it has and
how it begins.

* `Unrecognized.ofStretch` : a stretch of a text as it is told of;
* `Unrecognized.of?` : the same from two offsets, which must lie between characters;
* `Unrecognized.showIn?` : the message, the line of the text and a caret below its start.
-/

namespace Translit

/-- A stretch of input without tokens: where it starts, its length in bytes and how it begins. -/
structure Unrecognized where
  position : Text.Position
  length : Nat
  snippet : String
deriving DecidableEq

namespace Unrecognized

/-- The most characters that a snippet has. -/
def snippetLength : Nat := 32

/-- The stretch of `text` that starts at `offset`. -/
def ofStretch (text : List Char) (offset : Nat) (stretch : List Char) : Unrecognized where
  position := .ofOffset text offset
  length := Text.bytes stretch
  snippet := String.ofList (stretch.take snippetLength)

/-- The stretch of a text between two offsets, moved inside the text; none if one of them lies
inside a character. -/
def of? (text : List Char) (start stop : Nat) : Option Unrecognized :=
  let stop := min stop (Text.bytes text)
  let start := min start stop
  (Text.slice? text start stop).map (ofStretch text start)

/-- How a stretch reads in a message. -/
def message (u : Unrecognized) : String :=
  "Unrecognized input " ++ Text.quoted u.snippet ++ " at " ++ u.position.describe
    ++ s!" (byte offset {u.position.offset})"

/-- The part of a line before a place, given all that is before the place. -/
def lineBefore (cs : List Char) : List Char := (cs.reverse.takeWhile (· ≠ '\n')).reverse

/-- The part of a line from a place on, given all that follows the place. -/
def lineAfter (cs : List Char) : List Char := cs.takeWhile (· ≠ '\n')

/-- The message, the line of `text` where the stretch starts and a caret below its column; none if
that offset lies inside a character of `text`. -/
def showIn? (u : Unrecognized) (text : List Char) : Option String :=
  (Text.splitAt? text (min u.position.offset (Text.bytes text))).map fun (before, after) =>
    u.message ++ "\n" ++ String.ofList (lineBefore before ++ lineAfter after) ++ "\n"
      ++ String.ofList (List.replicate (u.position.column - 1) ' ') ++ "^\n"

end Unrecognized

end Translit
