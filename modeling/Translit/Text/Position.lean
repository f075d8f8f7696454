import Translit.Text.Bytes

/-!
# Positions in a text

A position names a byte offset together with the line and the column a reader finds it at. Lines
and columns count from one, a line ends at `\n`, and a column is one character wide.
-/

namespace Translit.Text

/-- A byte offset with the line and the column it stands at. -/
structure Position where
  offset : Nat
  line : Nat
  column : Nat
deriving DecidableEq, Repr

namespace Position

/-- The position before the first character. -/
def start : Position := ⟨0, 1, 1⟩

/-- The position after a character that stands at `p`. -/
def next (p : Position) (c : Char) : Position :=
  if c = '\n' then ⟨p.offset + c.utf8Size, p.line + 1, 1⟩
  else ⟨p.offset + c.utf8Size, p.line, p.column + 1⟩

/-- The position reached from `p` by passing every character that starts before `limit`. -/
def passing (limit : Nat) (p : Position) : List Char → Position
  | [] => p
  | c :: cs => if limit ≤ p.offset then p else passing limit (p.next c) cs

/-- The position of a byte offset; an offset past the end counts as the end. Inside a character
the line and the column are those after it, and the offset stays. -/
def ofOffset (text : List Char) (offset : Nat) : Position :=
  { passing offset start text with offset := min offset (Text.bytes text) }

/-- How a position reads in a message. -/
def describe (p : Position) : String := s!"line {p.line}, column {p.column}"

end Position

end Translit.Text
