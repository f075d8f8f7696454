import Translit.Unicode.Ranges

/-!
# Blank characters

The characters with the property `White_Space`: the ASCII blanks, the next-line control, the
no-break and ideographic spaces, the spaces of general punctuation and the two separators.
-/

namespace Translit.Unicode

/-- The ranges of blank characters. -/
def blankRanges : Ranges := [
  (0x0009, 0x000d), (0x0020, 0x0020), (0x0085, 0x0085), (0x00a0, 0x00a0), (0x1680, 0x1680),
  (0x2000, 0x200a), (0x2028, 0x2029), (0x202f, 0x202f), (0x205f, 0x205f), (0x3000, 0x3000)]

/-- A character that only separates. -/
def isBlank (c : Char) : Bool := blankRanges.contains c

end Translit.Unicode
