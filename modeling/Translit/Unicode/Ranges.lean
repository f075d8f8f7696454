/-!
# Sets of characters as ranges

A `Ranges` lists closed ranges of code points in ascending order, none touching the next;
`contains` reads it up to the first range that ends at or after the character.
-/

namespace Translit.Unicode

/-- Closed ranges of code points, ascending. -/
abbrev Ranges := List (Nat × Nat)

/-- The code point lies in one of the ranges. -/
def Ranges.containsCode : Ranges → Nat → Bool
  | [], _ => false
  | (lo, hi) :: rest, n => if n ≤ hi then decide (lo ≤ n) else containsCode rest n

/-- The character lies in one of the ranges. -/
def Ranges.contains (rs : Ranges) (c : Char) : Bool := rs.containsCode c.toNat

end Translit.Unicode
