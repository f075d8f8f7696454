import Translit.Number.Binary64

/-!
# The shortest decimal of a double

Of all decimals that have a given double for their nearest, the one with the fewest digits is
written; of several with that many digits, the one nearest to the double. The search looks, for one
digit, two digits and so on, at the two neighbours of the double on the grid of decimals of that
length.

* `shortest` : the digits and the decimal exponent that are found;
* `exact` : the full decimal form, which every double has.
-/

namespace Translit.Number.Binary64

/-- The exponent of the leading decimal digit of a value in units. -/
def leadingExponent (units : Nat) : Int :=
  ((digits (units * Nat.pow 10 324 / one)).length : Int) - 325

/-- A value in units as a fraction with `10 ^ k` for its unit. -/
def scaled (units : Nat) : Int → Nat × Nat
  | .ofNat k => (units, one * Nat.pow 10 k)
  | .negSucc k => (units * Nat.pow 10 (k + 1), one)

/-- Of the two whole numbers around a fraction in units of `10 ^ k`, the nearer first, one that has
the rank for its nearest double. -/
def neighbour? (rank : Nat) (k : Int) (fraction : Nat × Nat) : Option (Nat × Int) :=
  let below := fraction.1 / fraction.2
  let nearer := roundDiv fraction.1 fraction.2
  let other := if nearer = below then below + 1 else below
  if decimalRank? nearer k = some rank then some (nearer, k)
  else if decimalRank? other k = some rank then some (other, k)
  else none

/-- The decimal of `count` digits whose nearest double is that of the rank, the nearer of two. -/
def withDigits? (rank count : Nat) : Option (Nat × Int) :=
  let k := leadingExponent (units rank) + 1 - (count : Int)
  neighbour? rank k (scaled (units rank) k)

/-- The full decimal form of a rank. -/
def exact (rank : Nat) : Nat × Int := (units rank * Nat.pow 5 1074, -1074)

/-- A shortest decimal whose nearest double is that of the rank, as a number and a power of ten. -/
def shortestDecimal (rank : Nat) : Nat × Int :=
  ((List.range 17).findSome? fun i => withDigits? rank (i + 1)).getD (exact rank)

/-- The digits of a number and how many zeros its end was relieved of. -/
def stripZeros (n : Nat) : List Digit × Nat :=
  let ds := (digits n).reverse
  ((ds.dropWhile (· = .zero)).reverse, (ds.takeWhile (· = .zero)).length)

/-- The fewest digits whose nearest double is that of the rank, and the power of ten of the last
one. -/
def shortest (rank : Nat) : List Digit × Int :=
  let decimal := shortestDecimal rank
  let stripped := stripZeros decimal.1
  (stripped.1, decimal.2 + stripped.2)

end Translit.Number.Binary64
