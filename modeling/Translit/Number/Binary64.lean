import Translit.Number.Digits

/-!
# Finite double-precision numbers

The non-negative finite doubles stand in a row without gaps, so a finite double is its sign and
its rank in that row; the rank is also the low 63 bits of its binary form. Every double is a
whole number of units of `2 ^ -1074`, which keeps all arithmetic here in `Nat`.

* `binade` : how many ranks share an exponent; `one` : how many units make one;
* `units` : the value of a rank, in units;
* `nearestRank` : the double nearest to a fraction, a tie going to the even rank;
* `mulRank`, `divRank` : product and quotient, rounded to the nearest double;
* `decimalRank?` : the double nearest to a decimal;
* `ofScaled?` : a decimal read in two roundings, of its significand and of the scaled result.
-/

namespace Translit.Number

/-- The number of doubles that share an exponent, `2 ^ 52`. -/
def binade : Nat := 4503599627370496

/-- A finite double: its sign and its rank among the non-negative ones. -/
structure Binary64 where
  negative : Bool
  rank : Nat
  rank_lt : rank < 2047 * binade
deriving DecidableEq

namespace Binary64

/-- Zero. -/
def zero : Binary64 := ⟨false, 0, by decide⟩

instance : Inhabited Binary64 := ⟨zero⟩

/-- The 64 bits of a double as a number. -/
def bits (x : Binary64) : Nat := (if x.negative then 2048 * binade else 0) + x.rank

/-- The number of units in one, `2 ^ 1074`. -/
def one : Nat := Nat.pow 2 1074

/-- The significand of a rank, with its leading bit where the rank is not subnormal. -/
def significand (rank : Nat) : Nat :=
  if rank < binade then rank else binade + rank % binade

/-- The value of a rank in units of `2 ^ -1074`. -/
def units (rank : Nat) : Nat := significand rank * Nat.pow 2 (rank / binade - 1)

/-- The quotient rounded to the nearest number, a tie going to the even one. -/
def roundDiv (num den : Nat) : Nat :=
  let q := num / den
  let r := num % den
  if 2 * r < den then q else if den < 2 * r then q + 1 else q + q % 2

/-- The rank whose value is nearest to `num / den` units. -/
def nearestRank (num den : Nat) : Nat :=
  let shift := (num / den).log2 - 52
  shift * binade + roundDiv num (den * Nat.pow 2 shift)

/-- The rank nearest to `n * 10 ^ e`; none far above all ranks, and zero far below the least. -/
def decimalRank? (n : Nat) : Int → Option Nat
  | .ofNat k =>
    if n = 0 then some 0
    else if 308 < k then none
    else some (nearestRank (n * Nat.pow 10 k * one) 1)
  | .negSucc k =>
    if n.log2 + 1080 < 3 * (k + 1) then some 0
    else some (nearestRank (n * one) (Nat.pow 10 (k + 1)))

/-- The product of two doubles. -/
def mulRank (a b : Nat) : Nat := nearestRank (units a * units b) one

/-- The quotient of two doubles. -/
def divRank (a b : Nat) : Nat := nearestRank (units a * one) (units b)

/-- The double nearest to `10 ^ k`. -/
def powerRank (k : Nat) : Nat := nearestRank (Nat.pow 10 k * one) 1

/-- The double nearest to `n`, scaled by `10 ^ e` : multiplied by the double nearest to the power,
or divided by the one nearest to its inverse, in two steps if that is out of range. -/
def scaledRank? (n : Nat) (e : Int) : Option Nat :=
  let rank := nearestRank (n * one) 1
  match e with
  | .ofNat k =>
    if k ≤ 308 then some (mulRank rank (powerRank k)) else if n = 0 then some 0 else none
  | .negSucc k =>
    if k < 308 then some (divRank rank (powerRank (k + 1)))
    else if k < 616 then some (divRank (divRank rank (powerRank 308)) (powerRank (k - 307)))
    else some 0

/-- The number `n * 10 ^ e` with the given sign as `scaledRank?` rounds it, if that is finite. -/
def ofScaled? (negative : Bool) (n : Nat) (e : Int) : Option Binary64 :=
  (scaledRank? n e).bind fun rank =>
    if h : rank < 2047 * binade then some ⟨negative, rank, h⟩ else none

end Binary64

end Translit.Number
