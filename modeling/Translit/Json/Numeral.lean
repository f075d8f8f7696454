import Translit.Number.Shortest

/-!
# Numbers of a JSON text

A numeral keeps what its spelling says: sign, whole part, digits after the point, exponent. It
stands for an identifier only if it is written as a plain natural number. As a double it is read in
one pass with a significand of 64 bits: digits are taken in as long as they fit, the others only
count, and the significand is then scaled. So the double may differ from the nearest one in its
last place; a numeral without a finite double is refused.

* `toNat?`, `ofNat` : plain natural numbers;
* `toBinary64?`, `ofBinary64` : doubles, written with the fewest digits that tell them apart;
* `take?` : the numeral at the head of a text.
-/

namespace Translit.Json

open Number (Digit Binary64)

/-- A number as it is spelled. -/
structure Numeral where
  negative : Bool
  whole : Nat
  fraction : List Digit
  exponent : Option Int
deriving DecidableEq

namespace Numeral

/-- A natural number as a numeral. -/
def ofNat (n : Nat) : Numeral := ⟨false, n, [], none⟩

/-- The natural number that a plain numeral denotes; a sign, a point or an exponent spoils it. -/
def toNat? (n : Numeral) : Option Nat :=
  if n.negative = false ∧ n.fraction = [] ∧ n.exponent = none then some n.whole else none

/-- Takes digits into a significand as long as it fits into 64 bits, and tells which are left. -/
def absorb (n : Nat) : List Digit → Nat × List Digit
  | [] => (n, [])
  | d :: ds => if 10 * n + d.val < UInt64.size then absorb (10 * n + d.val) ds else (n, d :: ds)

/-- The significand of a numeral and the power of ten it is scaled by. Digits of the whole part
that do not fit raise the power; those after the point are dropped. -/
def significand (n : Numeral) : Nat × Int :=
  let (whole, uncounted) := absorb 0 (Number.digits n.whole)
  let (all, dropped) := absorb whole n.fraction
  (all, uncounted.length - (n.fraction.length - dropped.length) + n.exponent.getD 0)

/-- The double that a numeral is read as, if it is finite. -/
def toBinary64? (n : Numeral) : Option Binary64 :=
  Binary64.ofScaled? n.negative n.significand.1 n.significand.2

/-- The layout of a row of digits times a power of ten: positional from `1e-5` on and below
`1e16`, always with a digit after the point, and with an exponent outside. -/
def ofDigits (negative : Bool) (ds : List Digit) (k : Int) : Numeral :=
  let point : Int := ds.length + k
  if 0 ≤ k ∧ point ≤ 16 then ⟨negative, Number.value ds * Nat.pow 10 k.toNat, [.zero], none⟩
  else if 0 < point ∧ point ≤ 16 then
    ⟨negative, Number.value (ds.take point.toNat), ds.drop point.toNat, none⟩
  else if -5 < point ∧ point ≤ 0 then ⟨negative, 0, List.replicate (-point).toNat .zero ++ ds, none⟩
  else ⟨negative, Number.value (ds.take 1), ds.drop 1, some (point - 1)⟩

/-- A double as a numeral, with the fewest digits whose nearest double it is. -/
def ofBinary64 (x : Binary64) : Numeral :=
  if x.rank = 0 then ⟨x.negative, 0, [.zero], none⟩
  else ofDigits x.negative (Binary64.shortest x.rank).1 (Binary64.shortest x.rank).2

/-- The spelling of an exponent, always with its sign. -/
def exponentText (e : Int) : List Char :=
  (if e < 0 then ['e', '-'] else ['e', '+']) ++ Number.text e.natAbs

/-- The spelling of a numeral. -/
def render (n : Numeral) : List Char :=
  (if n.negative then ['-'] else []) ++ Number.text n.whole
    ++ (if n.fraction = [] then [] else '.' :: Number.chars n.fraction)
    ++ (match n.exponent with | none => [] | some e => exponentText e)

/-- A minus sign at the head of a text. -/
def takeSign : List Char → Bool × List Char
  | '-' :: cs => (true, cs)
  | cs => (false, cs)

/-- A whole part: digits, the first of several not being zero. -/
def takeWhole? (cs : List Char) : Option (Nat × List Char) :=
  match Number.takeDigits cs with
  | ([], _) => none
  | ([d], rest) => some (d.val, rest)
  | (d :: ds, rest) => if d = .zero then none else some (Number.value (d :: ds), rest)

/-- A point with at least one digit after it, or nothing. -/
def takeFraction? : List Char → Option (List Digit × List Char)
  | '.' :: cs =>
    match Number.takeDigits cs with
    | ([], _) => none
    | (ds, rest) => some (ds, rest)
  | cs => some ([], cs)

/-- The sign of an exponent and its digits. -/
def takePower? (cs : List Char) : Option (Int × List Char) :=
  let (negative, digits) : Bool × List Char :=
    match cs with
    | '-' :: cs => (true, cs)
    | '+' :: cs => (false, cs)
    | cs => (false, cs)
  match Number.takeDigits digits with
  | ([], _) => none
  | (ds, rest) => some (if negative then -(Number.value ds : Int) else Number.value ds, rest)

/-- An exponent, or nothing. -/
def takeExponent? : List Char → Option (Option Int × List Char)
  | c :: cs =>
    if c = 'e' ∨ c = 'E' then (takePower? cs).map fun (e, rest) => (some e, rest)
    else some (none, c :: cs)
  | [] => some (none, [])

/-- The numeral at the head of a text, and what follows it. -/
def take? (cs : List Char) : Option (Numeral × List Char) := do
  let (negative, cs) := takeSign cs
  let (whole, cs) ← takeWhole? cs
  let (fraction, cs) ← takeFraction? cs
  let (exponent, cs) ← takeExponent? cs
  return (⟨negative, whole, fraction, exponent⟩, cs)

end Numeral

end Translit.Json
