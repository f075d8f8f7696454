import Mathlib
import Translit.Json.Numeral
import Translit.Proofs.Number.Shortest

/-!
# Short numerals

However the digits of a double are laid out, the numeral has the value that they have, so the
double is the one nearest to the numeral it is written as. A short numeral, whose digits make a
number of at most 53 bits and whose last digit is worth a power of ten up to the twenty-second, is
read without loss. So a double that is written as a short numeral reads back as it was.

* `spelled` : the digits of a numeral and the power of ten of the last one;
  `spelled_ofDigits` : their value does not hang on the layout;
* `significand_eq` : digits that fit into 64 bits are all taken in;
* `nearestDecimal_ofBinary64` : the double nearest to the numeral that is written;
* `IsShort` : a numeral of few digits and a small power of ten;
  `toBinary64?_ofBinary64` : a double that is written so reads back.
-/

namespace Translit.Json.Numeral

open Number (Digit Binary64 digits value value_digits value_nil value_cons value_append
  value_replicate_zero binade)
open Number.Binary64 (nearestDecimal nearestDecimal_congr nearestDecimal_shortest scaledRank?_eq)

/-! ## Digits of a numeral -/

/-- The digits of a numeral as one number, and the power of ten of the last one. -/
def spelled (n : Numeral) : Nat × Int :=
  (value (digits n.whole ++ n.fraction), n.exponent.getD 0 - n.fraction.length)

theorem absorb_eq {n : Nat} {ds : List Digit} (h : n * 10 ^ ds.length + value ds < UInt64.size) :
    absorb n ds = (n * 10 ^ ds.length + value ds, []) := by
  induction ds generalizing n with
  | nil => simp [absorb]
  | cons d ds ih =>
    have hvalue : n * 10 ^ (d :: ds).length + value (d :: ds) =
        (10 * n + d.val) * 10 ^ ds.length + value ds := by
      rw [value_cons, List.length_cons, Nat.pow_succ]
      ring
    rw [hvalue] at h ⊢
    have hlt : 10 * n + d.val < UInt64.size := by
      have hle : 10 * n + d.val ≤ (10 * n + d.val) * 10 ^ ds.length :=
        Nat.le_mul_of_pos_right _ (Nat.pow_pos (by decide))
      omega
    rw [absorb, if_pos hlt, ih h]

/-- A numeral whose digits fit into 64 bits is read with all of them. -/
theorem significand_eq {n : Numeral} (h : n.spelled.1 < UInt64.size) :
    n.significand = n.spelled := by
  have hspelled : n.spelled.1 = n.whole * 10 ^ n.fraction.length + value n.fraction := by
    rw [spelled, value_append, value_digits]
  have hwhole : absorb 0 (digits n.whole) = (n.whole, []) := by
    have hle : n.whole ≤ n.whole * 10 ^ n.fraction.length :=
      Nat.le_mul_of_pos_right _ (Nat.pow_pos (by decide))
    rw [absorb_eq (by rw [Nat.zero_mul, value_digits]; omega), Nat.zero_mul, Nat.zero_add,
      value_digits]
  have hfraction : absorb n.whole n.fraction = (n.spelled.1, []) := by
    rw [hspelled] at h ⊢
    exact absorb_eq h
  unfold significand
  rw [hwhole]
  dsimp only
  rw [hfraction, spelled]
  simp only [List.length_nil]
  congr 1
  omega

theorem spelled_mk (negative : Bool) (as bs : List Digit) (e : Option Int) :
    spelled ⟨negative, value as, bs, e⟩ = (value (as ++ bs), e.getD 0 - bs.length) := by
  simp only [spelled, value_append, value_digits]

/-- However a row of digits is laid out, the numeral has its value. -/
theorem spelled_ofDigits (negative : Bool) (ds : List Digit) (k : Int) :
    ((ofDigits negative ds k).spelled.1 : ℚ) * 10 ^ (ofDigits negative ds k).spelled.2 =
      value ds * 10 ^ k := by
  unfold ofDigits
  dsimp only
  split
  · -- zeros up to the point
    next h =>
    obtain ⟨m, rfl⟩ := Int.eq_ofNat_of_zero_le h.1
    have hdigits (n : Nat) : value (digits n ++ [.zero]) = n * 10 := by
      rw [value_append, value_digits]
      rfl
    have hpoint : (0 - ([Digit.zero].length : Int)) = -1 := rfl
    simp only [spelled, hdigits, hpoint, Int.toNat_natCast, Nat.pow_eq, Option.getD_none]
    push_cast
    rw [zpow_neg_one, zpow_natCast, mul_inv_cancel_right₀ (by norm_num)]
  · split
    · -- a point among the digits
      rw [spelled_mk, List.take_append_drop]
      congr 2
      rw [Option.getD_none, List.length_drop]
      omega
    · split
      · -- zeros between the point and the digits
        rw [← value_nil, spelled_mk, List.nil_append, value_append, value_replicate_zero,
          Nat.zero_mul, Nat.zero_add]
        congr 2
        rw [Option.getD_none, List.length_append, List.length_replicate]
        omega
      · -- one digit before the point, and an exponent
        rw [spelled_mk, List.take_append_drop]
        cases ds with
        | nil => rw [value_nil, Nat.cast_zero, zero_mul, zero_mul]
        | cons d ds =>
          congr 2
          rw [Option.getD_some, List.length_drop, List.length_cons]
          omega

/-! ## Reading back -/

/-- The numeral that is written for a double has it for its nearest. -/
theorem nearestDecimal_ofBinary64 (x : Binary64) :
    nearestDecimal (ofBinary64 x).spelled.1 (ofBinary64 x).spelled.2 = x.rank := by
  unfold ofBinary64
  split
  · next h =>
    have hspelled : spelled ⟨x.negative, 0, [.zero], none⟩ = (0, -1) :=
      spelled_mk x.negative [] [.zero] none
    rw [h, hspelled]
    decide +kernel
  · next h =>
    rw [nearestDecimal_congr (spelled_ofDigits x.negative _ _), nearestDecimal_shortest h]

/-- A numeral of few digits and a small power of ten. -/
def IsShort (n : Numeral) : Prop := n.spelled.1 < 2 * binade ∧ n.spelled.2.natAbs ≤ 22

instance (n : Numeral) : Decidable n.IsShort := inferInstanceAs (Decidable (_ ∧ _))

/-- A double that is written as a short numeral reads back as it was. -/
theorem toBinary64?_ofBinary64 {x : Binary64} (h : (ofBinary64 x).IsShort) :
    (ofBinary64 x).toBinary64? = some x := by
  have hnegative : (ofBinary64 x).negative = x.negative := by
    unfold ofBinary64 ofDigits
    dsimp only
    repeat' split
    all_goals rfl
  have hfits : (ofBinary64 x).spelled.1 < UInt64.size := Nat.lt_trans h.1 (by decide)
  rw [toBinary64?, significand_eq hfits, Binary64.ofScaled?, scaledRank?_eq h.1 h.2,
    nearestDecimal_ofBinary64, Option.bind_some, dif_pos x.rank_lt, hnegative]

end Translit.Json.Numeral
