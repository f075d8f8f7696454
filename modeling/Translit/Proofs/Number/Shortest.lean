import Mathlib
import Translit.Number.Shortest
import Translit.Proofs.Number.Binary64

/-!
# The decimal that a double is written with

Whatever the search ends with, a neighbour on one of the grids or the full decimal form, the double
is the one nearest to it: each neighbour is read back before it is taken, and the full form is the
double's own value.

* `value_append` : rows of digits, one behind the other;
* `value_stripZeros` : zeros taken off the end are made up for by a power of ten;
* `nearestDecimal_exact` : the full decimal form; `nearestDecimal_shortest` : the digits that are
  written.
-/

namespace Translit.Number

/-! ## Rows of digits -/

theorem value_append (as bs : List Digit) :
    value (as ++ bs) = value as * 10 ^ bs.length + value bs := by
  induction bs using List.reverseRecOn with
  | nil => simp
  | append_singleton bs b ih =>
    rw [← List.append_assoc, value_concat, value_concat, ih, List.length_append,
      List.length_singleton]
    ring

theorem value_cons (d : Digit) (ds : List Digit) :
    value (d :: ds) = d.val * 10 ^ ds.length + value ds := by
  have hsingle : value [d] = d.val := by simp [value]
  rw [← List.singleton_append, value_append, hsingle]

theorem value_replicate_zero (n : Nat) : value (List.replicate n .zero) = 0 := by
  induction n with
  | zero => rfl
  | succ n ih =>
    rw [List.replicate_succ', value_concat, ih]
    rfl

namespace Binary64

/-! ## Decimals -/

/-- Zeros that are taken off the end of a number are made up for by a power of ten. -/
theorem value_stripZeros (n : Nat) : value (stripZeros n).1 * 10 ^ (stripZeros n).2 = n := by
  have hzeros : ((digits n).reverse.takeWhile (· = .zero)).reverse =
      List.replicate (stripZeros n).2 .zero := by
    rw [List.eq_replicate_iff]
    refine ⟨List.length_reverse, ?_⟩
    intro d hd
    simpa using List.mem_takeWhile_imp (List.mem_reverse.1 hd)
  have hdigits : digits n = (stripZeros n).1 ++ List.replicate (stripZeros n).2 .zero := by
    rw [← hzeros, stripZeros, ← List.reverse_append, List.takeWhile_append_dropWhile,
      List.reverse_reverse]
  have hvalue := value_digits n
  rwa [hdigits, value_append, value_replicate_zero, List.length_replicate, Nat.add_zero] at hvalue

/-- The full decimal form of a double has it for its nearest. -/
theorem nearestDecimal_exact (rank : Nat) :
    nearestDecimal (exact rank).1 (exact rank).2 = rank := by
  -- the power is kept a variable: its value has more than a thousand bits
  obtain ⟨t, hone, hexact⟩ :
      ∃ t : Nat, one = Nat.pow 2 t ∧ exact rank = (units rank * Nat.pow 5 t, -(t : Int)) := by
    have hneg : (-1074 : Int) = -((1074 : Nat) : Int) := rfl
    unfold one exact
    rw [hneg]
    generalize 1074 = t
    exact ⟨t, rfl, rfl⟩
  have hunits : nearestDecimal (units rank * Nat.pow 5 t) (-(t : Int)) =
      nearestRank (units rank) 1 := by
    have hpos : (-(t : Int)).toNat = 0 := Int.toNat_neg_natCast t
    rw [nearestDecimal, hpos, Int.neg_neg, Int.toNat_natCast, hone]
    apply nearestRank_congr (by positivity) Nat.one_pos
    rw [Nat.pow_zero, Nat.mul_one, Nat.mul_one, Nat.mul_assoc, Nat.pow_eq, Nat.pow_eq,
      ← Nat.mul_pow]
  rw [hexact, hunits, nearestRank_units]

theorem decimalRank?_of_neighbour? {rank n : Nat} {k e : Int} {fraction : Nat × Nat}
    (h : neighbour? rank e fraction = some (n, k)) : decimalRank? n k = some rank := by
  unfold neighbour? at h
  dsimp only at h
  generalize roundDiv fraction.1 fraction.2 = nearer at h
  generalize (if nearer = fraction.1 / fraction.2 then fraction.1 / fraction.2 + 1
    else fraction.1 / fraction.2) = other at h
  split at h
  · next heq => cases h; exact heq
  · split at h
    · next heq => cases h; exact heq
    · cases h

theorem nearestDecimal_shortestDecimal {rank : Nat} (h : rank ≠ 0) :
    nearestDecimal (shortestDecimal rank).1 (shortestDecimal rank).2 = rank := by
  unfold shortestDecimal
  cases hfound : (List.range 17).findSome? fun i => withDigits? rank (i + 1) with
  | none => exact nearestDecimal_exact rank
  | some decimal =>
    obtain ⟨n, k⟩ := decimal
    obtain ⟨i, -, hi⟩ := List.exists_of_findSome?_eq_some hfound
    unfold withDigits? at hi
    exact nearestDecimal_of_decimalRank? (decimalRank?_of_neighbour? hi) h

/-- The digits that are written for a double have it for their nearest. -/
theorem nearestDecimal_shortest {rank : Nat} (h : rank ≠ 0) :
    nearestDecimal (value (shortest rank).1) (shortest rank).2 = rank := by
  have hdecimal := nearestDecimal_shortestDecimal h
  unfold shortest
  dsimp only
  generalize shortestDecimal rank = decimal at hdecimal ⊢
  obtain ⟨n, k⟩ := decimal
  refine Eq.trans (nearestDecimal_congr ?_) hdecimal
  have hstrip : (value (stripZeros n).1 : ℚ) * 10 ^ (stripZeros n).2 = n := by
    exact_mod_cast value_stripZeros n
  show (value (stripZeros n).1 : ℚ) * 10 ^ (k + ((stripZeros n).2 : ℤ)) = n * 10 ^ k
  rw [zpow_add₀ (by norm_num), zpow_natCast, mul_left_comm, hstrip, mul_comm]

end Binary64

end Translit.Number
