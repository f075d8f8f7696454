import Mathlib
import Translit.Number.Binary64

/-!
# Doubles that are hit exactly

Rounding a fraction to the nearest double hangs on the value of the fraction alone, and a value that
is a double is not changed. So a decimal of few digits and a small power of ten, which is read in
three roundings, is read as the double nearest to it: its significand and the power of ten are
doubles, and only the last rounding, of their product or quotient, rounds.

* `nearestRank_congr` : equal fractions have one nearest double;
* `units_nearestRank` : a number of at most 53 bits times a power of two is a double;
* `nearestRank_units` : the double nearest to a double is itself;
* `nearestDecimal` : the double nearest to a decimal; `nearestDecimal_congr` : it hangs on the
  value;
* `scaledRank?_eq` : a decimal of few digits and a small power of ten is read as the nearest double.
-/

namespace Translit.Number.Binary64

/-! ## Fractions -/

theorem roundDiv_mul_right (num den : Nat) {c : Nat} (hc : 0 < c) :
    roundDiv (num * c) (den * c) = roundDiv num den := by
  have hlow : 2 * (num % den * c) < den * c ↔ 2 * (num % den) < den := by
    rw [← Nat.mul_assoc, Nat.mul_lt_mul_right hc]
  have hhigh : den * c < 2 * (num % den * c) ↔ den < 2 * (num % den) := by
    rw [← Nat.mul_assoc, Nat.mul_lt_mul_right hc]
  unfold roundDiv
  rw [Nat.mul_div_mul_right num den hc, Nat.mul_mod_mul_right]
  simp only [hlow, hhigh]

theorem nearestRank_mul_right (num den : Nat) {c : Nat} (hc : 0 < c) :
    nearestRank (num * c) (den * c) = nearestRank num den := by
  unfold nearestRank
  dsimp only
  rw [Nat.mul_div_mul_right num den hc, Nat.mul_right_comm, roundDiv_mul_right _ _ hc]

/-- Equal fractions have one nearest double. -/
theorem nearestRank_congr {a b c d : Nat} (hb : 0 < b) (hd : 0 < d) (h : a * d = c * b) :
    nearestRank a b = nearestRank c d := by
  calc nearestRank a b
    _ = nearestRank (a * d) (b * d) := (nearestRank_mul_right a b hd).symm
    _ = nearestRank (c * b) (d * b) := by rw [h, Nat.mul_comm b d]
    _ = nearestRank c d := nearestRank_mul_right c d hb

/-! ## Doubles -/

theorem roundDiv_mul_self (m : Nat) {c : Nat} (hc : 0 < c) : roundDiv (m * c) c = m := by
  unfold roundDiv
  rw [Nat.mul_div_cancel m hc, Nat.mul_mod_left]
  exact if_pos hc

/-- Up to `2 ^ 53` units the numbers of units are the ranks. -/
theorem nearestRank_of_lt {v : Nat} (h : v < 2 * binade) : nearestRank v 1 = v := by
  have hlog : v.log2 - 52 = 0 := by
    rcases Nat.eq_zero_or_pos v with rfl | hv
    · decide
    · have := (Nat.log2_lt (Nat.ne_of_gt hv)).2 (show v < 2 ^ 53 from h)
      omega
  unfold nearestRank
  rw [Nat.div_one, hlog]
  show 0 * binade + roundDiv v 1 = v
  rw [Nat.zero_mul, Nat.zero_add]
  exact (congrArg (roundDiv · 1) (Nat.mul_one v).symm).trans (roundDiv_mul_self v Nat.one_pos)

theorem units_of_lt {v : Nat} (h : v < 2 * binade) : units v = v := by
  unfold units significand
  by_cases hv : v < binade
  · rw [if_pos hv, Nat.div_eq_of_lt hv]
    exact Nat.mul_one v
  · have hdiv : v / binade = 1 := Nat.div_eq_of_lt_le (by omega) (by omega)
    have hmod : binade + v % binade = v := by
      have := Nat.div_add_mod v binade
      rw [hdiv] at this
      omega
    rw [if_neg hv, hdiv, hmod]
    exact Nat.mul_one v

section Normal

variable {m : Nat} (hm : binade ≤ m) (hlt : m < 2 * binade) (k : Nat)

include hm hlt

/-- A significand with its leading bit, scaled by a power of two, has this rank. -/
theorem nearestRank_of_normal : nearestRank (m * 2 ^ k) 1 = k * binade + m := by
  have hlog : (m * 2 ^ k).log2 - 52 = k := by
    have hpos : m * 2 ^ k ≠ 0 :=
      Nat.mul_ne_zero (Nat.ne_of_gt (Nat.lt_of_lt_of_le (by decide) hm)) (Nat.two_pow_pos k).ne'
    have hlow : 2 ^ (52 + k) ≤ m * 2 ^ k := by
      rw [Nat.pow_add]
      exact Nat.mul_le_mul_right _ hm
    have hhigh : m * 2 ^ k < 2 ^ (53 + k) := by
      rw [Nat.pow_add]
      exact Nat.mul_lt_mul_of_pos_right hlt (Nat.two_pow_pos k)
    have h := (Nat.log2_eq_iff hpos).2 ⟨hlow, (show 52 + k + 1 = 53 + k by omega) ▸ hhigh⟩
    omega
  unfold nearestRank
  rw [Nat.div_one, hlog]
  show k * binade + roundDiv (m * 2 ^ k) (1 * 2 ^ k) = _
  rw [Nat.one_mul, roundDiv_mul_self m (Nat.two_pow_pos k)]

theorem units_of_normal : units (k * binade + m) = m * 2 ^ k := by
  have hdiv : (k * binade + m) / binade = k + 1 :=
    Nat.div_eq_of_lt_le (by rw [Nat.succ_mul]; omega) (by rw [Nat.succ_mul, Nat.succ_mul]; omega)
  have hmod : binade + (k * binade + m) % binade = m := by
    have h := Nat.div_add_mod (k * binade + m) binade
    rw [hdiv, Nat.mul_comm, Nat.succ_mul] at h
    omega
  unfold units significand
  rw [if_neg (by omega), hdiv, hmod]
  rfl

end Normal

/-- A number of at most 53 bits times a power of two is below `2 ^ 53` or has a leading bit. -/
theorem exists_normal {s : Nat} (hs : s < 2 * binade) (t : Nat) :
    s * 2 ^ t < 2 * binade ∨
      ∃ m k, binade ≤ m ∧ m < 2 * binade ∧ s * 2 ^ t = m * 2 ^ k := by
  induction t with
  | zero => exact .inl (by rwa [Nat.pow_zero, Nat.mul_one])
  | succ t ih =>
    rw [Nat.pow_succ, ← Nat.mul_assoc]
    rcases ih with hlt | ⟨m, k, hm, hlt, hv⟩
    · by_cases hv : s * 2 ^ t < binade
      · exact .inl (by omega)
      · exact .inr ⟨s * 2 ^ t, 1, by omega, hlt, rfl⟩
    · exact .inr ⟨m, k + 1, hm, hlt, by rw [hv, Nat.pow_succ, Nat.mul_assoc]⟩

/-- A number of at most 53 bits times a power of two is a double. -/
theorem units_nearestRank {s : Nat} (hs : s < 2 * binade) (t : Nat) :
    units (nearestRank (s * 2 ^ t) 1) = s * 2 ^ t := by
  rcases exists_normal hs t with hlt | ⟨m, k, hm, hlt, hv⟩
  · rw [nearestRank_of_lt hlt, units_of_lt hlt]
  · rw [hv, nearestRank_of_normal hm hlt k, units_of_normal hm hlt k]

/-- The double nearest to a double is itself. -/
theorem nearestRank_units (rank : Nat) : nearestRank (units rank) 1 = rank := by
  by_cases hlt : rank < 2 * binade
  · rw [units_of_lt hlt, nearestRank_of_lt hlt]
  · have hmod : rank % binade < binade := Nat.mod_lt rank (by decide)
    obtain ⟨m, k, hm, hlt', rfl⟩ :
        ∃ m k, binade ≤ m ∧ m < 2 * binade ∧ rank = k * binade + m := by
      refine ⟨binade + rank % binade, rank / binade - 1, by omega, by omega, ?_⟩
      have hdiv : rank / binade = rank / binade - 1 + 1 := by
        have := Nat.div_pos (show binade ≤ rank by omega) (by decide)
        omega
      have h := Nat.div_add_mod rank binade
      rw [hdiv, Nat.mul_comm, Nat.succ_mul] at h
      omega
    rw [units_of_normal hm hlt' k, nearestRank_of_normal hm hlt' k]

/-! ## Decimals -/

/-- The rank nearest to `n * 10 ^ e`, without regard to its size. -/
def nearestDecimal (n : Nat) (e : Int) : Nat :=
  nearestRank (n * 10 ^ e.toNat * one) (10 ^ (-e).toNat)

/-- Decimals of one value have one nearest double. -/
theorem nearestDecimal_congr {m n : Nat} {d e : Int} (h : (m : ℚ) * 10 ^ d = n * 10 ^ e) :
    nearestDecimal m d = nearestDecimal n e := by
  have hpow (e : Int) : (10 : ℚ) ^ e = 10 ^ e.toNat / 10 ^ (-e).toNat := by
    rw [← zpow_natCast, ← zpow_natCast, ← zpow_sub₀ (by norm_num)]
    congr 1
    omega
  have hnat : m * 10 ^ d.toNat * 10 ^ (-e).toNat = n * 10 ^ e.toNat * 10 ^ (-d).toNat := by
    rw [hpow d, hpow e, ← mul_div_assoc, ← mul_div_assoc,
      div_eq_div_iff (by positivity) (by positivity)] at h
    exact_mod_cast h
  apply nearestRank_congr (by positivity) (by positivity)
  rw [Nat.mul_right_comm, hnat, Nat.mul_right_comm]

theorem nearestDecimal_ofNat (n k : Nat) :
    nearestDecimal n (.ofNat k) = nearestRank (n * 10 ^ k * one) 1 := by
  have hneg : (-Int.ofNat k).toNat = 0 := Int.toNat_neg_natCast k
  rw [nearestDecimal, hneg, Nat.pow_zero]
  rfl

theorem nearestDecimal_negSucc (n k : Nat) :
    nearestDecimal n (.negSucc k) = nearestRank (n * one) (10 ^ (k + 1)) := by
  have hpos : (Int.negSucc k).toNat = 0 := rfl
  have hneg : (-Int.negSucc k).toNat = k + 1 := rfl
  rw [nearestDecimal, hpos, hneg, Nat.pow_zero, Nat.mul_one]

/-- What `decimalRank?` finds, unless it is zero, is the double nearest to the decimal. -/
theorem nearestDecimal_of_decimalRank? {n rank : Nat} {e : Int}
    (h : decimalRank? n e = some rank) (hrank : rank ≠ 0) : nearestDecimal n e = rank := by
  have hzero : some 0 ≠ some rank := fun h => hrank (Option.some.inj h).symm
  unfold decimalRank? at h
  split at h
  · next k =>
    split at h
    · exact absurd h hzero
    · split at h
      · cases h
      · rw [nearestDecimal_ofNat]
        exact Option.some.inj h
  · next k =>
    split at h
    · exact absurd h hzero
    · rw [nearestDecimal_negSucc]
      exact Option.some.inj h

theorem exists_one_eq : ∃ t, one = Nat.pow 2 t := by
  unfold one
  generalize 1074 = t
  exact ⟨t, rfl⟩

theorem one_pos : 0 < one := by
  obtain ⟨t, ht⟩ := exists_one_eq
  rw [ht]
  exact Nat.two_pow_pos t

/-- A whole number of at most 53 bits is a double. -/
theorem units_nearestRank_one {n : Nat} (hn : n < 2 * binade) :
    units (nearestRank (n * one) 1) = n * one := by
  obtain ⟨t, ht⟩ := exists_one_eq
  rw [ht]
  exact units_nearestRank hn t

/-- The powers of ten up to the twenty-second are doubles. -/
theorem units_powerRank {k : Nat} (hk : k ≤ 22) : units (powerRank k) = 10 ^ k * one := by
  have hfive : 5 ^ k < 2 * binade :=
    Nat.lt_of_le_of_lt (Nat.pow_le_pow_right (by decide) hk) (by decide)
  obtain ⟨t, ht⟩ := exists_one_eq
  have hten : 10 ^ k * one = 5 ^ k * 2 ^ (k + t) := by
    rw [ht, Nat.pow_eq, Nat.pow_add, ← Nat.mul_assoc, ← Nat.mul_pow]
  show units (nearestRank (10 ^ k * one) 1) = _
  rw [hten, units_nearestRank hfive]

/-- A decimal of at most 53 bits and a power of ten up to the twenty-second is read as the double
nearest to it: its digits and the power are doubles, so only their product or quotient is
rounded. -/
theorem scaledRank?_eq {n : Nat} {e : Int} (hn : n < 2 * binade) (he : e.natAbs ≤ 22) :
    scaledRank? n e = some (nearestDecimal n e) := by
  unfold scaledRank?
  split
  · next k =>
    have hk : k ≤ 22 := he
    have hrank : nearestRank (n * one * (10 ^ k * one)) one = nearestRank (n * 10 ^ k * one) 1 :=
      nearestRank_congr one_pos Nat.one_pos (by ring)
    rw [if_pos (by omega), mulRank, units_nearestRank_one hn, units_powerRank hk,
      nearestDecimal_ofNat, hrank]
  · next k =>
    have hk : k + 1 ≤ 22 := he
    have hrank : nearestRank (n * one * one) (10 ^ (k + 1) * one) =
        nearestRank (n * one) (10 ^ (k + 1)) :=
      nearestRank_mul_right (n * one) (10 ^ (k + 1)) one_pos
    rw [if_pos (by omega), divRank, units_nearestRank_one hn, units_powerRank hk,
      nearestDecimal_negSucc, hrank]

end Translit.Number.Binary64
