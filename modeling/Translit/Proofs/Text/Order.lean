import Mathlib.Data.String.Basic
import Translit.Proofs.Text.Lines

/-!
# The order of texts by their bytes

Keys are put in order by their bytes, and texts are compared by their characters. The two orders are
one, for UTF-8 keeps the order of characters: where two characters differ, so do their first bytes
that differ.

* `utf8EncodeChar_append_lt` : two different characters decide, whatever follows them;
* `utf8_lt_utf8_iff` : so do two texts.
-/

namespace Translit.Text

theorem val_toNat_lt (c : Char) : c.val.toNat < 1114112 := by
  have hvalid : c.val.toNat < 55296 ∨ 57343 < c.val.toNat ∧ c.val.toNat < 1114112 := c.valid
  omega

/-- The bytes of the smaller of two characters come first. -/
theorem utf8EncodeChar_append_lt {c d : Char} (h : c < d) (xs ys : List UInt8) :
    String.utf8EncodeChar c ++ xs < String.utf8EncodeChar d ++ ys := by
  have hlt : c.val.toNat < d.val.toNat := h
  have hc := val_toNat_lt c
  have hd := val_toNat_lt d
  have hbyte (m n : Nat) : UInt8.ofNat m < UInt8.ofNat n ↔ m % 256 < n % 256 := by
    rw [UInt8.lt_iff_toNat_lt, UInt8.toNat_ofNat', UInt8.toNat_ofNat']
  have hsame (m n : Nat) : UInt8.ofNat m = UInt8.ofNat n ↔ m % 256 = n % 256 := by
    rw [← UInt8.toNat_inj, UInt8.toNat_ofNat', UInt8.toNat_ofNat']
  unfold String.utf8EncodeChar
  dsimp only
  generalize c.val.toNat = m at *
  generalize d.val.toNat = n at *
  -- a longer character has a greater first byte; among those of one length the digits decide
  split_ifs
  all_goals simp only [List.cons_append, List.nil_append, List.cons_lt_cons_iff, hbyte, hsame]
  all_goals simp (disch := omega) only [Nat.mod_eq_of_lt]
  all_goals omega

theorem append_lt_append {xs ys : List UInt8} (zs : List UInt8) (h : xs < ys) :
    zs ++ xs < zs ++ ys := by
  induction zs with
  | nil => exact h
  | cons z zs ih => exact List.cons_lt_cons_iff.2 (Or.inr ⟨rfl, ih⟩)

theorem utf8_lt_utf8 {as bs : List Char} (h : as < bs) : utf8 as < utf8 bs := by
  induction as generalizing bs with
  | nil =>
    cases bs with
    | nil => exact absurd h (List.not_lt_nil _)
    | cons b bs =>
      obtain ⟨x, xs, hx⟩ : ∃ x xs, utf8 (b :: bs) = x :: xs := by
        apply List.exists_cons_of_ne_nil
        intro hnil
        have hlength := congrArg List.length (List.append_eq_nil_iff.1 hnil).1
        have hpos := b.utf8Size_pos
        rw [String.length_utf8EncodeChar, List.length_nil] at hlength
        omega
      rw [hx]
      exact List.nil_lt_cons _ _
  | cons a as ih =>
    cases bs with
    | nil => exact absurd h (List.not_lt_nil _)
    | cons b bs =>
      rcases List.cons_lt_cons_iff.1 h with hlt | ⟨rfl, hlt⟩
      · exact utf8EncodeChar_append_lt hlt _ _
      · exact append_lt_append _ (ih hlt)

/-- Texts are in the order of their bytes. -/
theorem utf8_lt_utf8_iff {as bs : List Char} : utf8 as < utf8 bs ↔ as < bs := by
  refine ⟨?_, utf8_lt_utf8⟩
  intro h
  rcases lt_trichotomy as bs with hlt | rfl | hgt
  · exact hlt
  · exact absurd h (List.lt_irrefl _)
  · exact absurd h (List.lt_asymm (utf8_lt_utf8 hgt))

end Translit.Text
