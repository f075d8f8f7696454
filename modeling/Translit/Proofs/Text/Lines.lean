import Mathlib.Data.List.Basic
import Translit.Token.Unrecognized

/-!
# Lines by their bytes

The line around a place can be looked for in the bytes of a text, without regard to characters: back
to the byte of a line end, and on to the next one. No byte of a longer character is that byte, so
the search ends between characters, and what lies between its ends is the line.

* `Text.utf8` : the bytes of a text; `Text.newline_mem_iff` : only `\n` has the byte of a line end;
* `Text.idxOf_newline`, `Text.idxOf_newline_reverse` : how far the search goes on and back;
* `Text.slice?_line` : the line lies between its ends.
-/

namespace Translit

namespace Text

/-- The bytes of a text in UTF-8. -/
def utf8 (cs : List Char) : List UInt8 := cs.flatMap String.utf8EncodeChar

/-- The byte that ends a line. -/
def newline : UInt8 := 10

/-- Of all characters only `\n` has the byte of a line end. -/
theorem newline_mem_iff {c : Char} : newline ∈ String.utf8EncodeChar c ↔ c = '\n' := by
  have hbyte (n : Nat) : newline = UInt8.ofNat n ↔ n % 256 = 10 := by
    rw [← UInt8.toNat_inj, UInt8.toNat_ofNat', eq_comm]
    rfl
  have hchar : c = '\n' ↔ c.val.toNat = 10 := by
    rw [← Char.val_inj, ← UInt32.toNat_inj]
    rfl
  rw [hchar, String.utf8EncodeChar]
  -- the first byte of a longer character is at least 192, the others are at least 128
  split
  · simp only [List.mem_singleton, hbyte]
    omega
  · split
    · simp only [List.mem_cons, List.not_mem_nil, or_false, hbyte]
      omega
    · split
      · simp only [List.mem_cons, List.not_mem_nil, or_false, hbyte]
        omega
      · simp only [List.mem_cons, List.not_mem_nil, or_false, hbyte]
        omega

/-- Where each character has the bytes it has in UTF-8, in some order, the first byte of a line end
comes as late as the characters before the first `\n` take bytes. -/
theorem idxOf_newline_flatMap {encode : Char → List UInt8}
    (hencode : ∀ c, (encode c).Perm (String.utf8EncodeChar c)) (cs : List Char) :
    (cs.flatMap encode).idxOf newline = bytes (cs.takeWhile (· ≠ '\n')) := by
  induction cs with
  | nil => rfl
  | cons c cs ih =>
    rw [List.flatMap_cons]
    by_cases hc : c = '\n'
    · subst hc
      have hline : encode '\n' = [newline] := List.perm_singleton.1 (hencode '\n')
      rw [hline, List.takeWhile_cons_of_neg (by simp)]
      rfl
    · have hnot : newline ∉ encode c := by
        rw [(hencode c).mem_iff, newline_mem_iff]
        exact hc
      rw [List.idxOf_append_of_notMem hnot, ih, (hencode c).length_eq,
        String.length_utf8EncodeChar, List.takeWhile_cons_of_pos (by simpa using hc), bytes_cons]

/-- From a place on, the search goes as far as the line does. -/
theorem idxOf_newline (cs : List Char) :
    (utf8 cs).idxOf newline = bytes (Unrecognized.lineAfter cs) :=
  idxOf_newline_flatMap (fun _ => .rfl) cs

theorem bytes_reverse (cs : List Char) : bytes cs.reverse = bytes cs := by
  induction cs with
  | nil => rfl
  | cons c cs ih =>
    rw [List.reverse_cons, bytes_append, ih, bytes_cons, bytes_cons, bytes_nil]
    omega

/-- Back from a place, the search goes as far as the line does. -/
theorem idxOf_newline_reverse (cs : List Char) :
    (utf8 cs).reverse.idxOf newline = bytes (Unrecognized.lineBefore cs) := by
  have hreverse : (utf8 cs).reverse = cs.reverse.flatMap fun c => (String.utf8EncodeChar c).reverse := by
    rw [utf8, List.reverse_flatMap]
    rfl
  rw [hreverse, idxOf_newline_flatMap (fun c => List.reverse_perm _), Unrecognized.lineBefore,
    bytes_reverse]

/-- The line around a place lies between the ends of the two searches. -/
theorem slice?_line (before after : List Char) :
    slice? (before ++ after) (bytes before - (utf8 before).reverse.idxOf newline)
        (bytes before + (utf8 after).idxOf newline) =
      some (Unrecognized.lineBefore before ++ Unrecognized.lineAfter after) := by
  obtain ⟨lead, hlead⟩ : ∃ lead, before = lead ++ Unrecognized.lineBefore before := by
    refine ⟨(before.reverse.dropWhile (· ≠ '\n')).reverse, ?_⟩
    rw [Unrecognized.lineBefore, ← List.reverse_append, List.takeWhile_append_dropWhile,
      List.reverse_reverse]
  obtain ⟨rest, hrest⟩ : ∃ rest, after = Unrecognized.lineAfter after ++ rest :=
    ⟨_, (List.takeWhile_append_dropWhile (p := (· ≠ '\n'))).symm⟩
  have hbefore := congrArg bytes hlead
  rw [bytes_append] at hbefore
  have htext : before ++ after = lead ++ ((Unrecognized.lineBefore before ++
      Unrecognized.lineAfter after) ++ rest) := by
    refine (congrArg₂ (· ++ ·) hlead hrest).trans ?_
    simp only [List.append_assoc]
  have hstart : bytes before - bytes (Unrecognized.lineBefore before) = bytes lead := by omega
  have hstop : bytes before + bytes (Unrecognized.lineAfter after) =
      bytes lead + bytes (Unrecognized.lineBefore before ++ Unrecognized.lineAfter after) := by
    rw [bytes_append]
    omega
  rw [idxOf_newline_reverse, idxOf_newline, hstart, hstop, htext, slice?_bytes]

end Text

end Translit
