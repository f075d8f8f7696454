/-!
# Byte offsets in a text

Offsets into a text count the bytes of its UTF-8 form. A text can be cut only between two
characters, so a cut at an offset inside a character, or past the end, has no answer.

* `splitAt?_bytes` : a text can be cut wherever a part of it ends;
* `splitAt?_eq_some_iff` : a cut has the parts it should, and only between characters;
* `slice?_bytes` : the stretch between two such offsets.
-/

namespace Translit.Text

/-- The number of bytes of a text in UTF-8. -/
def bytes : List Char → Nat
  | [] => 0
  | c :: cs => c.utf8Size + bytes cs

@[simp] theorem bytes_nil : bytes [] = 0 := rfl

@[simp] theorem bytes_cons (c : Char) (cs : List Char) :
    bytes (c :: cs) = c.utf8Size + bytes cs := rfl

@[simp] theorem bytes_append (as bs : List Char) : bytes (as ++ bs) = bytes as + bytes bs := by
  induction as with
  | nil => simp
  | cons a as ih => simp [ih, Nat.add_assoc]

theorem bytes_pos {cs : List Char} (h : cs ≠ []) : 0 < bytes cs := by
  obtain ⟨c, cs, rfl⟩ := List.exists_cons_of_ne_nil h
  rw [bytes_cons]
  exact Nat.add_pos_left c.utf8Size_pos (bytes cs)

/-- The text before an offset and the text from it on. -/
def splitAt? : List Char → Nat → Option (List Char × List Char)
  | cs, 0 => some ([], cs)
  | [], _ + 1 => none
  | c :: cs, n + 1 =>
    if c.utf8Size ≤ n + 1 then
      (splitAt? cs (n + 1 - c.utf8Size)).map fun parts => (c :: parts.1, parts.2)
    else none

/-- The text between two offsets, the first not after the second. -/
def slice? (cs : List Char) (start stop : Nat) : Option (List Char) :=
  (splitAt? cs start).bind fun parts => (splitAt? parts.2 (stop - start)).map (·.1)

theorem splitAt?_bytes (as bs : List Char) : splitAt? (as ++ bs) (bytes as) = some (as, bs) := by
  induction as with
  | nil => cases bs <;> rfl
  | cons a as ih =>
    have hpos : 0 < a.utf8Size := a.utf8Size_pos
    obtain ⟨n, hn⟩ : ∃ n, a.utf8Size + bytes as = n + 1 := ⟨a.utf8Size + bytes as - 1, by omega⟩
    have hrest : n + 1 - a.utf8Size = bytes as := by omega
    rw [bytes_cons, hn, List.cons_append, splitAt?, if_pos (by omega), hrest, ih]
    rfl

theorem append_of_splitAt? {cs as bs : List Char} {n : Nat} (h : splitAt? cs n = some (as, bs)) :
    cs = as ++ bs ∧ bytes as = n := by
  fun_induction splitAt? cs n generalizing as bs with
  | case1 cs =>
    simp only [Option.some.injEq, Prod.mk.injEq] at h
    obtain ⟨rfl, rfl⟩ := h
    exact ⟨rfl, rfl⟩
  | case2 => simp at h
  | case3 c cs n hc ih =>
    obtain ⟨parts, hparts, heq⟩ := Option.map_eq_some_iff.1 h
    obtain ⟨rfl, rfl⟩ := Prod.mk.inj heq
    obtain ⟨rfl, hn⟩ := ih hparts
    exact ⟨rfl, by rw [bytes_cons]; omega⟩
  | case4 => simp at h

/-- A cut has the parts it should, and only between characters. -/
theorem splitAt?_eq_some_iff {cs as bs : List Char} {n : Nat} :
    splitAt? cs n = some (as, bs) ↔ cs = as ++ bs ∧ bytes as = n := by
  refine ⟨append_of_splitAt?, ?_⟩
  rintro ⟨rfl, rfl⟩
  exact splitAt?_bytes as bs

/-- The stretch between the offsets where two parts of a text end. -/
theorem slice?_bytes (as ms bs : List Char) :
    slice? (as ++ (ms ++ bs)) (bytes as) (bytes as + bytes ms) = some ms := by
  rw [slice?, splitAt?_bytes, Option.bind_some, Nat.add_sub_cancel_left, splitAt?_bytes]
  rfl

/-- The UTF-8 length of a string is that of its characters. -/
theorem bytes_toList (s : String) : bytes s.toList = s.utf8ByteSize := by
  have key : ∀ cs : List Char, bytes cs = (String.ofList cs).utf8ByteSize := by
    intro cs
    induction cs with
    | nil => simp [String.ofList_nil]
    | cons c cs ih =>
      have hsplit : String.ofList (c :: cs) = String.ofList [c] ++ String.ofList cs := by
        rw [← String.ofList_append]; rfl
      have hone : (String.ofList [c]).utf8ByteSize = c.utf8Size := by
        rw [← String.singleton_eq_ofList]; simp only [String.utf8ByteSize_singleton]
      rw [bytes_cons, ih, hsplit, String.utf8ByteSize_append, hone]
  rw [key, String.ofList_toList]

end Translit.Text
