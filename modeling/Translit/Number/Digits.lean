/-!
# Decimal digits of a natural number

A natural number is written with its most significant digit first and without leading zeros.

* `value_digits` : what is written reads back;
* `takeDigits_chars` : a row of digits is taken whole from the text it begins.
-/

namespace Translit.Number

/-- A decimal digit. -/
abbrev Digit := Fin 10

/-- The digit zero. -/
def Digit.zero : Digit := ⟨0, by decide⟩

/-- The character of a digit. -/
def Digit.char (d : Digit) : Char := Char.ofNat (d.val + 48)

/-- The digit that a character stands for, ASCII only. -/
def Digit.ofChar? (c : Char) : Option Digit :=
  if h : 48 ≤ c.toNat ∧ c.toNat < 58 then some ⟨c.toNat - 48, by omega⟩ else none

/-- The value of a hexadecimal digit, its letters in either case. -/
def hexDigit? (c : Char) : Option Nat :=
  if 'a' ≤ c ∧ c ≤ 'f' then some (c.toNat - 87)
  else if 'A' ≤ c ∧ c ≤ 'F' then some (c.toNat - 55)
  else (Digit.ofChar? c).map (·.val)

/-- The digits of a number, most significant first. -/
def digits (n : Nat) : List Digit :=
  if h : n < 10 then [⟨n, h⟩] else digits (n / 10) ++ [⟨n % 10, Nat.mod_lt _ (by omega)⟩]

/-- The number that a row of digits denotes. -/
def value (ds : List Digit) : Nat := ds.foldl (fun n d => 10 * n + d.val) 0

/-- The characters of a row of digits. -/
def chars (ds : List Digit) : List Char := ds.map Digit.char

/-- A number as text. -/
def text (n : Nat) : List Char := chars (digits n)

/-- The digits at the head of a text, and what follows them. -/
def takeDigits : List Char → List Digit × List Char
  | [] => ([], [])
  | c :: cs =>
    match Digit.ofChar? c with
    | some d => (d :: (takeDigits cs).1, (takeDigits cs).2)
    | none => ([], c :: cs)

@[simp] theorem value_nil : value [] = 0 := rfl

theorem value_concat (ds : List Digit) (d : Digit) :
    value (ds ++ [d]) = 10 * value ds + d.val := by
  simp [value]

/-- What is written reads back. -/
theorem value_digits (n : Nat) : value (digits n) = n := by
  fun_induction digits n with
  | case1 n h => simp [value]
  | case2 n h ih =>
    rw [value_concat, ih]
    exact Nat.div_add_mod n 10

theorem exists_digits_eq (n : Nat) : ∃ d ds, digits n = d :: ds := by
  apply List.exists_cons_of_ne_nil
  unfold digits
  split <;> simp

theorem ofChar?_char (d : Digit) : Digit.ofChar? d.char = some d := by
  revert d; decide

theorem takeDigits_chars (ds : List Digit) (rest : List Char)
    (h : ∀ c ∈ rest.head?, Digit.ofChar? c = none) : takeDigits (chars ds ++ rest) = (ds, rest) := by
  induction ds with
  | nil =>
    cases rest with
    | nil => rfl
    | cons c cs => simp [chars, takeDigits, h c (by simp)]
  | cons d ds ih =>
    change takeDigits (d.char :: (chars ds ++ rest)) = _
    simp [takeDigits, ofChar?_char, ih]

end Translit.Number
