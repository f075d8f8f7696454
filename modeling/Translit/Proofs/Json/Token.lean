import Mathlib.Data.Fintype.Basic
import Mathlib.Tactic.FinCases
import Translit.Json.Printer
import Translit.Json.Token

/-!
# Written numerals and strings

A numeral that is written reads back where nothing follows that could belong to it. A string
literal reads back whatever follows: each character is written as the code that it has.

* `Ends` : what follows does not go on with a numeral;
* `Numeral.take?_render` : a numeral that is written;
* `Token.takeCodes?_escaped`, `Token.textOfCodes?_map` : the characters of a text, and its codes;
* `Token.take?_render`, `Token.take?_renderString` : the tokens that they give.
-/

namespace Translit

namespace Number

/-- A number of several digits does not begin with a zero. -/
theorem digits_of_ten_le {n : Nat} (h : 10 ≤ n) :
    ∃ d ds, digits n = d :: ds ∧ d ≠ .zero ∧ ds ≠ [] := by
  fun_induction digits n with
  | case1 n hn => omega
  | case2 n hn ih =>
    by_cases hten : 10 ≤ n / 10
    · obtain ⟨d, ds, hdigits, hd, -⟩ := ih hten
      refine ⟨d, ds ++ [⟨n % 10, Nat.mod_lt _ (by omega)⟩], ?_, hd, by simp⟩
      rw [hdigits]
      rfl
    · have hlt : n / 10 < 10 := Nat.lt_of_not_le hten
      refine ⟨⟨n / 10, hlt⟩, [⟨n % 10, Nat.mod_lt _ (by omega)⟩], ?_, ?_, by simp⟩
      · rw [digits, dif_pos hlt]
        rfl
      · intro hzero
        have : n / 10 = 0 := congrArg Fin.val hzero
        omega

theorem digits_of_lt_ten {n : Nat} (h : n < 10) : digits n = [⟨n, h⟩] := by
  rw [digits, dif_pos h]

theorem char_ne_minus (d : Digit) : d.char ≠ '-' := by
  revert d
  decide

end Number

namespace Json

open Number (Digit)

/-- Nothing that could go on with a numeral stands at the head of a text. -/
def Ends (rest : List Char) : Prop :=
  ∀ c ∈ rest.head?, Digit.ofChar? c = none ∧ c ≠ '.' ∧ c ≠ 'e' ∧ c ≠ 'E'

theorem ends_nil : Ends [] := nofun

theorem ends_cons {c : Char} {cs : List Char}
    (h : Digit.ofChar? c = none ∧ c ≠ '.' ∧ c ≠ 'e' ∧ c ≠ 'E') : Ends (c :: cs) := by
  intro d hd
  obtain rfl : c = d := Option.some.inj hd
  exact h

namespace Numeral

theorem takeSign_text (negative : Bool) (n : Nat) (rest : List Char) :
    takeSign ((if negative then ['-'] else []) ++ (Number.text n ++ rest)) =
      (negative, Number.text n ++ rest) := by
  cases negative with
  | true => rfl
  | false =>
    obtain ⟨d, ds, hdigits⟩ := Number.exists_digits_eq n
    rw [Number.text, hdigits]
    change takeSign (d.char :: (Number.chars ds ++ rest)) = _
    unfold takeSign
    split
    · next h => exact absurd (List.cons.inj h).1 (Number.char_ne_minus d)
    · rfl

theorem takeWhole?_text (n : Nat) {rest : List Char}
    (h : ∀ c ∈ rest.head?, Digit.ofChar? c = none) :
    takeWhole? (Number.text n ++ rest) = some (n, rest) := by
  unfold takeWhole?
  rw [Number.text, Number.takeDigits_chars _ _ h]
  by_cases hn : n < 10
  · rw [Number.digits_of_lt_ten hn]
  · obtain ⟨d, ds, hdigits, hd, hds⟩ := Number.digits_of_ten_le (Nat.le_of_not_lt hn)
    have hvalue := Number.value_digits n
    rw [hdigits] at hvalue ⊢
    obtain ⟨e, es, rfl⟩ := List.exists_cons_of_ne_nil hds
    change (if d = .zero then none else some (Number.value (d :: e :: es), rest)) = _
    rw [if_neg hd, hvalue]

theorem takeFraction?_chars (ds : List Digit) {rest : List Char}
    (h : ∀ c ∈ rest.head?, Digit.ofChar? c = none ∧ c ≠ '.') :
    takeFraction? ((if ds = [] then [] else '.' :: Number.chars ds) ++ rest) = some (ds, rest) := by
  cases ds with
  | nil =>
    unfold takeFraction?
    split
    · next hdot => exact absurd rfl (h '.' (congrArg List.head? hdot)).2
    · rfl
  | cons d ds =>
    have htake := Number.takeDigits_chars (d :: ds) rest fun c hc => (h c hc).1
    rw [if_neg (List.cons_ne_nil d ds), List.cons_append, takeFraction?, htake]

theorem takeExponent?_exponentText (e : Int) {rest : List Char}
    (h : ∀ c ∈ rest.head?, Digit.ofChar? c = none) :
    takeExponent? (exponentText e ++ rest) = some (some e, rest) := by
  have htake := Number.takeDigits_chars (Number.digits e.natAbs) rest h
  have hvalue := Number.value_digits e.natAbs
  obtain ⟨d, ds, hdigits⟩ := Number.exists_digits_eq e.natAbs
  unfold exponentText Number.text
  rw [hdigits] at htake hvalue ⊢
  by_cases he : e < 0
  · rw [if_pos he]
    change (takePower? ('-' :: (Number.chars (d :: ds) ++ rest))).map _ = _
    have hpower : takePower? ('-' :: (Number.chars (d :: ds) ++ rest)) =
        some (-(Number.value (d :: ds) : Int), rest) := by
      simp only [takePower?, htake, if_true]
    have habs : -(e.natAbs : Int) = e := by omega
    rw [hpower, hvalue, habs]
    rfl
  · rw [if_neg he]
    change (takePower? ('+' :: (Number.chars (d :: ds) ++ rest))).map _ = _
    have hpower : takePower? ('+' :: (Number.chars (d :: ds) ++ rest)) =
        some ((Number.value (d :: ds) : Int), rest) := by
      simp only [takePower?, htake, if_false, Bool.false_eq_true]
    have habs : (e.natAbs : Int) = e := by omega
    rw [hpower, hvalue, habs]
    rfl

theorem takeExponent?_of_ends {rest : List Char} (h : Ends rest) :
    takeExponent? rest = some (none, rest) := by
  unfold takeExponent?
  split
  · next c cs =>
    obtain ⟨-, -, he, hE⟩ := h c rfl
    rw [if_neg (by simp [he, hE])]
  · rfl

/-- A numeral that is written reads back where it ends. -/
theorem take?_render (n : Numeral) {rest : List Char} (h : Ends rest) :
    take? (n.render ++ rest) = some (n, rest) := by
  obtain ⟨negative, whole, fraction, exponent⟩ := n
  -- the spelling of the exponent, which may be empty
  obtain ⟨power, hrender, hexponent, hhead⟩ : ∃ power : List Char,
      render ⟨negative, whole, fraction, exponent⟩ =
        (if negative then ['-'] else []) ++ Number.text whole
          ++ (if fraction = [] then [] else '.' :: Number.chars fraction) ++ power ∧
      takeExponent? (power ++ rest) = some (exponent, rest) ∧
      ∀ c ∈ (power ++ rest).head?, Digit.ofChar? c = none ∧ c ≠ '.' := by
    cases exponent with
    | none =>
      refine ⟨[], rfl, takeExponent?_of_ends h, ?_⟩
      intro c hc
      exact ⟨(h c hc).1, (h c hc).2.1⟩
    | some e =>
      refine ⟨exponentText e, rfl, takeExponent?_exponentText e fun c hc => (h c hc).1, ?_⟩
      intro c hc
      obtain rfl : 'e' = c := by
        unfold exponentText at hc
        split at hc
        · exact Option.some.inj hc
        · exact Option.some.inj hc
      decide
  have hfraction := takeFraction?_chars fraction hhead
  have hwhole : ∀ c ∈ ((if fraction = [] then [] else '.' :: Number.chars fraction) ++
      (power ++ rest)).head?, Digit.ofChar? c = none := by
    intro c hc
    split at hc
    · exact (hhead c hc).1
    · obtain rfl : '.' = c := Option.some.inj hc
      rfl
  rw [hrender, List.append_assoc, List.append_assoc, List.append_assoc]
  simp only [take?, takeSign_text, takeWhole?_text whole hwhole, hfraction, hexponent,
    Option.bind_eq_bind, Option.bind_some, Option.pure_def]

/-- A numeral begins with a digit or a minus sign. -/
theorem exists_render_eq (n : Numeral) :
    ∃ c cs, n.render = c :: cs ∧ (c = '-' ∨ ∃ d, c = Digit.char d) := by
  obtain ⟨d, ds, hdigits⟩ := Number.exists_digits_eq n.whole
  unfold render Number.text
  rw [hdigits]
  cases n.negative with
  | true => exact ⟨'-', _, rfl, .inl rfl⟩
  | false => exact ⟨d.char, _, rfl, .inr ⟨d, rfl⟩⟩

end Numeral

namespace Token

/-- A one-letter escape reads as its code. -/
theorem takeCodes?_letter {e : Char} {n : Nat} (h : escapeCode? e = some n) (cs : List Char) :
    takeCodes? ('\\' :: e :: cs) = (takeCodes? cs).map fun (codes, rest) => (n :: codes, rest) := by
  rw [takeCodes?, h]
  · cases takeCodes? cs with
    | none => rfl
    | some parts => rfl
  · rintro a b c d cs rfl
    cases h

/-- A control reads as its code. -/
theorem takeCodes?_control {n : Nat} (h : n < 32) (cs : List Char) :
    takeCodes? ('\\' :: 'u' :: '0' :: '0' :: hexDigit (n / 16) :: hexDigit n :: cs) =
      (takeCodes? cs).map fun (codes, rest) => (n :: codes, rest) := by
  have hhex : ∀ n < 32, hex4? '0' '0' (hexDigit (n / 16)) (hexDigit n) = some n := by
    decide
  rw [takeCodes?, hhex n h]
  cases takeCodes? cs with
  | none => rfl
  | some parts => rfl

/-- Any other character reads as its own code. -/
theorem takeCodes?_plain {c : Char} (hquote : c ≠ '"') (hslash : c ≠ '\\')
    (hcontrol : ¬ c.toNat < 32) (cs : List Char) :
    takeCodes? (c :: cs) = (takeCodes? cs).map fun (codes, rest) => (c.toNat :: codes, rest) := by
  rw [takeCodes?, if_neg (by simp [hslash, hcontrol])]
  · exact hquote
  · intro _ _ _ _ _ h
    exact absurd h hslash
  · intro _ _ h
    exact absurd h hslash

/-- A character is written by a one-letter escape, as a control, or as itself. -/
theorem escapedChar_cases (c : Char) :
    (∃ e, escapedChar c = ['\\', e] ∧ escapeCode? e = some c.toNat) ∨
    (c.toNat < 32 ∧
      escapedChar c = ['\\', 'u', '0', '0', hexDigit (c.toNat / 16), hexDigit c.toNat]) ∨
    (escapedChar c = [c] ∧ c ≠ '"' ∧ c ≠ '\\' ∧ ¬ c.toNat < 32) := by
  unfold escapedChar
  repeat' split
  -- the seven characters that have a letter
  iterate 7 next h => subst h; exact .inl ⟨_, rfl, rfl⟩
  · next h => exact .inr (.inl ⟨h, rfl⟩)
  · next hquote hslash _ _ _ _ _ hcontrol => exact .inr (.inr ⟨rfl, hquote, hslash, hcontrol⟩)

/-- A character of a text reads back as its code. -/
theorem takeCodes?_escapedChar (c : Char) (cs : List Char) :
    takeCodes? (escapedChar c ++ cs) =
      (takeCodes? cs).map fun (codes, rest) => (c.toNat :: codes, rest) := by
  rcases escapedChar_cases c with ⟨e, hc, hcode⟩ | ⟨hcontrol, hc⟩ | ⟨hc, hquote, hslash, hcontrol⟩
  · rw [hc]
    exact takeCodes?_letter hcode cs
  · rw [hc]
    exact takeCodes?_control hcontrol cs
  · rw [hc]
    exact takeCodes?_plain hquote hslash hcontrol cs

/-- The characters of a text up to the closing quote read back as their codes. -/
theorem takeCodes?_escaped (cs rest : List Char) :
    takeCodes? (cs.flatMap escapedChar ++ '"' :: rest) = some (cs.map Char.toNat, rest) := by
  induction cs with
  | nil => rfl
  | cons c cs ih =>
    rw [List.flatMap_cons, List.append_assoc, takeCodes?_escapedChar, ih]
    rfl

/-- No character is half a surrogate pair. -/
theorem isHalf_toNat (c : Char) : isHighHalf c.toNat = false ∧ isLowHalf c.toNat = false := by
  have hvalid : c.toNat < 0xD800 ∨ 0xDFFF < c.toNat ∧ c.toNat < 0x110000 := c.valid
  unfold isHighHalf isLowHalf
  simp only [Bool.and_eq_false_iff, decide_eq_false_iff_not]
  omega

/-- The codes of a text denote it. -/
theorem textOfCodes?_map (cs : List Char) : textOfCodes? (cs.map Char.toNat) = some cs := by
  induction cs with
  | nil => rfl
  | cons c cs ih =>
    obtain ⟨hhigh, hlow⟩ := isHalf_toNat c
    cases cs with
    | nil =>
      rw [List.map_cons, List.map_nil, textOfCodes?, hhigh, hlow, Char.ofNat_toNat]
      rfl
    | cons d cs =>
      rw [List.map_cons] at ih ⊢
      rw [List.map_cons, textOfCodes?, hhigh, hlow, if_neg Bool.false_ne_true,
        if_neg Bool.false_ne_true, ih, Char.ofNat_toNat]
      rfl

/-- A string literal reads back whatever follows. -/
theorem take?_renderString (s : Option String) (rest : List Char) :
    take? (renderString s ++ rest) = some (string s, rest) := by
  cases s with
  | none => rfl
  | some s =>
    change (takeCodes? (s.toList.flatMap escapedChar ++ ['"'] ++ rest)).map _ = _
    rw [List.append_assoc, List.singleton_append, takeCodes?_escaped]
    change some (string ((textOfCodes? (s.toList.map Char.toNat)).map String.ofList), rest) = _
    rw [textOfCodes?_map, Option.map_some, String.ofList_toList]

/-- A digit or a minus sign begins a numeral and no other token. -/
theorem take?_cons {c : Char} (h : c = '-' ∨ ∃ d, c = Digit.char d) (cs : List Char) :
    take? (c :: cs) = (Numeral.take? (c :: cs)).map fun (n, rest) => (number n, rest) := by
  rcases h with rfl | ⟨d, rfl⟩
  · rfl
  · fin_cases d <;> rfl

/-- A numeral that is written is a token where it ends. -/
theorem take?_render (n : Numeral) {rest : List Char} (h : Ends rest) :
    take? (n.render ++ rest) = some (number n, rest) := by
  obtain ⟨c, cs, hrender, hc⟩ := n.exists_render_eq
  have htake := n.take?_render h
  rw [hrender, List.cons_append] at htake ⊢
  rw [take?_cons hc, htake]
  rfl

end Token

end Json

end Translit
