import Mathlib.Data.List.Basic
import Translit.Number.Digits
import Translit.Text.Quoted

/-!
# Quoted texts read back

A text between quotes is read in two steps: first up to the quote that ends it, where a backslash
takes the next character with it, and then escape by escape. What is written reads back whatever
follows, so a message made of quoted texts, numbers and fixed words can be taken apart again, and a
quoted text never breaks a line.

* `takeLiteral?`, `takeNumber?`, `takeMany` : what stands at the head of a text;
* `takeBody?` : a string up to its closing quote; `Sealed` : pieces that do not close it;
* `takeQuoted?_quoted`, `takeTexts?_quotedList` : quoted texts and lists of them read back;
* `OneLine.quoted`, `OneLine.quotedList` : they hold no line end.
-/

namespace Translit

namespace Number

/-- The decimal digits of a number are its text. -/
theorem toList_toString (n : Nat) : (toString n).toList = text n := by
  have hchar (d : Digit) : d.val.digitChar = d.char := by
    revert d
    decide
  rw [Nat.toString_eq_repr, Nat.toList_repr, text]
  fun_induction digits n with
  | case1 n h =>
    rw [Nat.toDigits_of_lt_base h, hchar ⟨n, h⟩]
    rfl
  | case2 n h ih =>
    rw [Nat.toDigits_of_base_le (by decide) (Nat.le_of_not_lt h), ih, chars, chars, List.map_append,
      hchar ⟨n % 10, Nat.mod_lt n (by decide)⟩]
    rfl

/-- What no digit is does not stand in the text of a number. -/
theorem notMem_toString {c : Char} (h : ∀ d : Digit, d.char ≠ c) (n : Nat) :
    c ∉ (toString n).toList := by
  rw [toList_toString]
  intro hc
  obtain ⟨d, -, hd⟩ := List.mem_map.1 hc
  exact h d hd

/-- The hexadecimal digits of a number are digits, and denote it. -/
theorem exists_toDigits_sixteen (n : Nat) :
    ∃ ds : List Nat, Nat.toDigits 16 n = ds.map Nat.digitChar ∧ (∀ d ∈ ds, d < 16) ∧
      ds.foldl (fun n d => 16 * n + d) 0 = n := by
  induction n using Nat.base_induction 16 (by decide) with
  | single m hm => exact ⟨[m], Nat.toDigits_of_lt_base hm, by simpa using hm, by simp⟩
  | digit m k hk hm ih =>
    obtain ⟨ds, hds, hlt, hvalue⟩ := ih
    refine ⟨ds ++ [k], ?_, ?_, ?_⟩
    · rw [← Nat.toDigits_append_toDigits (by decide) hm hk, hds, Nat.toDigits_of_lt_base hk,
        List.map_append]
      rfl
    · intro d hd
      rcases List.mem_append.1 hd with hd | hd
      · exact hlt d hd
      · rwa [List.mem_singleton.1 hd]
    · rw [List.foldl_append, hvalue]
      rfl

end Number

namespace Text

open Number (Digit)

/-- A text put into an interpolated one stands there as it is. -/
theorem toString_string (s : String) : toString s = s := rfl

/-! ## Reading from the head -/

section Head

variable {α : Type}

/-- What follows a word that a text begins with. -/
def takeLiteral? (word : String) (cs : List Char) : Option (List Char) :=
  cs.dropPrefix? word.toList

/-- The number that a text begins with, and what follows it. -/
def takeNumber? (cs : List Char) : Option (Nat × List Char) :=
  match Number.takeDigits cs with
  | ([], _) => none
  | (d :: ds, rest) => some (Number.value (d :: ds), rest)

/-- What a reader takes off a text over and over, but not more often than the limit says. -/
def takeManyWithin (take? : List Char → Option (α × List Char)) :
    Nat → List Char → List α × List Char
  | 0, cs => ([], cs)
  | limit + 1, cs =>
    match take? cs with
    | none => ([], cs)
    | some (a, rest) =>
      let (as, rest) := takeManyWithin take? limit rest
      (a :: as, rest)

/-- What a reader takes off a text as long as it can; each time it takes a character at least. -/
def takeMany (take? : List Char → Option (α × List Char)) (cs : List Char) : List α × List Char :=
  takeManyWithin take? cs.length cs

theorem takeLiteral?_append (word : String) (rest : List Char) :
    takeLiteral? word (word.toList ++ rest) = some rest :=
  List.dropPrefix?_append_of_beq rest (BEq.refl _)

theorem takeNumber?_toString (n : Nat) {rest : List Char}
    (h : ∀ c ∈ rest.head?, Digit.ofChar? c = none) :
    takeNumber? ((toString n).toList ++ rest) = some (n, rest) := by
  have hvalue := Number.value_digits n
  rw [takeNumber?, Number.toList_toString, Number.text, Number.takeDigits_chars _ _ h]
  obtain ⟨d, ds, hdigits⟩ := Number.exists_digits_eq n
  rw [hdigits] at hvalue ⊢
  dsimp only
  rw [hvalue]

theorem takeManyWithin_of_none {take? : List Char → Option (α × List Char)} {rest : List Char}
    (h : take? rest = none) (limit : Nat) : takeManyWithin take? limit rest = ([], rest) := by
  cases limit with
  | zero => rfl
  | succ limit => rw [takeManyWithin, h]

theorem takeManyWithin_flatMap {take? : List Char → Option (α × List Char)} {write : α → List Char}
    {as : List α} {rest : List Char} (limit : Nat) (hlimit : as.length ≤ limit)
    (htake : ∀ a ∈ as, ∀ rest, take? (write a ++ rest) = some (a, rest))
    (hrest : take? rest = none) :
    takeManyWithin take? limit (as.flatMap write ++ rest) = (as, rest) := by
  induction as generalizing limit with
  | nil => exact takeManyWithin_of_none hrest limit
  | cons a as ih =>
    obtain ⟨limit, rfl⟩ : ∃ n, limit = n + 1 := Nat.exists_eq_succ_of_ne_zero (by
      rintro rfl
      cases hlimit)
    obtain ⟨ha, has⟩ := List.forall_mem_cons.1 htake
    rw [List.flatMap_cons, List.append_assoc, takeManyWithin, ha]
    dsimp only
    rw [ih limit (Nat.le_of_succ_le_succ hlimit) has]

/-- What is written item by item is taken item by item, if each item is seen for what it is and
what follows them for none. -/
theorem takeMany_flatMap {take? : List Char → Option (α × List Char)} {write : α → List Char}
    {as : List α} {rest : List Char} (hne : ∀ a ∈ as, write a ≠ [])
    (htake : ∀ a ∈ as, ∀ rest, take? (write a ++ rest) = some (a, rest))
    (hrest : take? rest = none) : takeMany take? (as.flatMap write ++ rest) = (as, rest) := by
  apply takeManyWithin_flatMap _ _ htake hrest
  rw [List.length_append]
  apply Nat.le_add_right_of_le
  clear htake
  induction as with
  | nil => exact Nat.zero_le _
  | cons a as ih =>
    obtain ⟨ha, has⟩ := List.forall_mem_cons.1 hne
    have hpos := List.length_pos_iff.2 ha
    have hle := ih has
    rw [List.flatMap_cons, List.length_append, List.length_cons]
    omega

end Head

/-! ## Strings up to the closing quote -/

/-- The characters up to the quote that ends a string, and what follows it. A backslash takes the
next character with it; `behind` tells that such a backslash has just been passed. -/
def takeBody? : (behind : Bool) → List Char → Option (List Char × List Char)
  | _, [] => none
  | behind, c :: cs =>
    if !behind ∧ c = '"' then some ([], cs)
    else (takeBody? (!behind && c == '\\') cs).map fun (body, rest) => (c :: body, rest)

/-- A string goes on behind the piece, which is passed as it stands. -/
def Sealed (piece : List Char) : Prop :=
  ∀ rest, takeBody? false (piece ++ rest) =
    (takeBody? false rest).map fun (body, rest) => (piece ++ body, rest)

namespace Sealed

theorem nil : Sealed [] := by
  intro rest
  rw [List.nil_append]
  cases takeBody? false rest <;> rfl

theorem append {as bs : List Char} (has : Sealed as) (hbs : Sealed bs) : Sealed (as ++ bs) := by
  intro rest
  rw [List.append_assoc, has, hbs]
  cases takeBody? false rest with
  | none => rfl
  | some parts => simp

theorem flatMap {α : Type} {write : α → List Char} (h : ∀ a, Sealed (write a)) (as : List α) :
    Sealed (as.flatMap write) := by
  induction as with
  | nil => exact nil
  | cons a as ih => exact (h a).append ih

theorem singleton {c : Char} (hquote : c ≠ '"') (hslash : c ≠ '\\') : Sealed [c] := by
  intro rest
  have hplain : (!false && c == '\\') = false := by simpa using hslash
  rw [List.singleton_append, takeBody?, if_neg (by simp [hquote]), hplain]
  rfl

theorem of_notMem {cs : List Char} (hquote : '"' ∉ cs) (hslash : '\\' ∉ cs) : Sealed cs := by
  induction cs with
  | nil => exact nil
  | cons c cs ih =>
    rw [List.mem_cons, not_or] at hquote hslash
    exact (singleton (Ne.symm hquote.1) (Ne.symm hslash.1)).append (ih hquote.2 hslash.2)

/-- A backslash with the character behind it. -/
theorem escape (c : Char) : Sealed ['\\', c] := by
  intro rest
  show (if _ then _ else (takeBody? true (c :: rest)).map _) = _
  rw [if_neg (by decide), takeBody?, if_neg (by simp)]
  show Option.map _ ((takeBody? false rest).map _) = _
  cases takeBody? false rest <;> rfl

/-- A string of such pieces ends at the quote that is put behind them. -/
theorem takeBody?_append {body : List Char} (h : Sealed body) (rest : List Char) :
    takeBody? false (body ++ '"' :: rest) = some (body, rest) := by
  rw [h, takeBody?, if_pos (by decide)]
  simp

end Sealed

/-! ## Escapes -/

/-- Where a reader stands inside of quoted text: between characters, behind a backslash, behind
`\u`, or behind some digits of a character's number. -/
inductive Within where
  | text
  | escape
  | brace
  | code (value : Nat)

/-- The character that one letter behind a backslash stands for. -/
def escaped? (c : Char) : Option Char :=
  if c = '"' ∨ c = '\\' then some c
  else if c = 'n' then some '\n'
  else if c = 'r' then some '\r'
  else if c = 't' then some '\t'
  else if c = '0' then some '\x00'
  else none

/-- The text that stands between quotes. -/
def unquoted? : Within → List Char → Option (List Char)
  | .text, [] => some []
  | _, [] => none
  | .text, c :: cs =>
    if c = '\\' then unquoted? .escape cs else (unquoted? .text cs).map (c :: ·)
  | .escape, c :: cs =>
    if c = 'u' then unquoted? .brace cs
    else (escaped? c).bind fun d => (unquoted? .text cs).map (d :: ·)
  | .brace, c :: cs => if c = '\x7b' then unquoted? (.code 0) cs else none
  | .code value, c :: cs =>
    if c = '\x7d' then (unquoted? .text cs).map (.ofNat value :: ·)
    else (Number.hexDigit? c).bind fun d => unquoted? (.code (16 * value + d)) cs

/-- A character is written by a letter behind a backslash, by its number, or as itself. -/
theorem quotedChar_cases (c : Char) :
    (∃ e, quotedChar c = ['\\', e] ∧ e ≠ 'u' ∧ e ≠ '\n' ∧ escaped? e = some c) ∨
    quotedChar c = ['\\', 'u', '\x7b'] ++ Nat.toDigits 16 c.toNat ++ ['\x7d'] ∨
    (quotedChar c = [c] ∧ c ≠ '"' ∧ c ≠ '\\' ∧ c ≠ '\n') := by
  unfold quotedChar
  repeat' split
  -- the six characters that have a letter
  iterate 6 next h => subst h; exact .inl ⟨_, rfl, by decide, by decide, rfl⟩
  · exact .inr (.inl rfl)
  · next hquote hslash hnewline _ _ _ _ => exact .inr (.inr ⟨rfl, hquote, hslash, hnewline⟩)

/-- A hexadecimal digit is read as its value, and is not the brace behind a number. -/
theorem hexDigit?_digitChar {d : Nat} (h : d < 16) :
    Number.hexDigit? d.digitChar = some d ∧ d.digitChar ≠ '\x7d' := by
  revert d
  decide

theorem unquoted?_code (ds : List Nat) (hlt : ∀ d ∈ ds, d < 16) (value : Nat) (cs : List Char) :
    unquoted? (.code value) (ds.map Nat.digitChar ++ '\x7d' :: cs) =
      (unquoted? .text cs).map (.ofNat (ds.foldl (fun n d => 16 * n + d) value) :: ·) := by
  induction ds generalizing value with
  | nil => rfl
  | cons d ds ih =>
    obtain ⟨hd, hds⟩ := List.forall_mem_cons.1 hlt
    obtain ⟨hdigit, hbrace⟩ := hexDigit?_digitChar hd
    rw [List.map_cons, List.cons_append, unquoted?, if_neg hbrace, hdigit, Option.bind_some,
      ih hds]
    rfl

/-- A character that is written is read back. -/
theorem unquoted?_quotedChar (c : Char) (cs : List Char) :
    unquoted? .text (quotedChar c ++ cs) = (unquoted? .text cs).map (c :: ·) := by
  rcases quotedChar_cases c with ⟨e, hc, hu, -, he⟩ | hc | ⟨hc, -, hslash, -⟩
  · rw [hc]
    show (if _ then unquoted? .escape (e :: cs) else _) = _
    rw [if_pos rfl, unquoted?, if_neg hu, he]
    rfl
  · obtain ⟨ds, hds, hlt, hvalue⟩ := Number.exists_toDigits_sixteen c.toNat
    rw [hc, hds, List.append_assoc, List.append_assoc, List.singleton_append]
    show unquoted? (.code 0) (ds.map Nat.digitChar ++ '\x7d' :: cs) = _
    rw [unquoted?_code ds hlt, hvalue, Char.ofNat_toNat]
  · rw [hc, List.singleton_append, unquoted?, if_neg hslash]

theorem unquoted?_flatMap (cs : List Char) :
    unquoted? .text (cs.flatMap quotedChar) = some cs := by
  induction cs with
  | nil => rfl
  | cons c cs ih =>
    rw [List.flatMap_cons, unquoted?_quotedChar, ih]
    rfl

/-! ## Quoted texts -/

theorem sealed_quotedChar (c : Char) : Sealed (quotedChar c) := by
  rcases quotedChar_cases c with ⟨e, hc, -⟩ | hc | ⟨hc, hquote, hslash, -⟩
  · rw [hc]
    exact .escape e
  · obtain ⟨ds, hds, hlt, -⟩ := Number.exists_toDigits_sixteen c.toNat
    have hnotMem {x : Char} (h : ∀ d < 16, Nat.digitChar d ≠ x) : x ∉ ds.map Nat.digitChar := by
      intro hx
      obtain ⟨d, hd, hchar⟩ := List.mem_map.1 hx
      exact h d (hlt d hd) hchar
    have hdigits : Sealed (ds.map Nat.digitChar) :=
      .of_notMem (hnotMem (by decide)) (hnotMem (by decide))
    rw [hc, hds, List.append_assoc]
    show Sealed (['\\', 'u'] ++ (['\x7b'] ++ (ds.map Nat.digitChar ++ ['\x7d'])))
    exact .append (.escape 'u') (.append (.singleton (by decide) (by decide))
      (.append hdigits (.singleton (by decide) (by decide))))
  · rw [hc]
    exact .singleton hquote hslash

/-- The text of the quotes that a text begins with, and what follows them. -/
def takeQuoted? (cs : List Char) : Option (String × List Char) := do
  let cs ← takeLiteral? "\"" cs
  let (body, rest) ← takeBody? false cs
  return (.ofList (← unquoted? .text body), rest)

/-- A quoted text reads back whatever follows. -/
theorem takeQuoted?_quoted (s : String) (rest : List Char) :
    takeQuoted? ((quoted s).toList ++ rest) = some (s, rest) := by
  have hbody := (Sealed.flatMap sealed_quotedChar s.toList).takeBody?_append rest
  have hopen : (quoted s).toList ++ rest =
      "\"".toList ++ (s.toList.flatMap quotedChar ++ '"' :: rest) := by
    simp [quoted]
  rw [takeQuoted?, hopen, takeLiteral?_append]
  simp only [Option.bind_eq_bind, Option.bind_some, hbody, unquoted?_flatMap, Option.pure_def,
    String.ofList_toList]

/-- The texts of the list of quoted texts that a text begins with, and what follows it. -/
def takeTexts? (cs : List Char) : Option (List String × List Char) := do
  let cs ← takeLiteral? "[" cs
  match takeQuoted? cs with
  | none => return ([], ← takeLiteral? "]" cs)
  | some (s, cs) =>
    let (ss, cs) := takeMany (fun cs => (takeLiteral? ", " cs).bind takeQuoted?) cs
    return (s :: ss, ← takeLiteral? "]" cs)

theorem toList_quotedList_nil : (quotedList []).toList = "[".toList ++ "]".toList := by
  simp [quotedList]

theorem toList_quotedList_cons (s : String) (ss : List String) :
    (quotedList (s :: ss)).toList = "[".toList ++ ((quoted s).toList ++
      (ss.flatMap (fun s => ", ".toList ++ (quoted s).toList) ++ "]".toList)) := by
  have hrow : (", ".intercalate ((s :: ss).map quoted)).toList =
      (quoted s).toList ++ ss.flatMap fun s => ", ".toList ++ (quoted s).toList := by
    rw [String.toList_intercalate]
    induction ss generalizing s with
    | nil => simp
    | cons t ts ih =>
      have htail := ih t
      simp only [List.map_cons, List.map_map, List.intercalate_cons_cons, List.flatMap_cons,
        List.append_assoc] at htail ⊢
      rw [htail]
  rw [quotedList, String.toList_append, String.toList_append, hrow, List.append_assoc,
    List.append_assoc]

/-- A list of quoted texts reads back whatever follows. -/
theorem takeTexts?_quotedList (ss : List String) (rest : List Char) :
    takeTexts? ((quotedList ss).toList ++ rest) = some (ss, rest) := by
  have hclose : takeLiteral? "]" ("]".toList ++ rest) = some rest := takeLiteral?_append "]" rest
  unfold takeTexts?
  cases ss with
  | nil =>
    have hnone : takeQuoted? ("]".toList ++ rest) = none := rfl
    rw [toList_quotedList_nil, List.append_assoc, takeLiteral?_append]
    simp only [Option.bind_eq_bind, Option.bind_some, hnone, hclose, Option.pure_def]
  | cons s ss =>
    have hrow : takeMany (fun cs => (takeLiteral? ", " cs).bind takeQuoted?)
        (ss.flatMap (fun s => ", ".toList ++ (quoted s).toList) ++ ("]".toList ++ rest)) =
          (ss, "]".toList ++ rest) := by
      apply takeMany_flatMap
      · intro t _
        simp
      · intro t _ cs
        rw [List.append_assoc, takeLiteral?_append, Option.bind_some, takeQuoted?_quoted]
      · rfl
    rw [toList_quotedList_cons, List.append_assoc, List.append_assoc, List.append_assoc,
      takeLiteral?_append]
    simp only [Option.bind_eq_bind, Option.bind_some, takeQuoted?_quoted, hrow, hclose,
      Option.pure_def]

/-! ## Lines -/

/-- The text holds no line end. -/
def OneLine (s : String) : Prop := '\n' ∉ s.toList

instance : DecidablePred OneLine := fun s => inferInstanceAs (Decidable ('\n' ∉ s.toList))

namespace OneLine

theorem append {s t : String} (hs : OneLine s) (ht : OneLine t) : OneLine (s ++ t) := by
  unfold OneLine at *
  rw [String.toList_append, List.mem_append, not_or]
  exact ⟨hs, ht⟩

theorem number (n : Nat) : OneLine (toString n) := Number.notMem_toString (by decide) n

theorem quoted (s : String) : OneLine (quoted s) := by
  have hchar (c : Char) : '\n' ∉ quotedChar c := by
    rcases quotedChar_cases c with ⟨e, hc, -, he, -⟩ | hc | ⟨hc, -, -, hnewline⟩
    · rw [hc]
      simpa using Ne.symm he
    · obtain ⟨ds, hds, -⟩ := Number.exists_toDigits_sixteen c.toNat
      rw [hc, hds]
      simp
    · rw [hc]
      simpa using Ne.symm hnewline
  rw [OneLine, Text.quoted, String.toList_ofList]
  simp [hchar]

theorem quotedList (ss : List String) : OneLine (quotedList ss) := by
  cases ss with
  | nil => decide
  | cons s ss =>
    have hquoted (t : String) : '\n' ∉ (Text.quoted t).toList := OneLine.quoted t
    rw [OneLine, toList_quotedList_cons]
    simp [hquoted]

end OneLine

end Text

end Translit
