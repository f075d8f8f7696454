import Mathlib.Data.List.Induction
import Mathlib.Data.Prod.Lex
import Translit.Token.Unrecognized

/-!
# Lines and columns

The line of an offset is told by the line ends that start before it, and its column by the
characters that start before it and after the last of them. An offset inside a character counts that
character, which starts before it.

* `Text.starts` : the characters of a text, each with the offset where it starts;
* `Text.lineNumber`, `Text.columnNumber` : the line and the column after some characters;
  `place_append` : with more characters they are later in the order of reading;
* `exists_passing` : a position passes the characters that start before its offset.
-/

namespace Translit

namespace Text

open Unrecognized (lineBefore)

/-! ## Where characters start -/

/-- The characters of a text that starts at an offset, each with the offset where it starts. -/
def starts (offset : Nat) : List Char → List (Nat × Char)
  | [] => []
  | c :: cs => (offset, c) :: starts (offset + c.utf8Size) cs

theorem starts_append (offset : Nat) (as bs : List Char) :
    starts offset (as ++ bs) = starts offset as ++ starts (offset + bytes as) bs := by
  induction as generalizing offset with
  | nil => rfl
  | cons a as ih =>
    rw [List.cons_append, starts, starts, ih, bytes_cons, Nat.add_assoc, List.cons_append]

theorem length_starts (offset : Nat) (cs : List Char) : (starts offset cs).length = cs.length := by
  induction cs generalizing offset with
  | nil => rfl
  | cons c cs ih => simp [starts, ih]

theorem map_starts (offset : Nat) (cs : List Char) : (starts offset cs).map (·.2) = cs := by
  induction cs generalizing offset with
  | nil => rfl
  | cons c cs ih => simp [starts, ih]

/-- A character starts inside the text. -/
theorem mem_starts {offset : Nat} {cs : List Char} {e : Nat × Char} (h : e ∈ starts offset cs) :
    offset ≤ e.1 ∧ e.1 < offset + bytes cs ∧ e.2 ∈ cs := by
  induction cs generalizing offset with
  | nil => cases h
  | cons c cs ih =>
    have hpos := c.utf8Size_pos
    rw [starts] at h
    rw [bytes_cons]
    rcases List.mem_cons.1 h with rfl | h
    · exact ⟨Nat.le_refl _, by show offset < _; omega, List.mem_cons_self⟩
    · obtain ⟨hle, hlt, hmem⟩ := ih h
      exact ⟨by omega, by omega, List.mem_cons_of_mem c hmem⟩

/-- Of a text cut in two, the characters before the cut are those that start before it. -/
theorem filter_starts (offset : Nat) (as bs : List Char) :
    (starts offset (as ++ bs)).filter (·.1 < offset + bytes as) = starts offset as := by
  rw [starts_append, List.filter_append]
  have hbefore : (starts offset as).filter (·.1 < offset + bytes as) = starts offset as := by
    apply List.filter_eq_self.2
    intro e he
    simpa using (mem_starts he).2.1
  have hbehind : (starts (offset + bytes as) bs).filter (·.1 < offset + bytes as) = [] := by
    apply List.filter_eq_nil_iff.2
    intro e he
    simpa using (mem_starts he).1
  rw [hbefore, hbehind, List.append_nil]

/-! ## The line and the column after some characters -/

/-- The line after some characters. -/
def lineNumber (cs : List Char) : Nat := 1 + cs.count '\n'

/-- The column after some characters. -/
def columnNumber (cs : List Char) : Nat := 1 + (lineBefore cs).length

theorem lineNumber_append (as bs : List Char) :
    lineNumber (as ++ bs) = lineNumber as + bs.count '\n' := by
  unfold lineNumber
  rw [List.count_append]
  omega

theorem lineBefore_newline (cs : List Char) : lineBefore (cs ++ ['\n']) = [] := by
  simp [lineBefore]

theorem lineBefore_append (cs : List Char) {ds : List Char} (hds : '\n' ∉ ds) :
    lineBefore (cs ++ ds) = lineBefore cs ++ ds := by
  have hall : ∀ d ∈ ds.reverse, decide (d ≠ '\n') = true := by
    intro d hd
    apply decide_eq_true
    rintro rfl
    exact hds (List.mem_reverse.1 hd)
  unfold lineBefore
  rw [List.reverse_append, List.takeWhile_append_of_pos hall, List.reverse_append,
    List.reverse_reverse]

theorem columnNumber_newline (cs : List Char) : columnNumber (cs ++ ['\n']) = 1 := by
  rw [columnNumber, lineBefore_newline]
  rfl

theorem columnNumber_of_notMem (cs : List Char) {ds : List Char} (hds : '\n' ∉ ds) :
    columnNumber (cs ++ ds) = columnNumber cs + ds.length := by
  rw [columnNumber, columnNumber, lineBefore_append cs hds, List.length_append, Nat.add_assoc]

/-- With more characters the line is later, or it is the same and the column is later. -/
theorem place_append (as : List Char) {bs : List Char} (hbs : bs ≠ []) :
    Prod.Lex (· < ·) (· < ·) (lineNumber as, columnNumber as)
      (lineNumber (as ++ bs), columnNumber (as ++ bs)) := by
  rw [Prod.lex_def, lineNumber_append]
  by_cases hline : '\n' ∈ bs
  · apply Or.inl
    have hcount := List.count_pos_iff.2 hline
    show lineNumber as < lineNumber as + bs.count '\n'
    omega
  · apply Or.inr
    have hlength := List.length_pos_iff.2 hbs
    rw [List.count_eq_zero.2 hline, columnNumber_of_notMem as hline]
    show lineNumber as = lineNumber as + 0 ∧ columnNumber as < columnNumber as + bs.length
    omega

/-- A text is what stands up to its last line end, and a rest without one. -/
theorem exists_lastLine (cs : List Char) :
    ∃ as bs, cs = as ++ bs ∧ '\n' ∉ bs ∧ (as = [] ∨ ∃ as', as = as' ++ ['\n']) := by
  induction cs using List.reverseRecOn with
  | nil => exact ⟨[], [], rfl, by simp, Or.inl rfl⟩
  | append_singleton cs c ih =>
    by_cases hc : c = '\n'
    · exact ⟨cs ++ [c], [], by simp, by simp, Or.inr ⟨cs, by rw [hc]⟩⟩
    · obtain ⟨as, bs, rfl, hbs, has⟩ := ih
      refine ⟨as, bs ++ [c], List.append_assoc as bs [c], ?_, has⟩
      simpa [hbs] using fun h => hc h.symm

/-! ## Counts of starts -/

/-- The line after some characters counts the line ends among them. -/
theorem lineNumber_eq_countP (cs : List Char) :
    lineNumber cs = 1 + (starts 0 cs).countP (·.2 = '\n') := by
  have hcount : ((starts 0 cs).map (·.2)).count '\n' = (starts 0 cs).countP (·.2 = '\n') := by
    rw [List.count, List.countP_map]
    rfl
  rw [lineNumber, ← hcount, map_starts]

/-- The column after some characters counts those among them that start after the last line end. -/
theorem columnNumber_eq_countP (cs : List Char) :
    columnNumber cs = 1 + (starts 0 cs).countP fun e =>
      ∀ e' ∈ starts 0 cs, e'.2 = '\n' → e'.1 < e.1 := by
  obtain ⟨as, bs, rfl, hbs, has⟩ := exists_lastLine cs
  have hcolumn : columnNumber (as ++ bs) = 1 + bs.length := by
    rw [columnNumber_of_notMem as hbs]
    rcases has with rfl | ⟨as', rfl⟩
    · rfl
    · rw [columnNumber_newline]
  rw [hcolumn, starts_append, List.countP_append, Nat.zero_add]
  -- no character up to the last line end starts after it, and all behind it do
  have hupTo : (starts 0 as).countP (fun e => ∀ e' ∈ starts 0 as ++ starts (bytes as) bs,
      e'.2 = '\n' → e'.1 < e.1) = 0 := by
    apply List.countP_eq_zero.2
    intro e he hlater
    rcases has with rfl | ⟨as', rfl⟩
    · cases he
    · have hend : (bytes as', '\n') ∈ starts 0 (as' ++ ['\n']) := by
        rw [starts_append, Nat.zero_add]
        exact List.mem_append_right _ (List.mem_singleton.2 rfl)
      have hlt := of_decide_eq_true hlater _ (List.mem_append_left _ hend) rfl
      have hle := (mem_starts he).2.1
      rw [bytes_append, show bytes ['\n'] = 1 from rfl] at hle
      dsimp only at hlt
      omega
  have hbehind : (starts (bytes as) bs).countP (fun e =>
      ∀ e' ∈ starts 0 as ++ starts (bytes as) bs, e'.2 = '\n' → e'.1 < e.1) = bs.length := by
    rw [← length_starts (bytes as) bs]
    apply List.countP_eq_length.2
    intro e he
    apply decide_eq_true
    intro e' he' hnewline
    have hle := (mem_starts he).1
    rcases List.mem_append.1 he' with he' | he'
    · have hlt := (mem_starts he').2.1
      omega
    · exact absurd (hnewline ▸ (mem_starts he').2.2) hbs
  rw [hupTo, hbehind, Nat.zero_add]

/-! ## Passing characters -/

namespace Position

/-- The position after some characters that are passed from the start. -/
theorem foldl_next (cs : List Char) :
    cs.foldl next start = ⟨bytes cs, lineNumber cs, columnNumber cs⟩ := by
  induction cs using List.reverseRecOn with
  | nil => rfl
  | append_singleton cs c ih =>
    have hbytes : bytes (cs ++ [c]) = bytes cs + c.utf8Size := by simp
    rw [List.foldl_append, ih, hbytes, lineNumber_append]
    show next _ c = _
    unfold next
    by_cases hc : c = '\n'
    · subst hc
      rw [if_pos rfl, columnNumber_newline]
      rfl
    · have hnot : '\n' ∉ [c] := by simpa using fun h => hc h.symm
      rw [if_neg hc, columnNumber_of_notMem cs hnot, List.count_eq_zero.2 hnot]
      rfl

theorem offset_next (p : Position) (c : Char) : (p.next c).offset = p.offset + c.utf8Size := by
  unfold next
  split <;> rfl

/-- The characters that are passed are those that start before the limit, and no more stand between
them. -/
theorem exists_passing (limit : Nat) (p : Position) (text : List Char) :
    ∃ as bs, text = as ++ bs ∧ passing limit p text = as.foldl next p ∧
      (starts p.offset text).filter (·.1 < limit) = starts p.offset as := by
  induction text generalizing p with
  | nil => exact ⟨[], [], rfl, rfl, rfl⟩
  | cons c cs ih =>
    unfold passing
    by_cases hle : limit ≤ p.offset
    · refine ⟨[], c :: cs, rfl, if_pos hle, ?_⟩
      apply List.filter_eq_nil_iff.2
      intro e he
      have hstart := (mem_starts he).1
      simp only [decide_eq_true_eq]
      omega
    · obtain ⟨as, bs, rfl, hpass, hfilter⟩ := ih (p.next c)
      rw [offset_next] at hfilter
      refine ⟨c :: as, bs, rfl, (if_neg hle).trans hpass, ?_⟩
      rw [starts, List.filter_cons_of_pos (by simpa using hle), hfilter, starts]

/-- An offset inside a text has the line and the column after the characters that start before
it. -/
theorem exists_ofOffset (text : List Char) (offset : Nat) :
    ∃ as, (starts 0 text).filter (·.1 < min offset (bytes text)) = starts 0 as ∧
      ofOffset text offset = ⟨min offset (bytes text), lineNumber as, columnNumber as⟩ := by
  obtain ⟨as, bs, htext, hpass, hfilter⟩ := exists_passing offset start text
  rw [show start.offset = 0 from rfl] at hfilter
  refine ⟨as, ?_, ?_⟩
  · rw [← hfilter]
    apply List.filter_congr
    intro e he
    have hlt := (mem_starts he).2.1
    simp only [decide_eq_decide]
    omega
  · unfold ofOffset
    rw [hpass, foldl_next]

/-- The position between two parts of a text. -/
theorem ofOffset_bytes (as bs : List Char) :
    ofOffset (as ++ bs) (bytes as) = ⟨bytes as, lineNumber as, columnNumber as⟩ := by
  obtain ⟨as', hfilter, hplace⟩ := exists_ofOffset (as ++ bs) (bytes as)
  have hmin : min (bytes as) (bytes (as ++ bs)) = bytes as := by
    rw [bytes_append]
    omega
  have hbefore := filter_starts 0 as bs
  rw [Nat.zero_add] at hbefore
  rw [hmin, hbefore] at hfilter
  have hsame : as = as' := by rw [← map_starts 0 as, hfilter, map_starts]
  rw [hplace, hmin, hsame]

/-- **Where an offset stands.** An offset past the end counts as the end. Its line is one more than
the line ends that start before it, its column one more than the characters that start before it and
after the last of these line ends. Of two offsets between characters the greater one stands on a
later line, or further right on the same line, so no two of them stand at one place. -/
theorem ofOffset_place (text : List Char) :
    (∀ offset,
      let before := (starts 0 text).filter (·.1 < min offset (bytes text))
      ofOffset text offset =
        ⟨min offset (bytes text), 1 + before.countP (·.2 = '\n'),
          1 + before.countP fun e => ∀ e' ∈ before, e'.2 = '\n' → e'.1 < e.1⟩) ∧
    ∀ as bs as' bs', text = as ++ bs → text = as' ++ bs' →
      let p := ofOffset text (bytes as)
      let p' := ofOffset text (bytes as')
      (bytes as < bytes as' →
        Prod.Lex (· < ·) (· < ·) (p.line, p.column) (p'.line, p'.column)) ∧
      (p.line = p'.line → p.column = p'.column → bytes as = bytes as') := by
  have hlex {as bs as' bs' : List Char} (has : text = as ++ bs) (has' : text = as' ++ bs')
      (hlt : bytes as < bytes as') :
      Prod.Lex (· < ·) (· < ·) (lineNumber as, columnNumber as)
        (lineNumber as', columnNumber as') := by
    -- the longer of two parts that begin one text begins with the shorter one
    rcases List.prefix_or_prefix_of_prefix (has ▸ List.prefix_append as bs)
      (has' ▸ List.prefix_append as' bs') with ⟨cs, rfl⟩ | ⟨cs, rfl⟩
    · apply place_append as
      rintro rfl
      simp at hlt
    · rw [bytes_append] at hlt
      omega
  refine ⟨?_, ?_⟩
  · intro offset before
    obtain ⟨as, hfilter, hplace⟩ := exists_ofOffset text offset
    show ofOffset text offset = _
    rw [hplace, show before = starts 0 as from hfilter, ← lineNumber_eq_countP,
      ← columnNumber_eq_countP]
  · intro as bs as' bs' has has' p p'
    have hp : p = ⟨bytes as, lineNumber as, columnNumber as⟩ := by
      show ofOffset text (bytes as) = _
      rw [has, ofOffset_bytes]
    have hp' : p' = ⟨bytes as', lineNumber as', columnNumber as'⟩ := by
      show ofOffset text (bytes as') = _
      rw [has', ofOffset_bytes]
    rw [hp, hp']
    refine ⟨hlex has has', ?_⟩
    intro hline hcolumn
    rcases Nat.lt_trichotomy (bytes as) (bytes as') with hlt | heq | hlt
    · have hplace := Prod.lex_def.1 (hlex has has' hlt)
      dsimp only at hplace hline hcolumn
      omega
    · exact heq
    · have hplace := Prod.lex_def.1 (hlex has' has hlt)
      dsimp only at hplace hline hcolumn
      omega

/-- A character of two bytes, a line end and a letter. The offset inside the first character stands
after it; the line end stands on the line that it ends, and what follows it on the next. -/
theorem ofOffset_place_lines :
    let text := ['é', '\n', 'a']
    let before := (starts 0 text).filter (·.1 < min 1 (bytes text))
    text = ['é'] ++ ['\n', 'a'] ∧ text = ['é', '\n'] ++ ['a'] ∧ bytes ['é'] < bytes ['é', '\n'] ∧
      before = [(0, 'é')] ∧ ofOffset text 1 = ⟨1, 1, 2⟩ ∧ ofOffset text 9 = ⟨4, 2, 2⟩ ∧
      Prod.Lex (· < ·) (· < ·) ((ofOffset text 2).line, (ofOffset text 2).column)
        ((ofOffset text 3).line, (ofOffset text 3).column) := by
  intro text before
  obtain ⟨hplace, hread⟩ := ofOffset_place text
  have hread := (hread ['é'] ['\n', 'a'] ['é', '\n'] ['a'] rfl rfl).1 (by decide)
  exact ⟨rfl, rfl, by decide, by decide, hplace 1, hplace 9, hread⟩

end Position

end Text

end Translit
