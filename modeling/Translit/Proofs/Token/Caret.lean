import Mathlib
import Translit.Proofs.Text.Position
import Translit.Proofs.Token.Guarded

/-!
# The caret below a line

The message about a stretch shows the line of the text that it starts in, and below it a caret. The
line is looked for from the offset of the stretch, backward and forward to the next line ends; where
the caret stands is counted from the start of the text. Both come to one place: in the text split at
its line ends the line has the number of the position, and what stands from the caret on is what the
stretch begins with.

* `Text.getElem?_splitOn_newline` : the line around a place, among the lines of the text;
* `Text.drop_line` : what stands in it from the column of the place on;
* `Unrecognized.showIn?_caret` : the message about a stretch.
-/

namespace Translit

open Unrecognized (lineBefore lineAfter)

namespace Text

/-! ## Lines of a text -/

theorem newline_notMem_lineAfter (cs : List Char) : '\n' ∉ lineAfter cs := by
  intro h
  simpa using List.mem_takeWhile_imp h

theorem newline_notMem_lineBefore (cs : List Char) : '\n' ∉ lineBefore cs := by
  intro h
  exact newline_notMem_lineAfter cs.reverse (List.mem_reverse.1 h)

/-- What stands before the first line end is the first line. -/
theorem head?_splitOn_newline (cs : List Char) :
    (cs.splitOn '\n').head? = some (lineAfter cs) := by
  induction cs with
  | nil => rfl
  | cons c cs ih =>
    rw [List.splitOn_cons_eq_if_modifyHead, lineAfter, List.takeWhile_cons]
    by_cases hc : c = '\n'
    · simp [hc]
    · rw [if_neg (by simpa using hc), if_pos (by simpa using hc), List.head?_modifyHead, ih]
      rfl

/-- A text has one line more than line ends. -/
theorem length_splitOn_newline (cs : List Char) :
    (cs.splitOn '\n').length = cs.count '\n' + 1 := by
  induction cs with
  | nil => rfl
  | cons c cs ih =>
    rw [List.splitOn_cons_eq_if_modifyHead, List.count_cons]
    by_cases hc : c = '\n'
    · simp [hc, ih]
    · simp [hc, ih]

theorem lineAfter_append {as : List Char} (h : '\n' ∉ as) (bs : List Char) :
    lineAfter (as ++ bs) = as ++ lineAfter bs := by
  have hall : ∀ a ∈ as, decide (a ≠ '\n') = true := by
    intro a ha
    apply decide_eq_true
    rintro rfl
    exact h ha
  exact List.takeWhile_append_of_pos hall

/-- The line around a place stands behind as many others as there are line ends before the place. -/
theorem getElem?_splitOn_newline (as bs : List Char) :
    ((as ++ bs).splitOn '\n')[as.count '\n']? = some (lineBefore as ++ lineAfter bs) := by
  obtain ⟨ls, ms, rfl, hms, hls⟩ := exists_lastLine as
  have hfirst : ((ms ++ bs).splitOn '\n')[0]? = some (ms ++ lineAfter bs) := by
    rw [← List.head?_eq_getElem?, head?_splitOn_newline, lineAfter_append hms]
  rw [List.count_append, List.count_eq_zero.2 hms, Nat.add_zero, lineBefore_append ls hms,
    List.append_assoc]
  rcases hls with rfl | ⟨ls, rfl⟩
  · exact hfirst
  · -- the lines up to the last line end come before the line of the place
    rw [List.append_assoc, List.singleton_append, List.splitOn_append_cons_self, List.count_append,
      show ['\n'].count '\n' = 1 from rfl, ← length_splitOn_newline, lineBefore_newline,
      List.nil_append, List.getElem?_append_right (Nat.le_refl _), Nat.sub_self]
    exact hfirst

/-- From the column of a place on, its line goes on as the text does. -/
theorem drop_line (as bs : List Char) :
    columnNumber as - 1 ≤ (lineBefore as ++ lineAfter bs).length ∧
      (lineBefore as ++ lineAfter bs).drop (columnNumber as - 1) = lineAfter bs := by
  have hcolumn : columnNumber as - 1 = (lineBefore as).length := Nat.add_sub_cancel_left _ _
  rw [hcolumn, List.length_append]
  exact ⟨Nat.le_add_right _ _, List.drop_left⟩

end Text

namespace Unrecognized

/-- A stretch cut out of a text is the stretch between the offsets; nothing traps unless one of them
lies inside a character. -/
theorem guardedOf_eq_ok_iff {text : List Char} {start stop : Nat} {u : Unrecognized} :
    guardedOf text start stop = .ok u ↔ of? text start stop = some u := by
  unfold guardedOf of? cutText
  dsimp only
  rw [if_pos (Nat.min_le_right _ _)]
  cases Text.slice? text (min start (min stop (Text.bytes text))) (min stop (Text.bytes text)) <;>
    simp [Except.map]

/-- Two offsets between characters, in order, cut a text into three parts. -/
theorem exists_stretch {text : List Char} {start stop : Nat} (hle : start ≤ stop)
    (hstart : (Text.splitAt? text start).isSome = true)
    (hstop : (Text.splitAt? text stop).isSome = true) :
    ∃ before stretch after, text = before ++ (stretch ++ after) ∧ Text.bytes before = start ∧
      Text.bytes before + Text.bytes stretch = stop := by
  obtain ⟨⟨before, behind⟩, hbefore⟩ := Option.isSome_iff_exists.1 hstart
  obtain ⟨⟨upTo, after⟩, hupTo⟩ := Option.isSome_iff_exists.1 hstop
  obtain ⟨htext, rfl⟩ := Text.splitAt?_eq_some_iff.1 hbefore
  obtain ⟨htext', rfl⟩ := Text.splitAt?_eq_some_iff.1 hupTo
  rcases List.prefix_or_prefix_of_prefix (htext ▸ List.prefix_append before behind)
    (htext' ▸ List.prefix_append upTo after) with ⟨stretch, rfl⟩ | ⟨rest, rfl⟩
  · exact ⟨before, stretch, after, by rw [htext', List.append_assoc], rfl,
      (Text.bytes_append before stretch).symm⟩
  · -- the second offset is not before the first, so nothing stands between them
    have hnil : rest = [] := by
      by_contra hne
      have hpos := Text.bytes_pos hne
      rw [Text.bytes_append] at hle
      omega
    subst hnil
    exact ⟨upTo, [], after, htext', by rw [List.append_nil], by simp⟩

/-- **The caret points at the stretch.** Take two offsets of a text that lie between characters, the
first not after the second. The stretch between them can be told of and shown; nothing traps on the
way. What is shown is the message, the line with the number of the position and below it a caret
behind as many blanks as characters of the line precede the column. From that column on the line is
what follows the first offset, up to the next line end. -/
theorem showIn?_caret {text : List Char} {start stop : Nat} (hle : start ≤ stop)
    (hstart : (Text.splitAt? text start).isSome = true)
    (hstop : (Text.splitAt? text stop).isSome = true) :
    ∃ before behind u line shown,
      Text.splitAt? text start = some (before, behind) ∧
      of? text start stop = some u ∧ guardedOf text start stop = .ok u ∧
      u.position = .ofOffset text start ∧
      u.showIn? text = some shown ∧ u.guardedShow text = .ok shown ∧
      shown = u.message ++ "\n" ++ String.ofList line ++ "\n"
        ++ String.ofList (List.replicate (u.position.column - 1) ' ') ++ "^\n" ∧
      (text.splitOn '\n')[u.position.line - 1]? = some line ∧ '\n' ∉ line ∧
      u.position.column - 1 ≤ line.length ∧
      line.drop (u.position.column - 1) = behind.takeWhile (· ≠ '\n') := by
  obtain ⟨before, stretch, after, rfl, rfl, rfl⟩ := exists_stretch hle hstart hstop
  have hsplit := Text.splitAt?_bytes before (stretch ++ after)
  have hof := guardedOf_bytes before stretch after
  obtain ⟨u, hu⟩ : ∃ u, ofStretch (before ++ (stretch ++ after)) (Text.bytes before) stretch = u :=
    ⟨_, rfl⟩
  have hplace : u.position = .ofOffset (before ++ (stretch ++ after)) (Text.bytes before) := by
    rw [← hu]
    rfl
  have hposition : u.position =
      ⟨Text.bytes before, Text.lineNumber before, Text.columnNumber before⟩ :=
    hplace.trans (Text.Position.ofOffset_bytes before (stretch ++ after))
  have hshown : Text.splitAt? (before ++ (stretch ++ after))
      (min u.position.offset (Text.bytes (before ++ (stretch ++ after)))) =
        some (before, stretch ++ after) := by
    rw [hposition, Text.bytes_append, Nat.min_eq_left (Nat.le_add_right _ _), hsplit]
  have hshow := guardedShow_of_splitAt? hshown
  have hline : Text.lineNumber before - 1 = before.count '\n' := Nat.add_sub_cancel_left _ _
  obtain ⟨hlength, hdrop⟩ := Text.drop_line before (stretch ++ after)
  rw [hu] at hof
  refine ⟨before, stretch ++ after, u, lineBefore before ++ lineAfter (stretch ++ after), _,
    hsplit, guardedOf_eq_ok_iff.1 hof, hof, hplace, guardedShow_eq_ok_iff.1 hshow, hshow, rfl, ?_⟩
  rw [hposition, hline]
  refine ⟨Text.getElem?_splitOn_newline before (stretch ++ after), ?_, hlength, hdrop⟩
  rw [List.mem_append, not_or]
  exact ⟨Text.newline_notMem_lineBefore before, Text.newline_notMem_lineAfter (stretch ++ after)⟩

/-- A stretch that begins with a line end, behind a character of two bytes: it is on the line that
the line end ends, whose first character stands before the caret. -/
theorem showIn?_caret_newline :
    let text := ['é', '\n', 'a', 'b', '\n']
    (2 ≤ 4 ∧ (Text.splitAt? text 2).isSome = true ∧ (Text.splitAt? text 4).isSome = true) ∧
    ∃ u, of? text 2 4 = some u ∧ u.position = ⟨2, 1, 2⟩ ∧
      u.showIn? text = some (u.message ++ "\n" ++ "é" ++ "\n" ++ " " ++ "^\n") := by
  intro text
  have hstart : (Text.splitAt? text 2).isSome = true := by decide
  have hstop : (Text.splitAt? text 4).isSome = true := by decide
  refine ⟨⟨by decide, hstart, hstop⟩, ?_⟩
  obtain ⟨before, behind, u, line, shown, -, hof, -, hplace, hshow, -, rfl, hline, -, -, -⟩ :=
    showIn?_caret (by decide) hstart hstop
  have hposition : u.position = ⟨2, 1, 2⟩ := hplace.trans (by decide)
  rw [hposition] at hline hshow
  obtain rfl : ['é'] = line := Option.some.inj (Eq.trans (by decide) hline)
  exact ⟨u, hof, hposition, hshow⟩

end Unrecognized

end Translit
