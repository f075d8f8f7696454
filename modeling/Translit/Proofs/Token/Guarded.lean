import Mathlib
import Translit.Proofs.Text.Lines
import Translit.Proofs.Token.Gaps

/-!
# Cuts that lie between characters

Where a text is cut by byte offsets, an offset inside a character is fatal. Here the stretches that
are told of are cut out of the input at the bounds of the matches, and the line of a message out of
its text at the line ends that a search of the bytes finds; a cut that cannot be made is a trap.
None is met: the guarded functions come to what the plain ones do.

* `Trap` : reads where nothing is; `readToken`, `cutText` : reads that may trap;
* `Unrecognized.guardedOf`, `Unrecognized.guardedShow` : a stretch cut out, and a line cut out;
* `Piece.guardedUnrecognized` : the stretches that matches leave between them, by their bounds;
* `Piece.guardedUnrecognized_eq`, `Grammar.guardedTokenize_eq` : the same as by pieces;
* `Unrecognized.guardedShow_eq_ok_iff` : the same as by characters.
-/

namespace Translit

/-- What a program meets that reads where nothing is: a token outside of the row, the last of no
tokens, or the part of a text between two offsets that do not lie between characters in order. -/
inductive Trap where
  | token (index size : Nat)
  | noTokens
  | cut (start stop : Nat)
deriving DecidableEq

/-- The token at an index, which must lie in the row. -/
def readToken (tokens : Array String) (index : Nat) : Except Trap String :=
  match tokens[index]? with
  | some token => .ok token
  | none => .error (.token index tokens.size)

theorem readToken_eq {tokens : Array String} {index : Nat} (h : index < tokens.size) :
    readToken tokens index = .ok tokens[index] := by
  rw [readToken, Array.getElem?_eq_getElem h]

/-- The part of a text between two offsets, which must lie between characters in order. -/
def cutText (text : List Char) (start stop : Nat) : Except Trap (List Char) :=
  match if start ≤ stop then Text.slice? text start stop else none with
  | some part => .ok part
  | none => .error (.cut start stop)

theorem cutText_eq_ok_iff {text part : List Char} {start stop : Nat} :
    cutText text start stop = .ok part ↔ start ≤ stop ∧ Text.slice? text start stop = some part := by
  unfold cutText
  by_cases hle : start ≤ stop
  · rw [if_pos hle]
    cases Text.slice? text start stop <;> simp [hle]
  · rw [if_neg hle]
    simp [hle]

theorem cutText_bytes (before part after : List Char) :
    cutText (before ++ (part ++ after)) (Text.bytes before) (Text.bytes before + Text.bytes part) =
      .ok part :=
  cutText_eq_ok_iff.2 ⟨Nat.le_add_right _ _, Text.slice?_bytes before part after⟩

namespace Unrecognized

/-- The stretch of a text between two offsets, moved inside the text. -/
def guardedOf (text : List Char) (start stop : Nat) : Except Trap Unrecognized :=
  let stop := min stop (Text.bytes text)
  let start := min start stop
  (cutText text start stop).map (ofStretch text start)

theorem guardedOf_bytes (before stretch after : List Char) :
    guardedOf (before ++ (stretch ++ after)) (Text.bytes before)
        (Text.bytes before + Text.bytes stretch) =
      .ok (ofStretch (before ++ (stretch ++ after)) (Text.bytes before) stretch) := by
  have hstop : min (Text.bytes before + Text.bytes stretch)
      (Text.bytes (before ++ (stretch ++ after))) = Text.bytes before + Text.bytes stretch := by
    rw [Text.bytes_append, Text.bytes_append]
    omega
  have hstart : min (Text.bytes before) (Text.bytes before + Text.bytes stretch) =
      Text.bytes before := by
    omega
  unfold guardedOf
  dsimp only
  rw [hstop, hstart, cutText_bytes]
  rfl

/-- The message of a stretch, the line of `text` between the line ends before and behind its start,
and a caret; the line ends are looked for among the bytes. -/
def guardedShow (u : Unrecognized) (text : List Char) : Except Trap String := do
  let offset := min u.position.offset (Text.bytes text)
  let before ← cutText text 0 offset
  let after ← cutText text offset (Text.bytes text)
  let line ← cutText text (offset - (Text.utf8 before).reverse.idxOf Text.newline)
    (offset + (Text.utf8 after).idxOf Text.newline)
  pure (u.message ++ "\n" ++ String.ofList line ++ "\n"
    ++ String.ofList (List.replicate (u.position.column - 1) ' ') ++ "^\n")

theorem guardedShow_of_splitAt? {u : Unrecognized} {text before after : List Char}
    (h : Text.splitAt? text (min u.position.offset (Text.bytes text)) = some (before, after)) :
    u.guardedShow text =
      .ok (u.message ++ "\n" ++ String.ofList (lineBefore before ++ lineAfter after) ++ "\n"
        ++ String.ofList (List.replicate (u.position.column - 1) ' ') ++ "^\n") := by
  obtain ⟨rfl, hoffset⟩ := Text.splitAt?_eq_some_iff.1 h
  have hbefore : cutText (before ++ after) 0 (Text.bytes before) = .ok before := by
    have hcut := cutText_bytes [] before after
    rwa [Text.bytes_nil, Nat.zero_add] at hcut
  have hafter : cutText (before ++ after) (Text.bytes before) (Text.bytes (before ++ after)) =
      .ok after := by
    have hcut := cutText_bytes before after []
    rwa [List.append_nil, ← Text.bytes_append] at hcut
  have hline : cutText (before ++ after)
      (Text.bytes before - (Text.utf8 before).reverse.idxOf Text.newline)
      (Text.bytes before + (Text.utf8 after).idxOf Text.newline) =
        .ok (lineBefore before ++ lineAfter after) :=
    cutText_eq_ok_iff.2 ⟨by omega, Text.slice?_line before after⟩
  simp only [guardedShow, ← hoffset, hbefore, hafter, hline, bind, Except.bind, pure, Except.pure]

/-- The line found among the bytes is the one found among the characters; nothing traps unless the
stretch starts inside a character of the text. -/
theorem guardedShow_eq_ok_iff {u : Unrecognized} {text : List Char} {message : String} :
    u.guardedShow text = .ok message ↔ u.showIn? text = some message := by
  cases h : Text.splitAt? text (min u.position.offset (Text.bytes text)) with
  | none =>
    have hcut : cutText text 0 (min u.position.offset (Text.bytes text)) =
        .error (.cut 0 (min u.position.offset (Text.bytes text))) := by
      have hslice : Text.slice? text 0 (min u.position.offset (Text.bytes text)) = none := by
        rw [Text.slice?, Text.splitAt?, Option.bind_some, Nat.sub_zero, h]
        rfl
      rw [cutText, if_pos (Nat.zero_le _), hslice]
    simp only [guardedShow, hcut, bind, Except.bind, showIn?, h, Option.map_none, reduceCtorEq]
  | some parts =>
    obtain ⟨before, after⟩ := parts
    rw [guardedShow_of_splitAt? h, showIn?, h, Option.map_some, Except.ok.injEq, Option.some.injEq]

end Unrecognized

/-! ## Stretches between matches -/

namespace Piece

/-- The stretch between two offsets, if there is anything between them. -/
def guardedSpans (input : List Char) (start stop : Nat) : Except Trap (List Unrecognized) :=
  if start = stop then .ok [] else (Unrecognized.guardedOf input start stop).map ([·])

/-- The stretches that matches leave free, cut out of the input at the bounds of the matches: `stop`
is where the last match that counts ended, and the next one skips from `offset` on. -/
def guardedUnrecognized (input : List Char) :
    (stop offset : Nat) → List Pattern.Hit → Except Trap (List Unrecognized)
  | stop, _, [] => guardedSpans input stop (Text.bytes input)
  | stop, offset, h :: hits =>
    let start := offset + Text.bytes h.skipped
    let next := start + Text.bytes h.whole
    if Counts h then do
      let spans ← guardedSpans input stop start
      let rest ← guardedUnrecognized input next next hits
      pure (spans ++ rest)
    else guardedUnrecognized input stop next hits

theorem prependGap_prependGap (cs ds : List Char) (ps : List Piece) :
    prependGap cs (prependGap ds ps) = prependGap (cs ++ ds) ps := by
  cases cs with
  | nil => rfl
  | cons c cs =>
    cases ds with
    | nil => rw [List.append_nil, prependGap]
    | cons d ds =>
      cases ps with
      | nil => rfl
      | cons p ps => cases p <;> simp [prependGap]

/-- A stretch that is not empty is told of. -/
def spans (input : List Char) (offset : Nat) (cs : List Char) : List Unrecognized :=
  if cs = [] then [] else [.ofStretch input offset cs]

theorem unrecognized_prependGap_token (input : List Char) (offset : Nat) (cs whole text : List Char)
    (ps : List Piece) :
    unrecognized input offset (prependGap cs (token whole text :: ps)) =
      spans input offset cs ++
        unrecognized input (offset + Text.bytes cs + Text.bytes whole) ps := by
  cases cs <;> simp [prependGap, unrecognized, spans]

theorem unrecognized_prependGap_nil (input : List Char) (offset : Nat) (cs : List Char) :
    unrecognized input offset (prependGap cs []) = spans input offset cs := by
  cases cs <;> simp [prependGap, unrecognized, spans]

theorem guardedSpans_bytes {input before stretch after : List Char}
    (h : input = before ++ (stretch ++ after)) :
    guardedSpans input (Text.bytes before) (Text.bytes before + Text.bytes stretch) =
      .ok (spans input (Text.bytes before) stretch) := by
  unfold guardedSpans spans
  by_cases hempty : stretch = []
  · rw [if_pos hempty, hempty, Text.bytes_nil, Nat.add_zero, if_pos rfl]
  · have hpos := Text.bytes_pos hempty
    rw [if_neg hempty, if_neg (by omega), h, Unrecognized.guardedOf_bytes]
    rfl

/-- The stretches between the bounds of the matches are the gaps among the pieces. -/
theorem guardedUnrecognized_eq (before gap : List Char) {input rest : List Char}
    {hits : List Pattern.Hit} (h : input = before ++ (gap ++ Pattern.joined hits rest)) :
    guardedUnrecognized input (Text.bytes before) (Text.bytes (before ++ gap)) hits =
      .ok (unrecognized input (Text.bytes before) (prependGap gap (ofHits rest hits))) := by
  induction hits generalizing before gap with
  | nil =>
    have hjoined : input = before ++ ((gap ++ rest) ++ []) := by
      rw [h, List.append_nil]
      rfl
    have hstop : Text.bytes input = Text.bytes before + Text.bytes (gap ++ rest) := by
      rw [hjoined, List.append_nil, Text.bytes_append]
    rw [guardedUnrecognized, hstop, guardedSpans_bytes hjoined, ofHits, prependGap_prependGap,
      unrecognized_prependGap_nil]
  | cons hit hits ih =>
    have hjoined : Pattern.joined (hit :: hits) rest =
        hit.skipped ++ (hit.whole ++ Pattern.joined hits rest) := by
      simp only [Pattern.joined, List.flatMap_cons, List.append_assoc]
    rw [hjoined] at h
    have hstart : Text.bytes (before ++ gap) + Text.bytes hit.skipped =
        Text.bytes before + Text.bytes (gap ++ hit.skipped) := by
      rw [Text.bytes_append, Text.bytes_append, Nat.add_assoc]
    rw [guardedUnrecognized, ofHits]
    by_cases hcounts : Counts hit
    · -- the match ends the stretch before it, and the next one begins behind it
      have hspan : input =
          before ++ ((gap ++ hit.skipped) ++ (hit.whole ++ Pattern.joined hits rest)) := by
        rw [h]
        simp only [List.append_assoc]
      have hbehind : input =
          (before ++ gap ++ hit.skipped ++ hit.whole) ++ ([] ++ Pattern.joined hits rest) := by
        rw [h]
        simp only [List.append_assoc, List.nil_append]
      have hnext : Text.bytes before + Text.bytes (gap ++ hit.skipped) + Text.bytes hit.whole =
          Text.bytes (before ++ gap ++ hit.skipped ++ hit.whole) := by
        rw [Text.bytes_append _ hit.whole, List.append_assoc before, Text.bytes_append before]
      have hrest := ih _ _ hbehind
      rw [List.append_nil] at hrest
      rw [if_pos hcounts, if_pos hcounts, hstart, hnext, guardedSpans_bytes hspan, hrest,
        prependGap_prependGap, unrecognized_prependGap_token, hnext]
      rfl
    · -- the match belongs to the stretch before it
      have hlonger : input = before ++ ((gap ++ (hit.skipped ++ hit.whole)) ++
          Pattern.joined hits rest) := by
        rw [h]
        simp only [List.append_assoc]
      have hnext : Text.bytes (before ++ gap) + Text.bytes hit.skipped + Text.bytes hit.whole =
          Text.bytes (before ++ (gap ++ (hit.skipped ++ hit.whole))) := by
        simp only [Text.bytes_append]
        omega
      rw [if_neg hcounts, if_neg hcounts, hnext, ih _ _ hlonger, prependGap_prependGap]

end Piece

/-! ## Tokens -/

namespace Grammar

/-- The token sequence of an input, with stretches that are cut out of it. -/
def guardedTokenize (g : Grammar) (input : String) : Except Trap TokenSequence := do
  let cs := input.toList
  let spans ← Piece.guardedUnrecognized cs 0 0 (g.pattern.hits cs).1
  pure
    { tokens := (tokenRow g.whitespace g.isBlank
        (Piece.tokenTexts (Piece.all g.pattern cs))).toArray
      unrecognized := spans }

theorem guardedTokenize_eq (g : Grammar) (input : String) :
    g.guardedTokenize input = .ok (g.tokenize input) := by
  have hspans : Piece.guardedUnrecognized input.toList 0 0 (g.pattern.hits input.toList).1 =
      .ok (Piece.unrecognized input.toList 0 (Piece.all g.pattern input.toList)) :=
    Piece.guardedUnrecognized_eq [] [] (Pattern.joined_hits g.pattern input.toList).symm
  rw [guardedTokenize]
  simp only [hspans]
  rfl

/-- A stretch that is told of starts between two characters of the input. -/
theorem exists_showIn? (g : Grammar) {input : String} {u : Unrecognized}
    (hu : u ∈ (g.tokenize input).unrecognized) :
    ∃ message, u.showIn? input.toList = some message := by
  obtain ⟨stretch, hslice, -⟩ := g.exists_slice?_of_mem_unrecognized hu
  obtain ⟨⟨before, after⟩, hsplit, -⟩ := Option.bind_eq_some_iff.1 hslice
  obtain ⟨htext, hoffset⟩ := Text.splitAt?_eq_some_iff.1 hsplit
  have hle : u.position.offset ≤ Text.bytes input.toList := by
    rw [htext, Text.bytes_append, hoffset]
    exact Nat.le_add_right _ _
  rw [Unrecognized.showIn?, Nat.min_eq_left hle, hsplit]
  exact ⟨_, rfl⟩

end Grammar

end Translit
