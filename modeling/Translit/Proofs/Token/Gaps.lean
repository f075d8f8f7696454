import Mathlib
import Translit.Token.Sequence

/-!
# Stretches without tokens

The matches that count cover some bytes of an input. What is told of as unrecognized are the longest
stretches of the other bytes, each once and from left to right, so every byte lies in one match that
counts or in one such stretch.

* `Stretch` : the longest stretches that ranges leave free;
* `Grammar.matchRanges` : where the matches that count lie; `map_slice?_matchRanges` : their texts;
* `mem_ranges_isGap_iff` : the gaps among pieces are the stretches that the tokens leave free;
* `exists_slice?_of_mem_unrecognized` : where an unrecognized part lies and what it shows;
* `unrecognized_tokenize` : these parts are the stretches that the matches leave free.
-/

namespace Translit

/-! ## Ranges and what they leave free -/

/-- A byte lies in one of the ranges, each from its start up to its stop. -/
def Covered (ranges : List (Nat × Nat)) (i : Nat) : Prop := ∃ r ∈ ranges, r.1 ≤ i ∧ i < r.2

/-- The bytes from `a` to `b` are a stretch between `start` and `stop` that is free of the ranges,
is not empty and cannot be longer on either side. -/
structure Stretch (ranges : List (Nat × Nat)) (start stop a b : Nat) : Prop where
  start_le : start ≤ a
  lt : a < b
  le_stop : b ≤ stop
  free : ∀ i, a ≤ i → i < b → ¬ Covered ranges i
  left : a = start ∨ Covered ranges (a - 1)
  right : b = stop ∨ Covered ranges b

theorem covered_cons {r : Nat × Nat} {ranges : List (Nat × Nat)} {i : Nat} :
    Covered (r :: ranges) i ↔ (r.1 ≤ i ∧ i < r.2) ∨ Covered ranges i := by
  unfold Covered
  simp only [List.mem_cons, or_and_right, exists_or, exists_eq_left]

section
variable {ranges : List (Nat × Nat)} {start middle stop a b : Nat}

/-- Behind a range that begins at the start, the same stretches are free. -/
theorem stretch_cons (hlt : start < middle) (hbehind : ∀ i, Covered ranges i → middle ≤ i) :
    Stretch ((start, middle) :: ranges) start stop a b ↔ Stretch ranges middle stop a b := by
  constructor
  · rintro ⟨hstart, hab, hstop, hfree, hleft, hright⟩
    have hmiddle : middle ≤ a := by
      have ha := hfree a (Nat.le_refl a) hab
      rw [covered_cons, not_or] at ha
      omega
    refine ⟨hmiddle, hab, hstop, ?_, ?_, ?_⟩
    · intro i hai hib hi
      exact hfree i hai hib (covered_cons.2 (.inr hi))
    · rcases hleft with rfl | hleft
      · omega
      · rcases covered_cons.1 hleft with ⟨-, hlast⟩ | hleft
        · exact .inl (by omega)
        · exact .inr hleft
    · refine hright.imp_right fun hright => ?_
      exact (covered_cons.1 hright).resolve_left (by omega)
  · rintro ⟨hstart, hab, hstop, hfree, hleft, hright⟩
    refine ⟨by omega, hab, hstop, ?_, ?_, ?_⟩
    · intro i hai hib hi
      rcases covered_cons.1 hi with hi | hi
      · omega
      · exact hfree i hai hib hi
    · rcases hleft with rfl | hleft
      · exact .inr (covered_cons.2 (.inl ⟨by omega, by omega⟩))
      · exact .inr (covered_cons.2 (.inr hleft))
    · exact hright.imp_right fun hright => covered_cons.2 (.inr hright)

/-- What is free up to the first range is one stretch, and the others lie behind. -/
theorem stretch_iff (hlt : start < middle) (hle : middle ≤ stop)
    (hbehind : ∀ i, Covered ranges i → middle ≤ i)
    (hmiddle : middle = stop ∨ Covered ranges middle) :
    Stretch ranges start stop a b ↔
      (a = start ∧ b = middle) ∨ Stretch ranges middle stop a b := by
  constructor
  · rintro ⟨hstart, hab, hstop, hfree, hleft, hright⟩
    by_cases ha : a < middle
    · refine .inl ⟨?_, ?_⟩
      · refine hleft.resolve_right fun hleft => ?_
        have := hbehind _ hleft
        omega
      · -- the stretch reaches the middle, and does not go on there
        have hge : middle ≤ b := by
          rcases hright with rfl | hright
          · exact hle
          · exact hbehind b hright
        rcases hmiddle with rfl | hmiddle
        · omega
        · have hnot := hfree middle (by omega)
          exact Nat.le_antisymm (Nat.le_of_not_lt fun hlt => hnot hlt hmiddle) hge
    · refine .inr ⟨by omega, hab, hstop, hfree, ?_, hright⟩
      exact hleft.imp_left fun h => by omega
  · rintro (⟨rfl, rfl⟩ | ⟨hstart, hab, hstop, hfree, hleft, hright⟩)
    · refine ⟨Nat.le_refl a, hlt, hle, ?_, .inl rfl, hmiddle⟩
      intro i _ hib hi
      have := hbehind i hi
      omega
    · refine ⟨by omega, hab, hstop, hfree, ?_, hright⟩
      -- no stretch begins at the middle, where the first range begins
      rcases hleft with rfl | hleft
      · rcases hmiddle with rfl | hmiddle
        · omega
        · exact absurd hmiddle (hfree a (Nat.le_refl a) hab)
      · exact .inr hleft

end

/-! ## Where pieces lie -/

namespace Piece

/-- The match and the text it gives are not empty. -/
abbrev Counts (h : Pattern.Hit) : Prop := h.whole ≠ [] ∧ chosen h ≠ []

/-- The byte ranges of the matches that count, of a row whose first match skips from `offset` on. -/
def matchRanges : Nat → List Pattern.Hit → List (Nat × Nat)
  | _, [] => []
  | offset, h :: hits =>
    let start := offset + Text.bytes h.skipped
    let stop := start + Text.bytes h.whole
    if Counts h then (start, stop) :: matchRanges stop hits else matchRanges stop hits

/-- Whether a piece is a gap between tokens. -/
def isGap : Piece → Bool
  | gap _ => true
  | token _ _ => false

/-- The byte ranges of some of the pieces in a row that starts at `offset`. -/
def ranges (keep : Piece → Bool) : Nat → List Piece → List (Nat × Nat)
  | _, [] => []
  | offset, p :: ps =>
    let stop := offset + Text.bytes p.text
    if keep p then (offset, stop) :: ranges keep stop ps else ranges keep stop ps

/-- No piece is empty and no two gaps are neighbours. -/
def Apart : List Piece → Prop
  | [] => True
  | p :: ps => p.text ≠ [] ∧ (p.isGap = true → ∀ q ∈ ps.head?, q.isGap = false) ∧ Apart ps

theorem apart_prependGap (cs : List Char) {ps : List Piece} (h : Apart ps) :
    Apart (prependGap cs ps) := by
  unfold prependGap
  split
  · exact h
  · next hcs =>
    obtain ⟨-, hnext, hps⟩ := h
    refine ⟨?_, hnext, hps⟩
    intro hnil
    exact hcs (List.append_eq_nil_iff.1 hnil).1
  · next hcs hgap =>
    refine ⟨hcs, ?_, h⟩
    intro _ q hq
    cases ps with
    | nil => cases hq
    | cons p ps =>
      obtain rfl : p = q := Option.some.inj hq
      cases p with
      | gap ds => exact absurd rfl (hgap ds ps)
      | token => rfl

theorem apart_ofHits (rest : List Char) (hits : List Pattern.Hit) : Apart (ofHits rest hits) := by
  induction hits with
  | nil => exact apart_prependGap rest trivial
  | cons h hits ih =>
    unfold ofHits
    split
    · next hcounts =>
      apply apart_prependGap
      exact ⟨hcounts.1, fun hgap => absurd hgap Bool.false_ne_true, ih⟩
    · exact apart_prependGap _ ih

theorem ranges_prependGap (offset : Nat) (cs : List Char) (ps : List Piece) :
    ranges (!·.isGap) offset (prependGap cs ps) =
      ranges (!·.isGap) (offset + Text.bytes cs) ps := by
  unfold prependGap
  split
  · rfl
  · simp [ranges, isGap, text, Nat.add_assoc]
  · rfl

/-- The tokens among the pieces lie where the matches that count do. -/
theorem ranges_ofHits (offset : Nat) (rest : List Char) (hits : List Pattern.Hit) :
    ranges (!·.isGap) offset (ofHits rest hits) = matchRanges offset hits := by
  induction hits generalizing offset with
  | nil => exact ranges_prependGap offset rest []
  | cons h hits ih =>
    unfold ofHits matchRanges
    by_cases hcounts : Counts h
    · rw [if_pos hcounts, if_pos hcounts, ranges_prependGap, ← ih]
      rfl
    · rw [if_neg hcounts, if_neg hcounts, ranges_prependGap, Text.bytes_append, ← Nat.add_assoc, ih]

theorem le_of_mem_ranges {keep : Piece → Bool} {offset : Nat} {ps : List Piece} {r : Nat × Nat}
    (h : r ∈ ranges keep offset ps) : offset ≤ r.1 := by
  induction ps generalizing offset with
  | nil => cases h
  | cons p ps ih =>
    rw [ranges] at h
    split at h
    · rcases List.mem_cons.1 h with rfl | h
      · exact Nat.le_refl _
      · exact Nat.le_trans (Nat.le_add_right _ _) (ih h)
    · exact Nat.le_trans (Nat.le_add_right _ _) (ih h)

theorem le_of_covered_ranges {keep : Piece → Bool} {offset i : Nat} {ps : List Piece}
    (h : Covered (ranges keep offset ps) i) : offset ≤ i := by
  obtain ⟨r, hr, hri, -⟩ := h
  exact Nat.le_trans (le_of_mem_ranges hr) hri

/-- A token behind a gap begins where the gap ends. -/
theorem covered_of_apart {p : Piece} {ps : List Piece} (hgap : p.isGap = true)
    (h : Apart (p :: ps)) (offset : Nat) :
    offset = offset + Text.bytes (ps.flatMap text) ∨
      Covered (ranges (!·.isGap) offset ps) offset := by
  obtain ⟨-, hnext, hps⟩ := h
  cases ps with
  | nil => exact .inl rfl
  | cons q ps =>
    have htoken : q.isGap = false := hnext hgap q rfl
    refine .inr ⟨(offset, offset + Text.bytes q.text), ?_, Nat.le_refl _, ?_⟩
    · simp [ranges, htoken]
    · exact Nat.lt_add_of_pos_right (Text.bytes_pos hps.1)

/-- The gaps among pieces are the longest stretches that the tokens leave free. -/
theorem mem_ranges_isGap_iff {ps : List Piece} (h : Apart ps) (offset a b : Nat) :
    (a, b) ∈ ranges isGap offset ps ↔
      Stretch (ranges (!·.isGap) offset ps) offset (offset + Text.bytes (ps.flatMap text)) a b := by
  induction ps generalizing offset with
  | nil =>
    refine iff_of_false List.not_mem_nil ?_
    rintro ⟨hstart, hab, hstop, -, -, -⟩
    change b ≤ offset + 0 at hstop
    omega
  | cons p ps ih =>
    have hlt : offset < offset + Text.bytes p.text :=
      Nat.lt_add_of_pos_right (Text.bytes_pos h.1)
    have hbehind (i : Nat) (hi : Covered (ranges (!·.isGap) (offset + Text.bytes p.text) ps) i) :
        offset + Text.bytes p.text ≤ i := le_of_covered_ranges hi
    rw [List.flatMap_cons, Text.bytes_append, ← Nat.add_assoc, ranges, ranges]
    cases hp : p.isGap with
    | false =>
      rw [if_neg Bool.false_ne_true, Bool.not_false, if_pos rfl, stretch_cons hlt hbehind]
      exact ih h.2.2 _
    | true =>
      rw [if_pos rfl, Bool.not_true, if_neg Bool.false_ne_true,
        stretch_iff hlt (Nat.le_add_right _ _) hbehind (covered_of_apart hp h _), List.mem_cons,
        Prod.mk.injEq, ih h.2.2]

theorem pairwise_ranges_isGap {ps : List Piece} (h : Apart ps) (offset : Nat) :
    (ranges isGap offset ps).Pairwise fun r s => r.2 < s.1 := by
  induction ps generalizing offset with
  | nil => exact .nil
  | cons p ps ih =>
    rw [ranges]
    cases hp : p.isGap with
    | false =>
      rw [if_neg Bool.false_ne_true]
      exact ih h.2.2 _
    | true =>
      rw [if_pos rfl]
      refine .cons ?_ (ih h.2.2 _)
      intro s hs
      have hle : offset + Text.bytes p.text ≤ s.1 := le_of_mem_ranges hs
      refine Nat.lt_of_le_of_ne hle ?_
      -- a gap that began at once would be a free stretch where the next token lies
      intro heq
      replace heq : offset + Text.bytes p.text = s.1 := heq
      have hstretch := (mem_ranges_isGap_iff h.2.2 _ s.1 s.2).1 hs
      rcases covered_of_apart hp h (offset + Text.bytes p.text) with hend | hcovered
      · have := hstretch.lt
        have := hstretch.le_stop
        omega
      · rw [heq] at hcovered hstretch
        exact hstretch.free s.1 (Nat.le_refl _) hstretch.lt hcovered

/-- Each byte lies in a token or in a gap. -/
theorem covered_ranges {offset i : Nat} {ps : List Piece} (hle : offset ≤ i)
    (hlt : i < offset + Text.bytes (ps.flatMap text)) :
    Covered (ranges isGap offset ps) i ∨ Covered (ranges (!·.isGap) offset ps) i := by
  induction ps generalizing offset with
  | nil => exact absurd hlt (Nat.not_lt_of_le hle)
  | cons p ps ih =>
    rw [List.flatMap_cons, Text.bytes_append, ← Nat.add_assoc] at hlt
    rw [ranges, ranges]
    by_cases hfirst : i < offset + Text.bytes p.text
    · cases hp : p.isGap with
      | false => exact .inr (covered_cons.2 (.inl ⟨hle, hfirst⟩))
      | true => exact .inl (covered_cons.2 (.inl ⟨hle, hfirst⟩))
    · have hrest := ih (Nat.le_of_not_lt hfirst) hlt
      cases hp : p.isGap with
      | false => exact hrest.imp_right fun h => covered_cons.2 (.inr h)
      | true => exact hrest.imp_left fun h => covered_cons.2 (.inr h)

/-- There are no gaps just if the tokens cover every byte. -/
theorem ranges_isGap_eq_nil_iff {ps : List Piece} (h : Apart ps) (offset : Nat) :
    ranges isGap offset ps = [] ↔
      ∀ i, offset ≤ i → i < offset + Text.bytes (ps.flatMap text) →
        Covered (ranges (!·.isGap) offset ps) i := by
  constructor
  · intro hnil i hle hlt
    have hi := covered_ranges hle hlt
    rw [hnil] at hi
    refine hi.resolve_left ?_
    rintro ⟨r, hr, -⟩
    cases hr
  · intro hall
    refine List.eq_nil_iff_forall_not_mem.2 fun r hr => ?_
    have hstretch := (mem_ranges_isGap_iff h offset r.1 r.2).1 hr
    have hstart := hall r.1 hstretch.start_le (Nat.lt_of_lt_of_le hstretch.lt hstretch.le_stop)
    exact hstretch.free r.1 (Nat.le_refl _) hstretch.lt hstart

/-- The tokens and the gaps together have as many bytes as the pieces. -/
theorem sum_ranges (offset : Nat) (ps : List Piece) :
    ((ranges isGap offset ps).map fun r => r.2 - r.1).sum +
        ((ranges (!·.isGap) offset ps).map fun r => r.2 - r.1).sum =
      Text.bytes (ps.flatMap text) := by
  induction ps generalizing offset with
  | nil => rfl
  | cons p ps ih =>
    have hrest := ih (offset + Text.bytes p.text)
    rw [List.flatMap_cons, Text.bytes_append, ranges, ranges, ← hrest]
    cases hp : p.isGap with
    | false =>
      rw [if_neg Bool.false_ne_true, Bool.not_false, if_pos rfl, List.map_cons, List.sum_cons]
      omega
    | true =>
      rw [if_pos rfl, Bool.not_true, if_neg Bool.false_ne_true, List.map_cons, List.sum_cons]
      omega

/-- Each stretch that is told of is a part of the input and starts where what is before it ends. -/
theorem exists_of_mem_unrecognized {before : List Char} {ps : List Piece} {input : List Char}
    {u : Unrecognized} (h : u ∈ unrecognized input (Text.bytes before) ps) :
    ∃ skipped stretch after, ps.flatMap text = skipped ++ (stretch ++ after) ∧
      u = .ofStretch input (Text.bytes (before ++ skipped)) stretch := by
  induction ps generalizing before with
  | nil => cases h
  | cons p ps ih =>
    have hrest (h : u ∈ unrecognized input (Text.bytes before + Text.bytes p.text) ps) :
        ∃ skipped stretch after, (p :: ps).flatMap text = skipped ++ (stretch ++ after) ∧
          u = .ofStretch input (Text.bytes (before ++ skipped)) stretch := by
      rw [← Text.bytes_append] at h
      obtain ⟨skipped, stretch, after, htexts, hu⟩ := ih h
      refine ⟨p.text ++ skipped, stretch, after, ?_, ?_⟩
      · rw [List.flatMap_cons, htexts, List.append_assoc]
      · rw [hu, List.append_assoc]
    cases p with
    | token whole chosen => exact hrest h
    | gap cs =>
      rcases List.mem_cons.1 h with rfl | h
      · exact ⟨[], cs, ps.flatMap text, rfl, by rw [List.append_nil]⟩
      · exact hrest h

/-- The ranges of the matches that count hold their texts, in the order of the matches. -/
theorem map_slice?_matchRanges (before rest : List Char) (hits : List Pattern.Hit) :
    ((matchRanges (Text.bytes before) hits).map fun r =>
        Text.slice? (before ++ Pattern.joined hits rest) r.1 r.2) =
      (hits.filter fun h => Counts h).map fun h => some h.whole := by
  induction hits generalizing before with
  | nil => rfl
  | cons h hits ih =>
    have hbytes : Text.bytes before + Text.bytes h.skipped = Text.bytes (before ++ h.skipped) :=
      (Text.bytes_append _ _).symm
    have htext : before ++ Pattern.joined (h :: hits) rest =
        (before ++ h.skipped) ++ (h.whole ++ Pattern.joined hits rest) := by
      simp only [Pattern.joined, List.flatMap_cons, List.append_assoc]
    have hrest := ih (before ++ h.skipped ++ h.whole)
    rw [List.append_assoc _ h.whole, ← htext, Text.bytes_append] at hrest
    rw [matchRanges, hbytes]
    by_cases hcounts : Counts h
    · rw [if_pos hcounts, List.map_cons, hrest, List.filter_cons, decide_eq_true hcounts,
        if_pos rfl, htext, Text.slice?_bytes, List.map_cons]
    · rw [if_neg hcounts, hrest, List.filter_cons, decide_eq_false hcounts,
        if_neg Bool.false_ne_true]

end Piece

/-! ## The stretches of an input -/

/-- The byte range of a stretch that is told of. -/
def Unrecognized.range (u : Unrecognized) : Nat × Nat :=
  (u.position.offset, u.position.offset + u.length)

theorem Unrecognized.range_ofStretch {text : List Char} {offset : Nat}
    (h : offset ≤ Text.bytes text) (stretch : List Char) :
    (ofStretch text offset stretch).range = (offset, offset + Text.bytes stretch) := by
  change (min offset _, min offset _ + _) = _
  rw [Nat.min_eq_left h]
  rfl

theorem Piece.map_range_unrecognized {input : List Char} {offset : Nat} {ps : List Piece}
    (h : offset + Text.bytes (ps.flatMap text) ≤ Text.bytes input) :
    (unrecognized input offset ps).map Unrecognized.range = ranges isGap offset ps := by
  induction ps generalizing offset with
  | nil => rfl
  | cons p ps ih =>
    rw [List.flatMap_cons, Text.bytes_append, ← Nat.add_assoc] at h
    have hrest := ih h
    cases p with
    | token whole chosen => exact hrest
    | gap cs =>
      have hfirst : (Unrecognized.ofStretch input offset cs).range =
          (offset, offset + Text.bytes cs) :=
        Unrecognized.range_ofStretch (by omega) cs
      change (Unrecognized.ofStretch input offset cs).range ::
          (unrecognized input (offset + Text.bytes (gap cs).text) ps).map Unrecognized.range = _
      rw [hfirst, hrest]
      rfl

/-- The byte ranges of the matches of an input that count. -/
def Grammar.matchRanges (g : Grammar) (input : String) : List (Nat × Nat) :=
  Piece.matchRanges 0 (g.pattern.hits input.toList).1

/-- Each match that counts lies in the input where its range says. -/
theorem Grammar.map_slice?_matchRanges (g : Grammar) (input : String) :
    ((g.matchRanges input).map fun r => Text.slice? input.toList r.1 r.2) =
      ((g.pattern.hits input.toList).1.filter fun h => Piece.Counts h).map
        fun h => some h.whole := by
  have h := Piece.map_slice?_matchRanges [] (g.pattern.hits input.toList).2
    (g.pattern.hits input.toList).1
  rw [Pattern.joined_hits] at h
  exact h

/-- Each unrecognized part lies in the input where it says, and shows how that begins. -/
theorem Grammar.exists_slice?_of_mem_unrecognized (g : Grammar) {input : String} {u : Unrecognized}
    (hu : u ∈ (g.tokenize input).unrecognized) :
    ∃ stretch,
      Text.slice? input.toList u.position.offset (u.position.offset + u.length) = some stretch ∧
      u.snippet = String.ofList (stretch.take 32) := by
  have hu : u ∈ Piece.unrecognized input.toList (Text.bytes [])
    (Piece.all g.pattern input.toList) := hu
  obtain ⟨before, stretch, after, htexts, rfl⟩ := Piece.exists_of_mem_unrecognized hu
  rw [Piece.texts_pieces] at htexts
  have hle : Text.bytes before ≤ Text.bytes input.toList := by
    rw [htexts, Text.bytes_append]
    exact Nat.le_add_right _ _
  obtain ⟨hoffset, hstop⟩ := Prod.mk.inj (Unrecognized.range_ofStretch hle stretch)
  refine ⟨stretch, ?_, rfl⟩
  rw [List.nil_append, hstop, hoffset, htexts, Text.slice?_bytes]

/-- **No byte is lost or told of twice.** The unrecognized parts of an input are the longest
stretches that the matches that count leave free. They are told of from left to right, with at
least a byte between them, and have together with those matches as many bytes as the input. There
are none just if the matches cover it, and each is shown by its first 32 characters at most. -/
theorem Grammar.unrecognized_tokenize (g : Grammar) (input : String) :
    let ranges := g.matchRanges input
    let spans := (g.tokenize input).unrecognized
    (∀ a b, (a, b) ∈ spans.map Unrecognized.range ↔ Stretch ranges 0 input.utf8ByteSize a b) ∧
    (spans.Pairwise fun u v => u.position.offset + u.length < v.position.offset) ∧
    (spans.map Unrecognized.length).sum + (ranges.map fun r => r.2 - r.1).sum =
      input.utf8ByteSize ∧
    ((g.tokenize input).isClean = true ↔ ∀ i < input.utf8ByteSize, Covered ranges i) ∧
    ∀ u ∈ spans, ∃ stretch,
      Text.slice? input.toList u.position.offset (u.position.offset + u.length) = some stretch ∧
      u.snippet = String.ofList (stretch.take 32) := by
  intro ranges spans
  have hapart : Piece.Apart (Piece.all g.pattern input.toList) := Piece.apart_ofHits _ _
  have hsize : Text.bytes ((Piece.all g.pattern input.toList).flatMap Piece.text) =
      input.utf8ByteSize := by
    rw [Piece.texts_pieces, Text.bytes_toList]
  have htokens : Piece.ranges (!·.isGap) 0 (Piece.all g.pattern input.toList) = ranges :=
    Piece.ranges_ofHits 0 _ _
  have hgaps : spans.map Unrecognized.range =
      Piece.ranges Piece.isGap 0 (Piece.all g.pattern input.toList) := by
    apply Piece.map_range_unrecognized
    apply Nat.le_of_eq
    rw [Nat.zero_add, Piece.texts_pieces]
  have hstretch (a b : Nat) :
      (a, b) ∈ spans.map Unrecognized.range ↔ Stretch ranges 0 input.utf8ByteSize a b := by
    rw [hgaps, Piece.mem_ranges_isGap_iff hapart, htokens, hsize, Nat.zero_add]
  refine ⟨hstretch, ?_, ?_, ?_, ?_⟩
  · have h := Piece.pairwise_ranges_isGap hapart 0
    rw [← hgaps, List.pairwise_map] at h
    exact h
  · have h := Piece.sum_ranges 0 (Piece.all g.pattern input.toList)
    rw [← hgaps, htokens, hsize, List.map_map] at h
    rw [← h]
    congr 2
    apply List.map_congr_left
    intro u hu
    exact (Nat.add_sub_cancel_left _ _).symm
  · have h := Piece.ranges_isGap_eq_nil_iff hapart 0
    rw [← hgaps, htokens, hsize, Nat.zero_add, List.map_eq_nil_iff] at h
    have hclean : (g.tokenize input).isClean = true ↔ spans = [] := List.isEmpty_iff
    rw [hclean, h]
    exact ⟨fun hall i hi => hall i (Nat.zero_le i) hi, fun hall i _ hi => hall i hi⟩
  · exact fun u hu => g.exists_slice?_of_mem_unrecognized hu

/-- A match of `b` with an empty group does not count, so `b` belongs to the stretch before it. -/
example :
    (Piece.unrecognized "éba%".toList 0
      (Piece.ofHits ['%'] [⟨['é'], ['b'], [some []]⟩, ⟨[], ['a'], [none]⟩])).map
        Unrecognized.range = [(0, 3), (4, 5)] := by
  decide

end Translit
