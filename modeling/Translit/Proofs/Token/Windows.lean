import Mathlib.Data.List.Forall2
import Translit.Proofs.Grammar.Automaton

/-!
# Windows as parts of a row

What windows ask for is that the row of tokens can be cut in pieces: a window from an index on is a
first piece of what lies behind the index, one before an index is a last piece of what lies before.
With the pieces in their order the offsets of the windows need no mention.

* `windowFits_iff`, `windowFitsBefore_iff` : a window by the pieces of the row;
* `all_windowFits_iff`, `all_windowFitsBefore_iff` : a window that may be absent;
* `Constraints.behind_iff`, `Constraints.before_iff` : the two windows on either side of a rule;
* `Constraints.hold_iff` : all windows of an edge.
-/

namespace Translit

/-- Each token fits the value at its place, and there are as many of either. -/
abbrev Fitting (fits : String → String → Bool) : List String → List String → Prop :=
  List.Forall₂ fun token value => fits token value = true

theorem fitting_iff_zip {fits : String → String → Bool} {window values : List String}
    (h : window.length = values.length) :
    ((window.zip values).all fun p => fits p.1 p.2) = true ↔ Fitting fits window values := by
  rw [List.all_eq_true, Fitting, List.forall₂_iff_zip]
  exact ⟨fun hall => ⟨h, fun hp => hall _ hp⟩, fun hall p hp => hall.2 hp⟩

theorem fitting_beq_iff {window values : List String} :
    Fitting (· == ·) window values ↔ window = values := by
  simp only [Fitting, beq_iff_eq, List.forall₂_eq_eq_eq]

/-! ## One window -/

section Window

variable {fits : String → String → Bool} {tokens : Array String} {index offset : Nat}

/-- A row is cut in what lies before a span, the span and what lies behind it. -/
theorem exists_span {count : Nat} (hindex : index ≤ tokens.size) (hcount : count ≤ index) :
    ∃ span, tokens.toList =
      tokens.toList.take (index - count) ++ (span ++ tokens.toList.drop index) ∧
      span.length = count := by
  refine ⟨(tokens.toList.drop (index - count)).take count, ?_, ?_⟩
  · have hdrop : tokens.toList.drop index = (tokens.toList.drop (index - count)).drop count := by
      rw [List.drop_drop, Nat.sub_add_cancel hcount]
    rw [hdrop, List.take_append_drop, List.take_append_drop]
  · rw [List.length_take, List.length_drop, Array.length_toList]
    omega

theorem extract_toList (tokens : Array String) (start count : Nat) :
    (tokens.extract start (start + count)).toList = (tokens.toList.drop start).take count := by
  rw [Array.toList_extract, List.extract_eq_take_drop, Nat.add_sub_cancel_left]

/-- A window from an index on is a first piece of the tokens from there on. -/
theorem windowFits_iff {values : List String} (hindex : index ≤ tokens.size) :
    windowFits fits tokens index values = true ↔
      ∃ window rest, tokens.toList.drop index = window ++ rest ∧ Fitting fits window values := by
  have hlength : (tokens.toList.drop index).length = tokens.size - index := by
    rw [List.length_drop, Array.length_toList]
  unfold windowFits
  rw [extract_toList, Bool.and_eq_true, decide_eq_true_iff]
  constructor
  · rintro ⟨hroom, hfits⟩
    refine ⟨_, _, (List.take_append_drop values.length _).symm, (fitting_iff_zip ?_).1 hfits⟩
    rw [List.length_take]
    omega
  · rintro ⟨window, rest, hrow, hfits⟩
    have hwindow : window.length = values.length := hfits.length_eq
    rw [hrow, List.length_append] at hlength
    rw [hrow, List.take_left' hwindow, fitting_iff_zip hwindow]
    exact ⟨by omega, hfits⟩

/-- A window before some tokens is a last piece of what lies before these. -/
theorem windowFitsBefore_iff {values : List String} (hoffset : offset ≤ index)
    (hindex : index ≤ tokens.size) :
    windowFitsBefore fits tokens index offset values = true ↔
      ∃ rest window, tokens.toList.take (index - offset) = rest ++ window ∧
        Fitting fits window values := by
  have hlength : (tokens.toList.take (index - offset)).length = index - offset := by
    rw [List.length_take, Array.length_toList]
    omega
  unfold windowFitsBefore
  rw [Bool.and_eq_true, decide_eq_true_iff, windowFits_iff (by omega)]
  constructor
  · rintro ⟨hroom, window, rest, hrow, hfits⟩
    have hwindow : window.length = values.length := hfits.length_eq
    -- the tokens up to the end of the window are those before it and the window
    have hstop : index - offset = index - (offset + values.length) + window.length := by omega
    refine ⟨tokens.toList.take (index - (offset + values.length)), window, ?_, hfits⟩
    rw [hstop, List.take_add, hrow, List.take_left]
  · rintro ⟨rest, window, hrow, hfits⟩
    have hwindow : window.length = values.length := hfits.length_eq
    rw [hrow, List.length_append] at hlength
    have hstart : index - (offset + values.length) = rest.length := by omega
    refine ⟨by omega, window, tokens.toList.drop (index - offset), ?_, hfits⟩
    conv_lhs => rw [← List.take_append_drop (index - offset) tokens.toList, hrow]
    rw [hstart, List.append_assoc, List.drop_left]

/-- A window from an index on that is absent is an empty piece. -/
theorem all_windowFits_iff {window : Option (List String)} (hindex : index ≤ tokens.size) :
    (window.all fun values => windowFits fits tokens index values) = true ↔
      ∃ piece rest, tokens.toList.drop index = piece ++ rest ∧
        Fitting fits piece (window.getD []) := by
  cases window with
  | none => exact iff_of_true rfl ⟨[], _, rfl, .nil⟩
  | some values => exact windowFits_iff hindex

/-- A window before some tokens that is absent is an empty piece. -/
theorem all_windowFitsBefore_iff {window : Option (List String)} (hoffset : offset ≤ index)
    (hindex : index ≤ tokens.size) :
    (window.all fun values => windowFitsBefore fits tokens index offset values) = true ↔
      ∃ rest piece, tokens.toList.take (index - offset) = rest ++ piece ∧
        Fitting fits piece (window.getD []) := by
  cases window with
  | none => exact iff_of_true rfl ⟨_, [], (List.append_nil _).symm, .nil⟩
  | some values => exact windowFitsBefore_iff hoffset hindex

end Window

/-! ## The windows of an edge -/

namespace Constraints

variable {hasClass : String → String → Bool} {c : Constraints} {tokens : Array String}
  {index count : Nat}

/-- The windows behind a rule are the first two pieces of what lies behind it. -/
theorem behind_iff (hindex : index ≤ tokens.size) :
    ((c.nextTokens.all fun vs => windowFits (· == ·) tokens index vs) = true ∧
      (c.nextClasses.all fun vs =>
        windowFits hasClass tokens (index + width c.nextTokens) vs) = true) ↔
      ∃ classes rest, tokens.toList.drop index = c.nextTokens.getD [] ++ classes ++ rest ∧
        Fitting hasClass classes (c.nextClasses.getD []) := by
  -- the second window is looked at from where the first one ends, if that is in the row
  have hbehind {rest : List String} (hrow : tokens.toList.drop index = c.nextTokens.getD [] ++ rest) :
      index + width c.nextTokens ≤ tokens.size ∧
        tokens.toList.drop (index + width c.nextTokens) = rest := by
    have hlength := congrArg List.length hrow
    rw [List.length_drop, Array.length_toList, List.length_append] at hlength
    refine ⟨by unfold width; omega, ?_⟩
    rw [← List.drop_drop, hrow, width, List.drop_left]
  rw [all_windowFits_iff hindex]
  constructor
  · rintro ⟨⟨piece, rest, hrow, hpiece⟩, hclasses⟩
    obtain rfl := fitting_beq_iff.1 hpiece
    obtain ⟨hroom, hdrop⟩ := hbehind hrow
    obtain ⟨classes, rest', hrest, hfits⟩ := (all_windowFits_iff hroom).1 hclasses
    refine ⟨classes, rest', ?_, hfits⟩
    rw [hrow, ← hdrop, hrest, List.append_assoc]
  · rintro ⟨classes, rest, hrow, hfits⟩
    rw [List.append_assoc] at hrow
    obtain ⟨hroom, hdrop⟩ := hbehind hrow
    exact ⟨⟨_, _, hrow, fitting_beq_iff.2 rfl⟩, (all_windowFits_iff hroom).2 ⟨_, _, hdrop, hfits⟩⟩

/-- The windows before a rule are the last two pieces of what lies before it. -/
theorem before_iff (hindex : index ≤ tokens.size) (hcount : count ≤ index) :
    ((c.prevTokens.all fun vs => windowFitsBefore (· == ·) tokens index count vs) = true ∧
      (c.prevClasses.all fun vs =>
        windowFitsBefore hasClass tokens index (count + width c.prevTokens) vs) = true) ↔
      ∃ rest classes,
        tokens.toList.take (index - count) = rest ++ classes ++ c.prevTokens.getD [] ∧
        Fitting hasClass classes (c.prevClasses.getD []) := by
  -- the second window is looked at up to where the first one begins, if that is in the row
  have hbefore {rest : List String}
      (hrow : tokens.toList.take (index - count) = rest ++ c.prevTokens.getD []) :
      count + width c.prevTokens ≤ index ∧
        tokens.toList.take (index - (count + width c.prevTokens)) = rest := by
    have hlength := congrArg List.length hrow
    rw [List.length_take, Array.length_toList, List.length_append] at hlength
    have hstop : index - (count + width c.prevTokens) = rest.length := by
      unfold width
      omega
    have hcut : tokens.toList.take rest.length =
        (tokens.toList.take (index - count)).take rest.length := by
      rw [List.take_take, Nat.min_eq_left (by omega)]
    refine ⟨by unfold width; omega, ?_⟩
    rw [hstop, hcut, hrow, List.take_left]
  rw [all_windowFitsBefore_iff hcount hindex]
  constructor
  · rintro ⟨⟨rest, piece, hrow, hpiece⟩, hclasses⟩
    obtain rfl := fitting_beq_iff.1 hpiece
    obtain ⟨hroom, htake⟩ := hbefore hrow
    obtain ⟨rest', classes, hrest, hfits⟩ := (all_windowFitsBefore_iff hroom hindex).1 hclasses
    refine ⟨rest', classes, ?_, hfits⟩
    rw [hrow, ← htake, hrest]
  · rintro ⟨rest, classes, hrow, hfits⟩
    obtain ⟨hroom, htake⟩ := hbefore hrow
    exact ⟨⟨_, _, hrow, fitting_beq_iff.2 rfl⟩,
      (all_windowFitsBefore_iff hroom hindex).2 ⟨_, _, htake, hfits⟩⟩

/-- **Constraints cut the row in pieces.** An edge holds for the `count` tokens before an index
exactly if the row is some tokens, then the previous classes, the previous tokens, those tokens, the
next tokens, the next classes and some more tokens. A kind that is absent stands for no tokens. -/
theorem hold_iff (g : Grammar) (c : Constraints) (tokens : Array String) {index count : Nat}
    (hindex : index ≤ tokens.size) (hcount : count ≤ index) :
    c.hold g.hasClass tokens index count = true ↔
      ∃ before prevClasses prevTokens span nextTokens nextClasses behind : List String,
        tokens.toList =
          before ++ prevClasses ++ prevTokens ++ span ++ nextTokens ++ nextClasses ++ behind ∧
        span.length = count ∧
        before.length + prevClasses.length + prevTokens.length + span.length = index ∧
        prevTokens = c.prevTokens.getD [] ∧ nextTokens = c.nextTokens.getD [] ∧
        List.Forall₂ (fun token tokenClass => g.hasClass token tokenClass = true) prevClasses
          (c.prevClasses.getD []) ∧
        List.Forall₂ (fun token tokenClass => g.hasClass token tokenClass = true) nextClasses
          (c.nextClasses.getD []) := by
  have hsides : c.hold g.hasClass tokens index count = true ↔
      (∃ rest classes,
        tokens.toList.take (index - count) = rest ++ classes ++ c.prevTokens.getD [] ∧
        Fitting g.hasClass classes (c.prevClasses.getD [])) ∧
      ∃ classes rest, tokens.toList.drop index = c.nextTokens.getD [] ++ classes ++ rest ∧
        Fitting g.hasClass classes (c.nextClasses.getD []) := by
    rw [← before_iff hindex hcount, ← behind_iff hindex, hold]
    simp only [Bool.and_eq_true]
    tauto
  rw [hsides]
  constructor
  · rintro ⟨⟨before, prev, hbefore, hprev⟩, next, behind, hbehind, hnext⟩
    obtain ⟨span, hrow, hspan⟩ := exists_span hindex hcount
    have hlength := congrArg List.length hbefore
    rw [List.length_take, Array.length_toList, List.length_append, List.length_append] at hlength
    refine ⟨before, prev, _, span, _, next, behind, ?_, hspan, by omega, rfl, rfl, hprev, hnext⟩
    rw [hrow, hbefore, hbehind]
    simp only [List.append_assoc]
  · rintro ⟨before, prev, _, span, _, next, behind, hrow, hspan, hlength, rfl, rfl, hprev, hnext⟩
    have hrow : tokens.toList = (before ++ prev ++ c.prevTokens.getD []) ++
        (span ++ (c.nextTokens.getD [] ++ next ++ behind)) := by
      rw [hrow]
      simp only [List.append_assoc]
    have hleft : (before ++ prev ++ c.prevTokens.getD []).length = index - count := by
      rw [List.length_append, List.length_append]
      omega
    refine ⟨⟨before, prev, ?_, hprev⟩, next, behind, ?_, hnext⟩
    · rw [hrow, List.take_left' hleft]
    · rw [hrow, ← List.append_assoc, List.drop_left']
      rw [List.length_append, hleft]
      omega

/-- `x` and `y` are of the class `edge`. -/
def edgeGrammar : Grammar :=
  { Grammar.ofAutomaton [] [] [] with classes := .ofList [("x", ["edge"]), ("y", ["edge"])] }

/-- Four windows around `b` take up the whole row. Behind the row there is room for empty windows
only. -/
theorem hold_iff_edgeGrammar :
    let row : Array String := #["x", "a", "b", "c", "y"]
    3 ≤ row.size ∧ 1 ≤ 3 ∧ 5 ≤ row.size ∧ 5 ≤ 5 ∧
      (⟨some ["a"], some ["c"], some ["edge"], some ["edge"]⟩ : Constraints).hold
        edgeGrammar.hasClass row 3 1 = true ∧
      (⟨some [], some [], none, some []⟩ : Constraints).hold edgeGrammar.hasClass row 5 5 =
        true := by
  intro row
  have hx : edgeGrammar.hasClass "x" "edge" = true := by decide
  have hy : edgeGrammar.hasClass "y" "edge" = true := by decide
  refine ⟨by decide, by decide, by decide, by decide, ?_, ?_⟩
  · exact (hold_iff edgeGrammar _ row (by decide) (by decide)).2
      ⟨[], ["x"], ["a"], ["b"], ["c"], ["y"], [], rfl, rfl, rfl, rfl, rfl, .cons hx .nil,
        .cons hy .nil⟩
  · exact (hold_iff edgeGrammar _ row (by decide) (by decide)).2
      ⟨[], [], [], ["x", "a", "b", "c", "y"], [], [], [], rfl, rfl, rfl, rfl, rfl, .nil, .nil⟩

end Constraints

end Translit
