import Mathlib
import Translit.Parse.Run
import Translit.Proofs.Token.Windows

/-!
# The choice of an onmatch rule

Of the onmatch rules that may stand between two tokens a run takes the first that fits there. The
search looks at the candidates in order and at none behind the one that decides: it ends with the
first that fits, or fails with the first that the grammar does not have, whichever comes earlier.

* `Suits` : an onmatch rule fits between two tokens; `onmatchFits_iff` : by the pieces of the row;
* `PassedOver` : a candidate that is there and does not fit;
  `firstOnmatch_append` : the search goes on behind such candidates;
* `firstOnmatch_cases` : the candidates that are passed over, and the one at which the search ends;
* `onmatchAt_eq` : the choice before a token is such a search;
* `onmatchAt_choice` : which onmatch rule is taken, and when it fails.
-/

namespace Translit

namespace Grammar

variable {g : Grammar} {tokens : Array String} {index : Nat}

/-- The row can be cut at an index, so that the tokens before end with some of the previous classes
of the onmatch rule and those behind begin with some of the next ones. -/
def Suits (g : Grammar) (tokens : Array String) (index : Nat) (r : OnmatchRule) : Prop :=
  ∃ before prev next behind : List String,
    tokens.toList = before ++ prev ++ next ++ behind ∧ before.length + prev.length = index ∧
    List.Forall₂ (fun token tokenClass => g.hasClass token tokenClass = true) prev r.prevClasses ∧
    List.Forall₂ (fun token tokenClass => g.hasClass token tokenClass = true) next r.nextClasses

/-- A candidate that the grammar has and that does not fit. -/
def PassedOver (g : Grammar) (tokens : Array String) (index : Nat) (id : OnmatchId) : Prop :=
  ∃ r, g.onmatchRule? id = some r ∧ ¬ g.Suits tokens index r

/-- Both windows of an onmatch rule fit exactly if the row can be cut at the index. -/
theorem onmatchFits_iff (hindex : index ≤ tokens.size) {r : OnmatchRule} :
    g.onmatchFits tokens index r = true ↔ g.Suits tokens index r := by
  unfold onmatchFits
  rw [Bool.and_eq_true, windowFitsBefore_iff (Nat.zero_le _) hindex, windowFits_iff hindex,
    Nat.sub_zero]
  constructor
  · rintro ⟨⟨before, prev, hbefore, hprev⟩, next, behind, hbehind, hnext⟩
    have hlength := congrArg List.length hbefore
    rw [List.length_take, Array.length_toList, List.length_append] at hlength
    refine ⟨before, prev, next, behind, ?_, by omega, hprev, hnext⟩
    rw [← hbefore, List.append_assoc, ← hbehind, List.take_append_drop]
  · rintro ⟨before, prev, next, behind, hrow, hlength, hprev, hnext⟩
    have hleft : (before ++ prev).length = index := by rw [List.length_append, hlength]
    rw [List.append_assoc] at hrow
    refine ⟨⟨before, prev, ?_, hprev⟩, next, behind, ?_, hnext⟩
    · rw [hrow, List.take_left' hleft]
    · rw [hrow, List.drop_left' hleft]

/-! ## The search -/

/-- The search goes on behind candidates that are passed over. -/
theorem firstOnmatch_append (hindex : index ≤ tokens.size) {before : List OnmatchId}
    (h : ∀ x ∈ before, g.PassedOver tokens index x) (ids : List OnmatchId) :
    g.firstOnmatch tokens index (before ++ ids) = g.firstOnmatch tokens index ids := by
  induction before with
  | nil => rfl
  | cons id before ih =>
    obtain ⟨⟨r, hr, hsuits⟩, hbefore⟩ := List.forall_mem_cons.1 h
    have hfits : ¬ g.onmatchFits tokens index r = true := (onmatchFits_iff hindex).not.2 hsuits
    rw [List.cons_append, firstOnmatch, hr]
    exact (if_neg hfits).trans (ih hbefore)

theorem firstOnmatch_of_passedOver (hindex : index ≤ tokens.size) {ids : List OnmatchId}
    (h : ∀ id ∈ ids, g.PassedOver tokens index id) :
    g.firstOnmatch tokens index ids = .ok none := by
  have happend := firstOnmatch_append hindex h []
  rwa [List.append_nil] at happend

theorem firstOnmatch_of_suits (hindex : index ≤ tokens.size) {id : OnmatchId} {r : OnmatchRule}
    (hr : g.onmatchRule? id = some r) (hsuits : g.Suits tokens index r) (after : List OnmatchId) :
    g.firstOnmatch tokens index (id :: after) = .ok (some id) := by
  rw [firstOnmatch, hr]
  exact if_pos ((onmatchFits_iff hindex).2 hsuits)

theorem firstOnmatch_of_unknown {id : OnmatchId} (hr : g.onmatchRule? id = none)
    (after : List OnmatchId) :
    g.firstOnmatch tokens index (id :: after) = .error (.malformed (.unknownOnmatch id)) := by
  rw [firstOnmatch, hr]

/-- All candidates are passed over, or those before the one that fits or is not there, and with that
one the search ends. -/
theorem firstOnmatch_cases (hindex : index ≤ tokens.size) (ids : List OnmatchId) :
    ((∀ id ∈ ids, g.PassedOver tokens index id) ∧ g.firstOnmatch tokens index ids = .ok none) ∨
      ∃ before id after, ids = before ++ id :: after ∧
        (∀ x ∈ before, g.PassedOver tokens index x) ∧
        (((∃ r, g.onmatchRule? id = some r ∧ g.Suits tokens index r) ∧
            g.firstOnmatch tokens index ids = .ok (some id)) ∨
          (g.onmatchRule? id = none ∧
            g.firstOnmatch tokens index ids = .error (.malformed (.unknownOnmatch id)))) := by
  induction ids with
  | nil => exact .inl ⟨by simp, rfl⟩
  | cons id ids ih =>
    cases hr : g.onmatchRule? id with
    | none => exact .inr ⟨[], id, ids, rfl, by simp, .inr ⟨hr, firstOnmatch_of_unknown hr ids⟩⟩
    | some r =>
      by_cases hsuits : g.Suits tokens index r
      · exact .inr ⟨[], id, ids, rfl, by simp,
          .inl ⟨⟨r, hr, hsuits⟩, firstOnmatch_of_suits hindex hr hsuits ids⟩⟩
      · have hpassed : g.PassedOver tokens index id := ⟨r, hr, hsuits⟩
        have hskip : g.firstOnmatch tokens index (id :: ids) = g.firstOnmatch tokens index ids :=
          firstOnmatch_append hindex (List.forall_mem_singleton.2 hpassed) ids
        rw [hskip]
        rcases ih with ⟨hall, hnone⟩ | ⟨before, id', after, rfl, hbefore, hend⟩
        · exact .inl ⟨List.forall_mem_cons.2 ⟨hpassed, hall⟩, hnone⟩
        · exact .inr ⟨id :: before, id', after, rfl, List.forall_mem_cons.2 ⟨hpassed, hbefore⟩,
            hend⟩

/-- The search finds the first candidate that fits, if those before it are passed over. -/
theorem firstOnmatch_eq_some_iff (hindex : index ≤ tokens.size) {ids : List OnmatchId}
    {id : OnmatchId} :
    g.firstOnmatch tokens index ids = .ok (some id) ↔
      ∃ before after, ids = before ++ id :: after ∧
        (∀ x ∈ before, g.PassedOver tokens index x) ∧
        ∃ r, g.onmatchRule? id = some r ∧ g.Suits tokens index r := by
  constructor
  · intro h
    rcases firstOnmatch_cases hindex ids with ⟨-, hnone⟩ |
      ⟨before, id', after, hids, hbefore, ⟨hsuits, hsome⟩ | ⟨-, herror⟩⟩
    · rw [hnone] at h
      cases h
    · rw [hsome] at h
      cases h
      exact ⟨before, after, hids, hbefore, hsuits⟩
    · rw [herror] at h
      cases h
  · rintro ⟨before, after, rfl, hbefore, r, hr, hsuits⟩
    rw [firstOnmatch_append hindex hbefore, firstOnmatch_of_suits hindex hr hsuits]

/-- The search fails with the first candidate that the grammar does not have, if those before it are
passed over. -/
theorem firstOnmatch_eq_error_iff (hindex : index ≤ tokens.size) {ids : List OnmatchId}
    {err : ParseError} :
    g.firstOnmatch tokens index ids = .error err ↔
      ∃ before id after, ids = before ++ id :: after ∧
        (∀ x ∈ before, g.PassedOver tokens index x) ∧ g.onmatchRule? id = none ∧
        err = .malformed (.unknownOnmatch id) := by
  constructor
  · intro h
    rcases firstOnmatch_cases hindex ids with ⟨-, hnone⟩ |
      ⟨before, id, after, hids, hbefore, ⟨-, hsome⟩ | ⟨hunknown, herror⟩⟩
    · rw [hnone] at h
      cases h
    · rw [hsome] at h
      cases h
    · rw [herror] at h
      cases h
      exact ⟨before, id, after, hids, hbefore, hunknown, rfl⟩
  · rintro ⟨before, id, after, rfl, hbefore, hunknown, rfl⟩
    rw [firstOnmatch_append hindex hbefore, firstOnmatch_of_unknown hunknown]

/-- The search finds none exactly if all candidates are passed over. -/
theorem firstOnmatch_eq_none_iff (hindex : index ≤ tokens.size) {ids : List OnmatchId} :
    g.firstOnmatch tokens index ids = .ok none ↔ ∀ x ∈ ids, g.PassedOver tokens index x := by
  refine ⟨fun h => ?_, firstOnmatch_of_passedOver hindex⟩
  rcases firstOnmatch_cases hindex ids with ⟨hall, -⟩ |
    ⟨before, id, after, -, -, ⟨-, hsome⟩ | ⟨-, herror⟩⟩
  · exact hall
  · rw [hsome] at h
    cases h
  · rw [herror] at h
    cases h

/-- Where all candidates up to one that fits are there, one of them is found, whatever stands
behind. -/
theorem exists_firstOnmatch_eq_some (hindex : index ≤ tokens.size) {before after : List OnmatchId}
    {id : OnmatchId} {r : OnmatchRule} (hr : g.onmatchRule? id = some r)
    (hsuits : g.Suits tokens index r) (hbefore : ∀ x ∈ before, g.onmatchRule? x ≠ none) :
    ∃ x ∈ before ++ [id], g.firstOnmatch tokens index (before ++ id :: after) = .ok (some x) := by
  rcases firstOnmatch_cases (g := g) hindex before with ⟨hall, -⟩ |
    ⟨earlier, x, later, rfl, hearlier, ⟨⟨r', hr', hsuits'⟩, -⟩ | ⟨hunknown, -⟩⟩
  · refine ⟨id, List.mem_append_right before List.mem_cons_self, ?_⟩
    exact (firstOnmatch_eq_some_iff hindex).2 ⟨before, after, rfl, hall, r, hr, hsuits⟩
  · refine ⟨x, by simp, (firstOnmatch_eq_some_iff hindex).2
      ⟨earlier, later ++ id :: after, by simp, hearlier, r', hr', hsuits'⟩⟩
  · exact absurd hunknown (hbefore x (by simp))

/-! ## The choice before a token -/

/-- Between two tokens the search is over what the grammar lists for them, nothing if it lists
nothing. -/
theorem onmatchAt_eq (hpos : 0 < index) (hlt : index < tokens.size) :
    g.onmatchAt tokens index = g.firstOnmatch tokens index
      ((g.onmatchCandidates? tokens[index] tokens[index - 1]).getD []) := by
  have hprev : index - 1 < tokens.size := by omega
  unfold onmatchAt
  rw [Array.getElem?_eq_getElem hlt, if_neg hpos.ne', Array.getElem?_eq_getElem hprev]

/-- **Which onmatch rule is taken.** Among the candidates for a token and the one before it, it is
the first that fits, if all before it are there and do not fit. The choice fails exactly if a
candidate that the grammar does not have comes before any that fits, with the first such; none is
taken if all are there and none fits. What stands behind one that fits is never looked at. -/
theorem onmatchAt_choice (g : Grammar) (tokens : Array String) {index : Nat} (hpos : 0 < index)
    (hlt : index < tokens.size) :
    let candidates := (g.onmatchCandidates? tokens[index] tokens[index - 1]).getD []
    (∀ id, g.onmatchAt tokens index = .ok (some id) ↔
      ∃ before after, candidates = before ++ id :: after ∧
        (∀ x ∈ before, g.PassedOver tokens index x) ∧
        ∃ r, g.onmatchRule? id = some r ∧ g.Suits tokens index r) ∧
    (∀ err, g.onmatchAt tokens index = .error err ↔
      ∃ before id after, candidates = before ++ id :: after ∧
        (∀ x ∈ before, g.PassedOver tokens index x) ∧ g.onmatchRule? id = none ∧
        err = .malformed (.unknownOnmatch id)) ∧
    (g.onmatchAt tokens index = .ok none ↔ ∀ x ∈ candidates, g.PassedOver tokens index x) ∧
    ∀ before id after r, candidates = before ++ id :: after → g.onmatchRule? id = some r →
      g.Suits tokens index r → (∀ x ∈ before, g.onmatchRule? x ≠ none) →
      ∃ x ∈ before ++ [id], g.onmatchAt tokens index = .ok (some x) := by
  intro candidates
  have hindex : index ≤ tokens.size := hlt.le
  have hsearch : g.onmatchAt tokens index = g.firstOnmatch tokens index candidates :=
    onmatchAt_eq hpos hlt
  rw [hsearch]
  refine ⟨fun id => firstOnmatch_eq_some_iff hindex, fun err => firstOnmatch_eq_error_iff hindex,
    firstOnmatch_eq_none_iff hindex, ?_⟩
  intro before id after r hcandidates hr hsuits hbefore
  rw [hcandidates]
  exact exists_firstOnmatch_eq_some hindex hr hsuits hbefore

/-- A hyphen stands between two letters, and an apostrophe before a letter that follows two. There
is no onmatch rule 7. -/
def pauseGrammar : Grammar :=
  { ofAutomaton [] [] [] with
    onmatchRules := #[⟨["letter"], ["letter"], "-"⟩, ⟨["letter", "letter"], ["letter"], "'"⟩]
    onmatchLookup := .ofList [("a", .ofList [("a", [1, 0, 7]), ("b", [1, 7, 0])])]
    classes := .ofList [("a", ["letter"]), ("b", ["letter"])] }

/-- The apostrophe does not fit behind one letter. Between two `a` the hyphen comes next, and the
rule that is not there stands behind it; behind `b` that rule comes first. -/
theorem onmatchAt_choice_pauseGrammar :
    0 < 2 ∧ 2 < #[" ", "a", "a", " "].size ∧ 2 < #[" ", "b", "a", " "].size ∧
      pauseGrammar.onmatchAt #[" ", "a", "a", " "] 2 = .ok (some 0) ∧
      pauseGrammar.onmatchAt #[" ", "b", "a", " "] 2 =
        .error (.malformed (.unknownOnmatch 7)) := by
  have hyphen : pauseGrammar.onmatchRule? 0 = some ⟨["letter"], ["letter"], "-"⟩ := rfl
  have hsuits : pauseGrammar.Suits #[" ", "a", "a", " "] 2 ⟨["letter"], ["letter"], "-"⟩ :=
    (onmatchFits_iff (by decide)).1 (by decide)
  have hpassed {row : Array String} (hsize : 2 ≤ row.size)
      (hfits : ¬ pauseGrammar.onmatchFits row 2 ⟨["letter", "letter"], ["letter"], "'"⟩ = true) :
      ∀ x ∈ [1], pauseGrammar.PassedOver row 2 x :=
    List.forall_mem_singleton.2 ⟨_, rfl, (onmatchFits_iff hsize).not.1 hfits⟩
  refine ⟨by decide, by decide, by decide, ?_, ?_⟩
  · exact ((onmatchAt_choice pauseGrammar _ (by decide) (by decide)).1 0).2
      ⟨[1], [7], rfl, hpassed (by decide) (by decide), _, hyphen, hsuits⟩
  · exact ((onmatchAt_choice pauseGrammar _ (by decide) (by decide)).2.1 _).2
      ⟨[1], 7, [0], rfl, hpassed (by decide) (by decide), rfl, rfl⟩

end Grammar

end Translit
