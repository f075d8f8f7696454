import Mathlib
import Translit.Proofs.Run.Limits
import Translit.Proofs.Walk.Guarded

/-!
# Runs and parses without traps

A run reads the token at its index for the onmatch rule before it, and its walks read the others.
Its index lies before the last token whenever it takes a step, so runs and parses meet no trap, over
any row of tokens and from any context.

* `guardedOnmatchAt`, `guardedNextStep`, `guardedRunFrom`, `guardedParse` : with reads that may
  trap;
* `guardedNextStep_eq`, `guardedRunFrom_eq`, `guardedParse_eq` : the same as the plain ones;
* `Runs.index_lt` : the steps of a run start before the last token;
* `guarded_eq` : no operation of a grammar meets a trap.
-/

namespace Translit

namespace Grammar

/-! ## Runs with reads that may trap -/

/-- The onmatch rule that fits before an index; the token there is read if there is one before. -/
def guardedOnmatchAt (g : Grammar) (tokens : Array String) (index : Nat) :
    Except Trap (Except ParseError (Option OnmatchId)) :=
  match if index = 0 then none else tokens[index - 1]? with
  | none => .ok (.ok none)
  | some previous =>
    (readToken tokens index).map fun current =>
      g.firstOnmatch tokens index ((g.onmatchCandidates? current previous).getD [])

/-- The step with a rule at an index. -/
def guardedStepWith (g : Grammar) (tokens : Array String) (index : Nat) (id : RuleId) :
    Except Trap (Except ParseError (RuleMatch × Rule)) :=
  match g.rule? id with
  | none => .ok (.error (.malformed (.unknownRule id)))
  | some rule =>
    if rule.tokenCount = 0 then .ok (.error (.malformed (.emptyRule id)))
    else
      (g.guardedOnmatchAt tokens index).map fun r =>
        r.map fun onmatch => (⟨index, id, onmatch⟩, rule)

/-- The step that a run takes at an index. -/
def guardedNextStep (g : Grammar) (limits : Limits) (tokens : Array String) (index : Nat) :
    Except Trap (Option (Except ParseError (RuleMatch × Rule))) :=
  match (g.walk limits tokens).guardedMatchAt index with
  | .error trap => .error trap
  | .ok none => .ok none
  | .ok (some (.error err)) => .ok (some (.error err))
  | .ok (some (.ok id)) => (g.guardedStepWith tokens index id).map some

variable {g : Grammar} {limits : Limits}

theorem guardedOnmatchAt_eq {tokens : Array String} {index : Nat} (h : index < tokens.size) :
    g.guardedOnmatchAt tokens index = .ok (g.onmatchAt tokens index) := by
  unfold guardedOnmatchAt onmatchAt
  rw [Array.getElem?_eq_getElem h, readToken_eq h]
  cases if index = 0 then none else tokens[index - 1]? <;> rfl

theorem guardedStepWith_eq {tokens : Array String} {index : Nat} (h : index < tokens.size)
    (id : RuleId) : g.guardedStepWith tokens index id = .ok (g.stepWith tokens index id) := by
  unfold guardedStepWith stepWith
  cases g.rule? id with
  | none => rfl
  | some rule =>
    dsimp only
    split
    · rfl
    · rw [guardedOnmatchAt_eq h]
      rfl

theorem guardedNextStep_eq {tokens : Array String} {index : Nat} (h : index < tokens.size) :
    g.guardedNextStep limits tokens index = .ok (g.nextStep limits tokens index) := by
  unfold guardedNextStep nextStep
  rw [Walk.guardedMatchAt_eq]
  cases (g.walk limits tokens).matchAt index with
  | none => rfl
  | some r =>
    cases r with
    | error err => rfl
    | ok id =>
      dsimp only
      rw [guardedStepWith_eq h]
      rfl

theorem position_lt_size {c : Context} (h : c.position < c.stop) :
    c.position < c.sequence.tokens.size := by
  rw [Context.stop] at h
  omega

/-- Goes on with a run that has written `out`. -/
def guardedRunFrom (g : Grammar) (limits : Limits) (c : Context) (out : String) :
    Except Trap (Option (Context × Except ParseError String)) :=
  if _hlt : c.position < c.stop then
    match _hnext : g.guardedNextStep limits c.sequence.tokens c.position with
    | .error trap => .error trap
    | .ok none => .ok none
    | .ok (some (.error err)) => .ok (some (c, .error err))
    | .ok (some (.ok (m, rule))) =>
      guardedRunFrom g limits (c.record m rule.tokenCount)
        (out ++ g.onmatchText m.onmatch ++ rule.production)
  else .ok (some (c, .ok out))
termination_by c.stop - c.position
decreasing_by
  rw [guardedNextStep_eq (position_lt_size _hlt), Except.ok.injEq] at _hnext
  have hm := nextStep_progress _hnext
  simp only [Context.record, Context.stop] at *
  omega

/-- Before the last token a run does not trap at the step that is next. -/
theorem guardedRunFrom_of_lt {c : Context} (h : c.position < c.stop) (out : String) :
    g.guardedRunFrom limits c out =
      match g.nextStep limits c.sequence.tokens c.position with
      | none => .ok none
      | some (.error err) => .ok (some (c, .error err))
      | some (.ok (m, rule)) =>
        g.guardedRunFrom limits (c.record m rule.tokenCount)
          (out ++ g.onmatchText m.onmatch ++ rule.production) := by
  have hstep : g.guardedNextStep limits c.sequence.tokens c.position =
      .ok (g.nextStep limits c.sequence.tokens c.position) :=
    guardedNextStep_eq (position_lt_size h)
  rw [guardedRunFrom, dif_pos h]
  split
  · next trap hnext =>
    rw [hstep] at hnext
    cases hnext
  · next hnext => rw [Except.ok.inj (hstep.symm.trans hnext)]
  · next err hnext => rw [Except.ok.inj (hstep.symm.trans hnext)]
  · next m rule hnext => rw [Except.ok.inj (hstep.symm.trans hnext)]

theorem guardedRunFrom_eq (c : Context) (out : String) :
    g.guardedRunFrom limits c out = .ok (g.runFrom limits c out) := by
  fun_induction runFrom g limits c out with
  | case1 c out hlt hnext => rw [guardedRunFrom_of_lt hlt, hnext]
  | case2 c out hlt err hnext => rw [guardedRunFrom_of_lt hlt, hnext]
  | case3 c out hlt m rule hnext ih =>
    rw [guardedRunFrom_of_lt hlt, hnext]
    exact ih
  | case4 c out hstop => rw [guardedRunFrom, dif_neg hstop]

/-- Runs a context to its end. -/
def guardedRun (g : Grammar) (limits : Limits) (c : Context) :
    Except Trap (Option (Context × Except ParseError String)) := g.guardedRunFrom limits c ""

/-- Parses an input under limits. -/
def guardedParse (g : Grammar) (limits : Limits) (input : String) :
    Except Trap (Option (Except ParseError Parsed)) :=
  if 0 < limits.inputSize ∧ limits.inputSize < input.utf8ByteSize then
    .ok (some (.error (.inputTooLarge input.utf8ByteSize limits.inputSize)))
  else do
    let sequence ← g.guardedTokenize input
    if limits.strict ∧ !sequence.isClean then
      pure (some (.error (.unrecognized sequence.unrecognized)))
    else
      let r ← g.guardedRun limits (.ofSequence sequence)
      pure (r.map fun (context, result) => result.map fun output => ⟨output, context⟩)

theorem guardedParse_eq (input : String) :
    g.guardedParse limits input = .ok (g.parseWithTrace limits input) := by
  unfold guardedParse parseWithTrace
  split
  · rfl
  · simp only [guardedTokenize_eq, guardedRun, guardedRunFrom_eq, bind, Except.bind]
    split <;> rfl

/-- The steps that a run takes start before the last token. -/
theorem Runs.index_lt {c c' : Context} {out out' : String} (h : g.Runs limits c out c' out') :
    ∃ taken, c'.steps.toList = c.steps.toList ++ taken ∧ ∀ m ∈ taken, m.index < c.stop := by
  obtain ⟨taken, hsteps, -, htaken⟩ := h.exists_taken
  refine ⟨_, hsteps, ?_⟩
  intro m hm
  obtain ⟨t, ht, rfl⟩ := List.mem_map.1 hm
  exact (htaken t ht).1

/-- **No read is out of range.** Whatever the grammar, the tokens and the limits are, a walk at any
index, a run from any context and a parse of any input come to the same with reads that may trap as
without, and so does the cutting of stretches out of an input; their messages can be shown in it.
The entries of a walk and the indices next to them stay in the row, and a run looks for a step only
before the last token. -/
theorem guarded_eq (g : Grammar) :
    (∀ (tokens : Array String) (cap steps : Nat) (index : Nat),
      let w : Walk := ⟨g, tokens, cap, steps⟩
      (∀ mode, w.guardedRules mode index = .ok (w.rules mode index)) ∧
      w.guardedMatchAt index = .ok (w.matchAt index) ∧
      ∀ mode pending n s, index < tokens.size → w.push root index [] = .ok pending →
        w.after mode n ⟨pending, []⟩ = .further s →
        ∀ e ∈ s.pending, e.index ≤ tokens.size - 1 ∧ w.nextIndex e.index ≤ tokens.size - 1) ∧
    (∀ (limits : Limits) (c : Context),
      g.guardedRun limits c = .ok (g.run limits c) ∧
      ∀ c' r, g.run limits c = some (c', r) →
        (∃ taken, c'.steps.toList = c.steps.toList ++ taken ∧ ∀ m ∈ taken, m.index < c.stop) ∧
        ∀ err, r = .error err → c'.position < c.stop) ∧
    (∀ (limits : Limits) (input : String),
      g.guardedParse limits input = .ok (g.parseWithTrace limits input)) ∧
    ∀ input : String,
      g.guardedTokenize input = .ok (g.tokenize input) ∧
      ∀ u ∈ (g.tokenize input).unrecognized, ∃ message,
        u.guardedShow input.toList = .ok message ∧ u.showIn? input.toList = some message := by
  refine ⟨?_, ?_, fun limits input => guardedParse_eq input, ?_⟩
  · intro tokens cap steps index w
    refine ⟨fun mode => w.guardedRules_eq mode index, w.guardedMatchAt_eq index, ?_⟩
    intro mode pending n s hindex hpush hafter e he
    have hrow : w.InRow s := (Walk.inRow_of_push hindex hpush []).after hafter
    have hnext : w.nextIndex e.index < tokens.size := Walk.nextIndex_lt (hrow e he)
    exact ⟨Nat.le_sub_one_of_lt (hrow e he), Nat.le_sub_one_of_lt hnext⟩
  · intro limits c
    refine ⟨guardedRunFrom_eq c "", ?_⟩
    intro c' r hrun
    obtain ⟨text, hruns, hends⟩ := runFrom_eq_some_iff.1 hrun
    refine ⟨hruns.index_lt, ?_⟩
    rintro err rfl
    cases hends with
    | fails hlt _ =>
      rw [Context.stop, hruns.sequence_eq] at hlt
      exact hlt
  · intro input
    refine ⟨g.guardedTokenize_eq input, ?_⟩
    intro u hu
    obtain ⟨message, hshow⟩ := g.exists_showIn? hu
    exact ⟨message, Unrecognized.guardedShow_eq_ok_iff.2 hshow, hshow⟩

/-- In a row of one token a walk stays at it. A run that a cap stops is before the last token, and
the second stretch of an input is shown on its line although the first has a longer character. -/
theorem guarded_eq_pairGrammar :
    let w : Walk := ⟨pairGrammar, #["a"], 0, 9⟩
    let s : TokenSequence := ⟨#[" ", "a", "a", " "], []⟩
    let u : Unrecognized := ⟨⟨4, 2, 2⟩, 1, "?"⟩
    0 < #["a"].size ∧ w.push root 0 [] = .ok [⟨1, 0, 0⟩] ∧
      w.after .all 1 ⟨[⟨1, 0, 0⟩], []⟩ = .further ⟨[⟨2, 1, 0⟩, ⟨3, 1, 0⟩], []⟩ ∧
      w.nextIndex 0 ≤ #["a"].size - 1 ∧
      pairGrammar.guardedRun ⟨0, 1, false, 50⟩ (.ofSequence s) =
        .ok (some (.ofSequence s, .error (.stackLimit 2 1))) ∧
      (Context.ofSequence s).position < (Context.ofSequence s).stop ∧
      u ∈ (pairGrammar.tokenize "é\na?").unrecognized ∧
      ∃ message, u.guardedShow "é\na?".toList = .ok message := by
  have hpush : Walk.push ⟨pairGrammar, #["a"], 0, 9⟩ root 0 [] = .ok [⟨1, 0, 0⟩] := rfl
  have hafter : Walk.after ⟨pairGrammar, #["a"], 0, 9⟩ .all 1 ⟨[⟨1, 0, 0⟩], []⟩ =
      .further ⟨[⟨2, 1, 0⟩, ⟨3, 1, 0⟩], []⟩ := rfl
  have hfail : pairGrammar.run ⟨0, 1, false, 50⟩ (.ofSequence ⟨#[" ", "a", "a", " "], []⟩) =
      some (⟨⟨#[" ", "a", "a", " "], []⟩, #[], 1⟩, .error (.stackLimit 2 1)) := by
    cbv
  have hspans : (pairGrammar.tokenize "é\na?").unrecognized =
      [⟨⟨0, 1, 1⟩, 3, "é\n"⟩, ⟨⟨4, 2, 2⟩, 1, "?"⟩] := by
    cbv
  intro w s u
  have hu : u ∈ (pairGrammar.tokenize "é\na?").unrecognized := by
    rw [hspans]
    exact List.mem_cons_of_mem _ List.mem_cons_self
  obtain ⟨hwalk, hruns, -, htexts⟩ := guarded_eq pairGrammar
  obtain ⟨hguarded, hstops⟩ := hruns ⟨0, 1, false, 50⟩ (.ofSequence s)
  obtain ⟨message, hshow, -⟩ := (htexts "é\na?").2 u hu
  have hnext := (hwalk #["a"] 0 9 0).2.2 .all _ 1 _ (by decide) hpush hafter ⟨2, 1, 0⟩
    List.mem_cons_self
  exact ⟨by decide, hpush, hafter, hnext.2, hguarded.trans (congrArg Except.ok hfail),
    (hstops _ _ hfail).2 _ rfl, hu, message, hshow⟩

end Grammar

end Translit
