import Mathlib
import Translit.Proofs.Run.Defects
import Translit.Proofs.Run.Limits

/-!
# Replaying the steps of a run

A run writes its text and records its steps side by side. The steps alone tell the text: each
stands for the production of its onmatch rule, if it has one, and then for that of its rule.

* `stepText?`, `replay?` : the texts of a step and of several, by the tables of the grammar alone;
* `knows_of_replay?` : steps have a text only if the grammar has all their rules;
* `onmatchRule?_of_onmatchAt` : an onmatch rule that is taken is there;
* `stepText?_of_nextStep`, `replay?_of_nextStep` : the text of a step and of steps that a run takes;
* `replay?_of_run` : what a run writes is the text of the steps that it adds.
-/

namespace Translit

namespace Grammar

/-- The text before a rule: the production of the onmatch rule, nothing without one. An onmatch rule
that the grammar does not have has no text. -/
def beforeText? (g : Grammar) : Option OnmatchId → Option String
  | none => some ""
  | some id => (g.onmatchRule? id).map OnmatchRule.production

/-- The text of a step, if the grammar has its rules. -/
def stepText? (g : Grammar) (m : RuleMatch) : Option String :=
  (g.beforeText? m.onmatch).bind fun before =>
    (g.rule? m.rule).map fun rule => before ++ rule.production

/-- The text of steps, one after the other. -/
def replay? (g : Grammar) : List RuleMatch → Option String
  | [] => some ""
  | m :: ms => (g.stepText? m).bind fun text => (replay? g ms).map fun rest => text ++ rest

/-- The grammar has the rule of a step, and its onmatch rule if it has one. -/
structure Knows (g : Grammar) (m : RuleMatch) : Prop where
  rule : ∃ r, g.rule? m.rule = some r
  onmatch : ∀ id, m.onmatch = some id → ∃ r, g.onmatchRule? id = some r

variable {g : Grammar} {limits : Limits}

theorem knows_of_stepText? {m : RuleMatch} {text : String} (h : g.stepText? m = some text) :
    g.Knows m := by
  obtain ⟨before, hbefore, hrule⟩ := Option.bind_eq_some_iff.1 h
  obtain ⟨rule, hrule, -⟩ := Option.map_eq_some_iff.1 hrule
  refine ⟨⟨rule, hrule⟩, ?_⟩
  intro id hid
  rw [hid] at hbefore
  obtain ⟨r, hr, -⟩ := Option.map_eq_some_iff.1 hbefore
  exact ⟨r, hr⟩

/-- Steps have a text only if the grammar has all their rules. -/
theorem knows_of_replay? {ms : List RuleMatch} {out : String} (h : g.replay? ms = some out) :
    ∀ m ∈ ms, g.Knows m := by
  induction ms generalizing out with
  | nil => simp
  | cons m ms ih =>
    obtain ⟨text, hm, hrest⟩ := Option.bind_eq_some_iff.1 h
    obtain ⟨rest, hms, -⟩ := Option.map_eq_some_iff.1 hrest
    exact List.forall_mem_cons.2 ⟨knows_of_stepText? hm, ih hms⟩

/-! ## Steps that a run takes -/

theorem onmatchRule?_of_firstOnmatch {tokens : Array String} {index : Nat}
    {ids : List OnmatchId} {id : OnmatchId}
    (h : g.firstOnmatch tokens index ids = .ok (some id)) : ∃ r, g.onmatchRule? id = some r := by
  induction ids with
  | nil => cases h
  | cons id' ids ih =>
    rw [firstOnmatch] at h
    split at h
    · cases h
    · next r hr =>
      split at h
      · cases h
        exact ⟨r, hr⟩
      · exact ih h

theorem onmatchRule?_of_onmatchAt {tokens : Array String} {index : Nat} {id : OnmatchId}
    (h : g.onmatchAt tokens index = .ok (some id)) : ∃ r, g.onmatchRule? id = some r := by
  unfold onmatchAt at h
  split at h
  · exact onmatchRule?_of_firstOnmatch h
  · cases h

/-- A step has the text that a run writes for it. -/
theorem stepText?_of_nextStep {tokens : Array String} {index : Nat} {m : RuleMatch} {rule : Rule}
    (h : g.nextStep limits tokens index = some (.ok (m, rule))) :
    g.stepText? m = some (g.onmatchText m.onmatch ++ rule.production) := by
  obtain ⟨-, hrule, -, honmatch, -⟩ := nextStep_eq_ok h
  have hbefore : g.beforeText? m.onmatch = some (g.onmatchText m.onmatch) := by
    cases hid : m.onmatch with
    | none => rfl
    | some id =>
      rw [hid] at honmatch
      obtain ⟨r, hr⟩ := onmatchRule?_of_onmatchAt honmatch
      simp only [beforeText?, onmatchText, Option.bind_some, hr, Option.map_some]
  rw [stepText?, hbefore, hrule]
  rfl

/-- The text of steps that a run takes, one after the other. -/
theorem replay?_of_nextStep {tokens : Array String} {taken : List (RuleMatch × Rule)}
    (h : ∀ t ∈ taken, g.nextStep limits tokens t.1.index = some (.ok t)) :
    g.replay? (taken.map Prod.fst) = some (String.join
      (taken.map fun t => g.onmatchText t.1.onmatch ++ t.2.production)) := by
  induction taken with
  | nil => rfl
  | cons t taken ih =>
    obtain ⟨ht, htaken⟩ := List.forall_mem_cons.1 h
    rw [List.map_cons, replay?, stepText?_of_nextStep ht, ih htaken, List.map_cons,
      String.join_cons]
    rfl

/-- What a run writes is the text of the steps that it adds. -/
theorem Runs.exists_replay? {c c' : Context} {out : String} (h : g.Runs limits c "" c' out) :
    ∃ taken : List RuleMatch, c'.steps.toList = c.steps.toList ++ taken ∧
      (∀ m ∈ taken, g.Knows m) ∧ g.replay? taken = some out := by
  obtain ⟨taken, hsteps, rfl, htaken⟩ := h.exists_taken
  have hreplay := replay?_of_nextStep fun t ht => (htaken t ht).2
  refine ⟨_, hsteps, knows_of_replay? hreplay, ?_⟩
  rw [hreplay, String.empty_append]

/-- **The steps tell the text.** A run that comes to its end adds steps whose rules and onmatch
rules the grammar has, and writes their text, whatever steps the context had before. So the output
of a parse is the text of the steps of its context. -/
theorem replay?_of_run (g : Grammar) :
    (∀ limits c c' out, g.run limits c = some (c', .ok out) →
      ∃ taken : List RuleMatch, c'.steps.toList = c.steps.toList ++ taken ∧
        (∀ m ∈ taken, g.Knows m) ∧ g.replay? taken = some out) ∧
    ∀ limits input parsed, g.parseWithTrace limits input = some (.ok parsed) →
      (∀ m ∈ parsed.context.steps.toList, g.Knows m) ∧
        g.replay? parsed.context.steps.toList = some parsed.output := by
  refine ⟨?_, ?_⟩
  · intro limits c c' out hrun
    exact (runs_of_runFrom hrun).1.exists_replay?
  · intro limits input parsed hparse
    obtain ⟨taken, hsteps, hknows, htext⟩ := (runs_of_parseWithTrace hparse).1.exists_replay?
    rw [Context.ofSequence, List.nil_append] at hsteps
    rw [hsteps]
    exact ⟨hknows, htext⟩

/-- A run that goes on behind the first `a` writes the hyphen and the second; a parse of both writes
the first as well. -/
theorem replay?_of_run_hyphenGrammar :
    let s : TokenSequence := ⟨#[" ", "a", "a", " "], []⟩
    let c : Context := ⟨s, #[⟨1, 0, none⟩], 2⟩
    let c' : Context := ⟨s, #[⟨1, 0, none⟩, ⟨2, 0, some 0⟩], 3⟩
    (hyphenGrammar 0).run .default c = some (c', .ok "-A") ∧
      (∃ taken : List RuleMatch, c'.steps.toList = c.steps.toList ++ taken ∧
        (∀ m ∈ taken, (hyphenGrammar 0).Knows m) ∧
        (hyphenGrammar 0).replay? taken = some "-A") ∧
      (hyphenGrammar 0).parseWithTrace .default "aa" = some (.ok ⟨"A-A", c'⟩) ∧
      (hyphenGrammar 0).replay? c'.steps.toList = some "A-A" := by
  have hfirst : (hyphenGrammar 0).nextStep .default #[" ", "a", "a", " "] 1 =
      some (.ok (⟨1, 0, none⟩, ⟨"A", none, some [], ["a"], none, none, .zero⟩)) := by
    cbv
  have hsecond : (hyphenGrammar 0).nextStep .default #[" ", "a", "a", " "] 2 =
      some (.ok (⟨2, 0, some 0⟩, ⟨"A", none, some [], ["a"], none, none, .zero⟩)) := by
    cbv
  have htokens : (hyphenGrammar 0).tokenize "aa" = ⟨#[" ", "a", "a", " "], []⟩ := by
    cbv
  intro s c c'
  have hlast (out : String) :
      (hyphenGrammar 0).Runs .default c out c' (out ++ "-" ++ "A") :=
    .step (by decide) hsecond .refl
  have hrun : (hyphenGrammar 0).run .default c = some (c', .ok "-A") :=
    runFrom_of_runs (hlast "") (.stops (by decide))
  have hboth : (hyphenGrammar 0).run .default (.ofSequence s) = some (c', .ok "A-A") :=
    runFrom_of_runs (.step (by decide) hfirst (hlast "A")) (.stops (by decide))
  have hparse : (hyphenGrammar 0).parseWithTrace .default "aa" = some (.ok ⟨"A-A", c'⟩) := by
    have hfits : ¬ Limits.TooLarge .default "aa" := fun h => absurd h.2 (by decide)
    have hpasses : ¬ Limits.Refuses .default ((hyphenGrammar 0).tokenize "aa") :=
      fun h => Bool.false_ne_true h.1
    rw [parseWithTrace_of_run hfits hpasses, htokens, hboth]
    rfl
  obtain ⟨hruns, hparses⟩ := replay?_of_run (hyphenGrammar 0)
  exact ⟨hrun, hruns .default c c' "-A" hrun, hparse,
    (hparses .default "aa" ⟨"A-A", c'⟩ hparse).2⟩

end Grammar

end Translit
