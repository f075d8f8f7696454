import Translit.Parse.Walk
import Translit.Token.Sequence

/-!
# Running a grammar

A run goes over the tokens from left to right. At each one it takes the rule that matches, writes
the production of the first onmatch rule that fits between the token before and this one, then the
rule's own, and goes on behind the tokens of the rule, up to the last default token.

* `onmatchAt` : the onmatch rule that fits before a token;
* `Context` : how far a parse has come, and by which steps;
* `run` : a context run to its end or to the first error;
* `parse` : a whole input, under limits.
-/

namespace Translit

/-- One step of a run: a rule, the index of its first token, and the onmatch rule before it. -/
structure RuleMatch where
  index : Nat
  rule : RuleId
  onmatch : Option OnmatchId
deriving DecidableEq

/-- How far a parse has come: its tokens, its steps and the index of the next token. -/
structure Context where
  sequence : TokenSequence
  steps : Array RuleMatch
  position : Nat
deriving DecidableEq

namespace Context

/-- A parse before its first step. -/
def ofSequence (s : TokenSequence) : Context := ⟨s, #[], 1⟩

/-- The index of the last default token, where a run stops. -/
def stop (c : Context) : Nat := c.sequence.tokens.size - 1

/-- The context after a step with a rule of `count` tokens. -/
def record (c : Context) (m : RuleMatch) (count : Nat) : Context :=
  { c with steps := c.steps.push m, position := m.index + count }

end Context

namespace Grammar

/-- The classes of an onmatch rule fit the tokens before an index and those from it on. -/
def onmatchFits (g : Grammar) (tokens : Array String) (index : Nat) (r : OnmatchRule) : Bool :=
  windowFitsBefore g.hasClass tokens index 0 r.prevClasses &&
    windowFits g.hasClass tokens index r.nextClasses

/-- The first of several onmatch rules that fits before an index. -/
def firstOnmatch (g : Grammar) (tokens : Array String) (index : Nat) :
    List OnmatchId → Except ParseError (Option OnmatchId)
  | [] => .ok none
  | id :: ids =>
    match g.onmatchRule? id with
    | none => .error (.malformed (.unknownOnmatch id))
    | some r =>
      if g.onmatchFits tokens index r then .ok (some id) else firstOnmatch g tokens index ids

/-- The onmatch rule that fits before an index. -/
def onmatchAt (g : Grammar) (tokens : Array String) (index : Nat) :
    Except ParseError (Option OnmatchId) :=
  match tokens[index]?, (if index = 0 then none else tokens[index - 1]?) with
  | some current, some previous =>
    firstOnmatch g tokens index ((g.onmatchCandidates? current previous).getD [])
  | _, _ => .ok none

/-- The production of an onmatch rule, if there is one. -/
def onmatchText (g : Grammar) (onmatch : Option OnmatchId) : String :=
  match onmatch.bind g.onmatchRule? with
  | some r => r.production
  | none => ""

/-- The step with a rule at an index; a rule that consumes no token would never end. -/
def stepWith (g : Grammar) (tokens : Array String) (index : Nat) (id : RuleId) :
    Except ParseError (RuleMatch × Rule) :=
  match g.rule? id with
  | none => .error (.malformed (.unknownRule id))
  | some rule =>
    if rule.tokenCount = 0 then .error (.malformed (.emptyRule id))
    else (g.onmatchAt tokens index).map fun onmatch => (⟨index, id, onmatch⟩, rule)

/-- The step that a run takes at an index. -/
def nextStep (g : Grammar) (limits : Limits) (tokens : Array String) (index : Nat) :
    Option (Except ParseError (RuleMatch × Rule)) :=
  ((g.walk limits tokens).matchAt index).map fun r => r.bind (g.stepWith tokens index)

theorem stepWith_progress {g : Grammar} {tokens : Array String} {index : Nat} {id : RuleId}
    {m : RuleMatch} {rule : Rule} (h : g.stepWith tokens index id = .ok (m, rule)) :
    m.index = index ∧ 0 < rule.tokenCount := by
  unfold stepWith at h
  split at h
  · cases h
  · split at h
    · cases h
    · next hpos =>
      cases ho : g.onmatchAt tokens index with
      | error e => simp [ho, Except.map] at h
      | ok o =>
        simp only [ho, Except.map, Except.ok.injEq, Prod.mk.injEq] at h
        obtain ⟨rfl, rfl⟩ := h
        exact ⟨rfl, Nat.pos_of_ne_zero hpos⟩

theorem nextStep_progress {g : Grammar} {limits : Limits} {tokens : Array String} {index : Nat}
    {m : RuleMatch} {rule : Rule} (h : g.nextStep limits tokens index = some (.ok (m, rule))) :
    m.index = index ∧ 0 < rule.tokenCount := by
  obtain ⟨r, _, hr⟩ := Option.map_eq_some_iff.1 h
  cases r with
  | error e => cases hr
  | ok id => exact stepWith_progress hr

/-- Goes on with a run that has written `out`. -/
def runFrom (g : Grammar) (limits : Limits) (c : Context) (out : String) :
    Option (Context × Except ParseError String) :=
  if c.position < c.stop then
    match _h : g.nextStep limits c.sequence.tokens c.position with
    | none => none
    | some (.error err) => some (c, .error err)
    | some (.ok (m, rule)) =>
      runFrom g limits (c.record m rule.tokenCount)
        (out ++ g.onmatchText m.onmatch ++ rule.production)
  else some (c, .ok out)
termination_by c.stop - c.position
decreasing_by
  have hm := nextStep_progress _h
  simp only [Context.record, Context.stop] at *
  omega

/-- Runs a context to its end, held only to the limits on walks. On an error it keeps the steps
that were taken, and the answer is the error alone. -/
def run (g : Grammar) (limits : Limits) (c : Context) :
    Option (Context × Except ParseError String) := g.runFrom limits c ""

/-- What a parse of a whole input yields: the text it wrote, and its context. -/
structure Parsed where
  output : String
  context : Context
deriving DecidableEq

/-- Parses an input under limits. -/
def parseWithTrace (g : Grammar) (limits : Limits) (input : String) :
    Option (Except ParseError Parsed) :=
  if 0 < limits.inputSize ∧ limits.inputSize < input.utf8ByteSize then
    some (.error (.inputTooLarge input.utf8ByteSize limits.inputSize))
  else
    let sequence := g.tokenize input
    if limits.strict ∧ !sequence.isClean then some (.error (.unrecognized sequence.unrecognized))
    else
      (g.run limits (.ofSequence sequence)).map fun (context, result) =>
        result.map fun output => ⟨output, context⟩

/-- The text that a parse of an input writes. -/
def parse (g : Grammar) (limits : Limits) (input : String) : Option (Except ParseError String) :=
  (g.parseWithTrace limits input).map fun r => r.map (·.output)

end Grammar

end Translit
