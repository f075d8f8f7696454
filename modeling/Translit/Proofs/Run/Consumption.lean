import Mathlib
import Translit.Proofs.Run.Steps
import Translit.Proofs.Token.Row
import Translit.Proofs.Walk.Span

/-!
# What a run consumes

The spans of the steps of a run follow each other from the first token on without a gap. A run that
comes to its end has consumed all tokens before the last default token. The last span alone may
reach that token and go behind it: a rule whose walk went on there has more tokens than are left.

* `span`, `consumed` : the indices of the tokens of one step, and of all of them;
* `Consumes` : the spans before the position of a context; `Runs.consumes` : a run keeps it;
* `Total` : the tokens before the last are consumed, each once, and no other;
* `EndsBefore`, `Runs.position_le` : a run stays before the last token if no match reaches it;
* `Spelled.total_of_rows` : rows that do not end with the default token are never matched too far.
-/

namespace Translit

namespace Grammar

/-- The indices of the tokens that a step consumes. -/
def span (g : Grammar) (m : RuleMatch) : List Nat :=
  match g.rule? m.rule with
  | some rule => List.range' m.index rule.tokenCount
  | none => []

/-- The indices of the tokens that the steps consume, in order. -/
def consumed (g : Grammar) (steps : Array RuleMatch) : List Nat := steps.toList.flatMap g.span

theorem consumed_push (g : Grammar) (steps : Array RuleMatch) (m : RuleMatch) :
    g.consumed (steps.push m) = g.consumed steps ++ g.span m := by
  rw [consumed, Array.toList_push, List.flatMap_append, List.flatMap_singleton, consumed]

/-- The spans of the steps of a context cover the tokens from the first one to its position. -/
structure Consumes (g : Grammar) (c : Context) : Prop where
  one_le : 1 ≤ c.position
  consumed_eq : g.consumed c.steps = List.range' 1 (c.position - 1)

/-- Each token before the last is consumed once, and no other. -/
structure Total (g : Grammar) (c : Context) : Prop where
  position_eq : c.position = c.stop
  consumed_eq : g.consumed c.steps = List.range' 1 (c.stop - 1)

variable {g : Grammar} {limits : Limits}

/-- A step consumes the tokens from the position of a context to the next one. -/
theorem Consumes.record {c : Context} (h : g.Consumes c) {m : RuleMatch} {rule : Rule}
    (hnext : g.nextStep limits c.sequence.tokens c.position = some (.ok (m, rule))) :
    g.Consumes (c.record m rule.tokenCount) := by
  obtain ⟨-, hrule, hindex, -, -⟩ := nextStep_eq_ok hnext
  have hone := h.one_le
  refine ⟨?_, ?_⟩
  · show 1 ≤ m.index + rule.tokenCount
    omega
  · show g.consumed (c.steps.push m) = List.range' 1 (m.index + rule.tokenCount - 1)
    have hspan : g.span m = List.range' (1 + (c.position - 1)) rule.tokenCount := by
      have hfirst : 1 + (c.position - 1) = m.index := by omega
      rw [span, hrule, hfirst]
    have hlength : m.index + rule.tokenCount - 1 = c.position - 1 + rule.tokenCount := by omega
    rw [consumed_push, h.consumed_eq, hspan, List.range'_append_1, hlength]

theorem Runs.consumes {c c' : Context} {out out' : String} (h : g.Runs limits c out c' out')
    (hc : g.Consumes c) : g.Consumes c' := by
  induction h with
  | refl => exact hc
  | step _ hnext _ ih => exact ih (hc.record hnext)

theorem consumes_ofSequence (g : Grammar) (s : TokenSequence) : g.Consumes (.ofSequence s) :=
  ⟨Nat.le_refl 1, rfl⟩

/-- A context at the last token or behind it is at the last token if no span reaches that. -/
theorem Consumes.total_iff {c : Context} (h : g.Consumes c) (hone : 1 ≤ c.stop)
    (hstop : c.stop ≤ c.position) :
    g.Total c ↔ ∀ m ∈ c.steps, ∀ i ∈ g.span m, i < c.stop := by
  have hmem (i : Nat) : i ∈ g.consumed c.steps ↔ ∃ m ∈ c.steps, i ∈ g.span m := by
    rw [consumed, List.mem_flatMap]
    simp only [Array.mem_toList_iff]
  constructor
  · rintro ⟨-, hconsumed⟩ m hm i hi
    have hi' := (hmem i).2 ⟨m, hm, hi⟩
    rw [hconsumed, List.mem_range'_1] at hi'
    omega
  · intro hspans
    have hposition : c.position = c.stop := by
      rcases Nat.lt_or_eq_of_le hstop with hlt | heq
      · have hlast : c.stop ∈ g.consumed c.steps := by
          rw [h.consumed_eq, List.mem_range'_1]
          omega
        obtain ⟨m, hm, hi⟩ := (hmem c.stop).1 hlast
        exact absurd (hspans m hm c.stop hi) (Nat.lt_irrefl c.stop)
      · exact heq.symm
    refine ⟨hposition, ?_⟩
    rw [h.consumed_eq, hposition]

/-! ## Runs that end at the last token -/

/-- No rule that matches before the last token reaches it. -/
def EndsBefore (g : Grammar) (limits : Limits) (tokens : Array String) : Prop :=
  ∀ index ruleId rule, index + 1 < tokens.size →
    (g.walk limits tokens).matchAt index = some (.ok ruleId) → g.rule? ruleId = some rule →
      index + rule.tokenCount < tokens.size

/-- A run stays before the last token if no rule that matches reaches it. -/
theorem Runs.position_le {c c' : Context} {out out' : String} (h : g.Runs limits c out c' out')
    (hends : g.EndsBefore limits c.sequence.tokens) (hc : c.position ≤ c.stop) :
    c'.position ≤ c'.stop := by
  induction h with
  | refl => exact hc
  | @step c c' out out' m rule hlt hnext _ ih =>
    obtain ⟨hmatch, hrule, hindex, -, -⟩ := nextStep_eq_ok hnext
    have hsize : c.position + 1 < c.sequence.tokens.size := by
      rw [Context.stop] at hlt
      omega
    have hend : c.position + rule.tokenCount < c.sequence.tokens.size :=
      hends c.position m.rule rule hsize hmatch hrule
    refine ih hends ?_
    show m.index + rule.tokenCount ≤ c.sequence.tokens.size - 1
    omega

theorem token_stop_tokenize (g : Grammar) (limits : Limits) (input : String) :
    let c := Context.ofSequence (g.tokenize input)
    1 ≤ c.stop ∧ (g.walk limits c.sequence.tokens).token c.stop = g.whitespace.defaultToken := by
  obtain ⟨middle, hends⟩ := g.tokens_tokenize input
  have hsize : (g.tokenize input).tokens.size = middle.length + 2 := by
    rw [← Array.length_toList, hends, List.length_cons, List.length_append]
    rfl
  have hlast : (g.tokenize input).tokens[middle.length + 1]? = some g.whitespace.defaultToken := by
    rw [← Array.getElem?_toList, hends, List.getElem?_cons_succ, List.getElem?_concat_length]
  intro c
  have hstop : c.stop = middle.length + 1 := by
    show (g.tokenize input).tokens.size - 1 = middle.length + 1
    omega
  refine ⟨by omega, ?_⟩
  rw [hstop]
  show ((g.tokenize input).tokens[middle.length + 1]?).getD "" = g.whitespace.defaultToken
  rw [hlast]
  rfl

theorem endsBefore_of_stopsUnder (hpaced : g.Paced)
    (hstops : g.StopsUnder g.whitespace.defaultToken) (limits : Limits) (input : String) :
    g.EndsBefore limits (g.tokenize input).tokens := by
  obtain ⟨-, hlast⟩ := token_stop_tokenize g limits input
  rw [← hlast] at hstops
  intro index ruleId rule hsize hmatch hrule
  exact Walk.lt_of_matchAt_of_stopsUnder hpaced hstops hsize hmatch hrule

theorem endsBefore_of_rows {word : NodeId → List String} (h : g.Spelled word)
    (hrows : ∀ ruleId rule, g.rule? ruleId = some rule → 2 ≤ rule.tokenCount →
      rule.tokens.getLast? ≠ some g.whitespace.defaultToken) (limits : Limits) (input : String) :
    g.EndsBefore limits (g.tokenize input).tokens := by
  obtain ⟨-, hlast⟩ := token_stop_tokenize g limits input
  rw [← hlast] at hrows
  intro index ruleId rule hsize hmatch hrule
  exact Walk.lt_of_matchAt_of_rows h hrows hsize hmatch hrule

/-! ## Whole inputs -/

section Parse

variable {input : String} {parsed : Parsed}
  (hparse : g.parseWithTrace limits input = some (.ok parsed))

include hparse

/-- A parse has covered the tokens of its input, at least up to the last. -/
theorem consumes_of_parse :
    parsed.context.sequence = g.tokenize input ∧ 1 ≤ parsed.context.stop ∧
      parsed.context.stop ≤ parsed.context.position ∧ g.Consumes parsed.context := by
  obtain ⟨hruns, hstop⟩ := runs_of_parseWithTrace hparse
  have hsequence : parsed.context.sequence = g.tokenize input := hruns.sequence_eq
  refine ⟨hsequence, ?_, hstop, hruns.consumes (consumes_ofSequence g _)⟩
  rw [Context.stop, hsequence]
  exact (token_stop_tokenize g limits input).1

theorem total_of_endsBefore (hends : g.EndsBefore limits (g.tokenize input).tokens) :
    g.Total parsed.context := by
  obtain ⟨hruns, hstop⟩ := runs_of_parseWithTrace hparse
  obtain ⟨-, -, -, hconsumes⟩ := consumes_of_parse hparse
  have hle : parsed.context.position ≤ parsed.context.stop :=
    hruns.position_le hends (token_stop_tokenize g limits input).1
  have hposition : parsed.context.position = parsed.context.stop := Nat.le_antisymm hle hstop
  refine ⟨hposition, ?_⟩
  rw [hconsumes.consumed_eq, hposition]

/-- Where no row of two tokens or more ends with the default token, a parse consumes each token
before the last once, and no other. -/
theorem Spelled.total_of_rows {word : NodeId → List String} (h : g.Spelled word)
    (hrows : ∀ ruleId rule, g.rule? ruleId = some rule → 2 ≤ rule.tokenCount →
      rule.tokens.getLast? ≠ some g.whitespace.defaultToken) : g.Total parsed.context :=
  total_of_endsBefore hparse (endsBefore_of_rows h hrows limits input)

end Parse

/-- **What a parse consumes.** The spans of its steps cover the tokens from the first one to its
position, which is not before the last token. Each token before the last is consumed once, and no
other, exactly if no span reaches the last token; that is so where no path goes on under the default
token. -/
theorem total_iff_of_parse (hpaced : g.Paced) {input : String} {parsed : Parsed}
    (hparse : g.parseWithTrace limits input = some (.ok parsed)) :
    let c := parsed.context
    c.sequence = g.tokenize input ∧ c.stop ≤ c.position ∧
      g.consumed c.steps = List.range' 1 (c.position - 1) ∧
      (g.Total c ↔ ∀ m ∈ c.steps, ∀ i ∈ g.span m, i < c.stop) ∧
      (g.StopsUnder g.whitespace.defaultToken → g.Total c) := by
  intro c
  obtain ⟨hsequence, hone, hstop, hconsumes⟩ := consumes_of_parse hparse
  refine ⟨hsequence, hstop, hconsumes.consumed_eq, hconsumes.total_iff hone hstop, ?_⟩
  intro hstops
  exact total_of_endsBefore hparse (endsBefore_of_stopsUnder hpaced hstops limits input)

/-- The rows `a` and `a a`; the pattern finds `a`. -/
def pairGrammar : Grammar :=
  { ofAutomaton
      [(0, .inner [("a", [1])] []), (1, .inner [("a", [2, 3])] [3]), (2, .inner [] [4]),
        (3, .leaf 0), (4, .leaf 1)]
      [] [["a"], ["a", "a"]] with
    pattern := ⟨"a", 0, #[.take (.single 'a'), .accept]⟩ }

/-- The rows that lead to the inner nodes of `pairGrammar`. -/
def pairWord (id : NodeId) : List String := ["a", "a"].take id.toNat

theorem spelled_pairGrammar : pairGrammar.Spelled pairWord :=
  .of_isSpelled (by decide)

theorem stopsUnder_pairGrammar : pairGrammar.StopsUnder " " :=
  stopsUnder_of_entries (by decide)

/-- Three tokens `a` are a row of two and a row of one. -/
theorem total_iff_of_parse_pairGrammar :
    ∃ parsed, pairGrammar.Paced ∧
      pairGrammar.parseWithTrace .default "aaa" = some (.ok parsed) ∧
      parsed.context.steps = #[⟨1, 1, none⟩, ⟨3, 0, none⟩] ∧ pairGrammar.Total parsed.context := by
  have hparse : pairGrammar.parseWithTrace .default "aaa" =
      some (.ok ⟨"", ⟨⟨#[" ", "a", "a", "a", " "], []⟩, #[⟨1, 1, none⟩, ⟨3, 0, none⟩], 4⟩⟩) := by
    cbv
  obtain ⟨-, -, -, -, htotal⟩ := total_iff_of_parse spelled_pairGrammar.paced hparse
  exact ⟨_, spelled_pairGrammar.paced, hparse, rfl, htotal stopsUnder_pairGrammar⟩

/-- One token `a` is taken for a row of three, two tokens of which are not there. -/
theorem exists_parse_not_total :
    ∃ parsed, blankTail.Paced ∧
      blankTail.parseWithTrace .default "a" = some (.ok parsed) ∧
      parsed.context.stop = 2 ∧ parsed.context.position = 4 ∧
      ¬ blankTail.Total parsed.context := by
  have hparse : blankTail.parseWithTrace .default "a" =
      some (.ok ⟨"", ⟨⟨#[" ", "a", " "], []⟩, #[⟨1, 2, none⟩], 4⟩⟩) := by
    cbv
  refine ⟨_, spelled_blankTail.paced, hparse, rfl, rfl, fun htotal => ?_⟩
  have hposition := htotal.position_eq
  cases hposition

end Grammar

end Translit
