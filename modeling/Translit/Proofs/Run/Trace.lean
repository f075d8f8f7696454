import Translit.Parse.Trace
import Translit.Proofs.Text.Quoted

/-!
# Traces read back

The trace of a parse has one line for each step whose rule the grammar has, and after them one for
each stretch of input that was not recognized. However odd the texts in it are, none breaks a line,
and what the line of a step tells can be read off it.

* `Told` : what the line of a step tells; `Told.line` : the line, without its end;
* `Told.read?` : a reader of such lines; `Told.read?_line` : it reads what the line tells;
* `Grammar.renderTrace_eq` : a trace is its lines; `Text.splitOn_join` : such a text taken apart;
* `Grammar.renderTrace_lines` : the lines of a trace and what they tell.
-/

namespace Translit

namespace Text

/-- Lines that hold no line end, each with one put behind it, are the lines of the text they make;
behind the last one nothing is left. -/
theorem splitOn_lines {lines : List (List Char)} (h : ∀ line ∈ lines, '\n' ∉ line) :
    (lines.flatMap (· ++ ['\n'])).splitOn '\n' = lines ++ [[]] := by
  induction lines with
  | nil => rfl
  | cons line lines ih =>
    obtain ⟨hline, hlines⟩ := List.forall_mem_cons.1 h
    rw [List.flatMap_cons, List.append_assoc, List.singleton_append,
      List.splitOn_append_cons_self_of_not_mem hline, ih hlines, List.cons_append]

/-- The lines of a text of which each is written with a line end behind it. -/
theorem splitOn_join {lines : List String} (h : ∀ line ∈ lines, OneLine line) :
    (String.join (lines.map (· ++ "\n"))).toList.splitOn '\n' =
      lines.map String.toList ++ [[]] := by
  have htext : (String.join (lines.map (· ++ "\n"))).toList =
      (lines.map String.toList).flatMap (· ++ ['\n']) := by
    rw [String.toList_join, List.flatMap_map, List.flatMap_map]
    congr 1
    funext line
    exact String.toList_append
  rw [htext, splitOn_lines]
  exact List.forall_mem_map.2 h

end Text

/-- What the line of a step tells: where the step is, its rule with what the grammar says of it, and
what the onmatch rule before it writes, if there is one. -/
structure Told where
  index : Nat
  rule : RuleId
  tokens : List String
  production : String
  onmatch : Option String
deriving DecidableEq

namespace Told

open Text

/-- How the production of an onmatch rule ends a line. -/
def ending : Option String → String
  | none => ""
  | some production => " (onmatch " ++ quoted production ++ ")"

/-- The line of a step, without its end. -/
def line (t : Told) : String :=
  Grammar.padded t.index ++ ": rule " ++ toString t.rule ++ " " ++ quotedList t.tokens ++ " -> "
    ++ quoted t.production ++ ending t.onmatch

/-- The production of an onmatch rule, from what is left of a line. -/
def readEnding? (cs : List Char) : Option (Option String) :=
  if cs = [] then some none
  else do
    let cs ← takeLiteral? " (onmatch " cs
    let (production, cs) ← takeQuoted? cs
    if cs = [')'] then return some production else none

/-- What a line tells, if it is the line of a step. -/
def read? (line : String) : Option Told := do
  let (index, cs) ← takeNumber? (line.toList.dropWhile (· = ' '))
  let cs ← takeLiteral? ": rule " cs
  let (rule, cs) ← takeNumber? cs
  let cs ← takeLiteral? " " cs
  let (tokens, cs) ← takeTexts? cs
  let cs ← takeLiteral? " -> " cs
  let (production, cs) ← takeQuoted? cs
  return ⟨index, .ofNat rule, tokens, production, ← readEnding? cs⟩

theorem readEnding?_ending (onmatch : Option String) :
    readEnding? (ending onmatch).toList = some onmatch := by
  cases onmatch with
  | none => rfl
  | some production =>
    have hending : (ending (some production)).toList =
        " (onmatch ".toList ++ ((quoted production).toList ++ [')']) := by
      simp [ending]
    rw [readEnding?, hending, if_neg (by simp), takeLiteral?_append]
    simp only [Option.bind_eq_bind, Option.bind_some, takeQuoted?_quoted, if_true, Option.pure_def]

theorem dropWhile_padded (n : Nat) (rest : List Char) :
    ((Grammar.padded n).toList ++ rest).dropWhile (· = ' ') = (toString n).toList ++ rest := by
  have hchar : ∀ d : Number.Digit, d.char ≠ ' ' := by decide
  obtain ⟨d, ds, hdigits⟩ := Number.exists_digits_eq n
  have hpadded : (Grammar.padded n).toList =
      List.replicate (4 - (toString n).length) ' ' ++ (toString n).toList := by
    rw [Grammar.padded, String.toList_append, String.toList_ofList]
  rw [hpadded, List.append_assoc, List.dropWhile_append_of_pos (by simp),
    Number.toList_toString, Number.text, hdigits]
  exact List.dropWhile_cons_of_neg (by simpa using hchar d)

/-- What the line of a step tells is read off it. -/
theorem read?_line (t : Told) : read? t.line = some t := by
  obtain ⟨index, rule, tokens, production, onmatch⟩ := t
  have hline : (line ⟨index, rule, tokens, production, onmatch⟩).toList =
      (Grammar.padded index).toList ++ (": rule ".toList ++ ((toString rule.toNat).toList ++
        (" ".toList ++ ((quotedList tokens).toList ++ (" -> ".toList ++
          ((quoted production).toList ++ (ending onmatch).toList)))))) := by
    simp only [line, String.toList_append, List.append_assoc]
    rfl
  have hindex (cs : List Char) : takeNumber? ((toString index).toList ++ (": rule ".toList ++ cs)) =
      some (index, ": rule ".toList ++ cs) :=
    takeNumber?_toString index (by simp; decide)
  have hrule (cs : List Char) : takeNumber? ((toString rule.toNat).toList ++ (" ".toList ++ cs)) =
      some (rule.toNat, " ".toList ++ cs) :=
    takeNumber?_toString rule.toNat (by simp; decide)
  simp only [read?, hline, dropWhile_padded, hindex, hrule, takeLiteral?_append,
    takeTexts?_quotedList, takeQuoted?_quoted, readEnding?_ending, Option.bind_eq_bind,
    Option.bind_some, Option.pure_def, UInt64.ofNat_toNat]

example : Told.read? "   1: rule 0 [\"a\", \"\\\"\"] -> \"A\\n\"" =
    some ⟨1, 0, ["a", "\""], "A\n", none⟩ := by
  decide

theorem oneLine_line (t : Told) : OneLine t.line := by
  have hpadded (n : Nat) : OneLine (Grammar.padded n) := by
    refine .append ?_ (.number n)
    rw [OneLine, String.toList_ofList]
    simp
  have hending (onmatch : Option String) : OneLine (ending onmatch) := by
    cases onmatch with
    | none => decide
    | some production => exact .append (.append (by decide) (.quoted production)) (by decide)
  unfold line
  refine .append (.append (.append (.append (.append (.append (.append (hpadded t.index) ?_)
    (.number t.rule.toNat)) ?_) (.quotedList t.tokens)) ?_) (.quoted t.production))
    (hending t.onmatch)
  all_goals decide

end Told

/-- The message about a stretch is one line. -/
theorem Unrecognized.oneLine_message (u : Unrecognized) : Text.OneLine u.message := by
  have hplace (p : Text.Position) : Text.OneLine p.describe := by
    unfold Text.Position.describe
    refine .append (.append (.append ?_ (.number p.line)) ?_) (.number p.column)
    all_goals decide
  unfold message
  refine .append (.append (.append (.append ?_ (.quoted u.snippet)) ?_) (hplace u.position))
    (.append (.append ?_ (.number u.position.offset)) ?_)
  all_goals decide

namespace Grammar

/-- What the trace tells of a step, if the grammar has its rule. -/
def told? (g : Grammar) (m : RuleMatch) : Option Told :=
  (g.rule? m.rule).map fun rule =>
    { index := m.index
      rule := m.rule
      tokens := rule.tokens
      production := rule.production
      onmatch := (m.onmatch.bind g.onmatchRule?).map (·.production) }

/-- How a trace tells of a stretch that was not recognized. -/
def warning (u : Unrecognized) : String := "warning: " ++ u.message

theorem traceLine?_eq (g : Grammar) (m : RuleMatch) :
    g.traceLine? m = (g.told? m).map (·.line ++ "\n") := by
  unfold traceLine? told?
  cases g.rule? m.rule with
  | none => rfl
  | some rule =>
    simp only [Option.map_some, Told.line, Text.toString_string, String.append_assoc]
    cases m.onmatch.bind g.onmatchRule? with
    | none => simp only [Told.ending, Option.map_none]
    | some r => simp only [Told.ending, Option.map_some, String.append_assoc]

/-- The trace is its lines, each with a line end behind it. -/
theorem renderTrace_eq (g : Grammar) (c : Context) :
    g.renderTrace c = String.join (((c.steps.toList.filterMap g.told?).map Told.line ++
      c.sequence.unrecognized.map warning).map (· ++ "\n")) := by
  have hsteps : c.steps.toList.filterMap g.traceLine? =
      ((c.steps.toList.filterMap g.told?).map Told.line).map (· ++ "\n") := by
    rw [List.map_map, List.map_filterMap]
    congr 1
    funext m
    exact g.traceLine?_eq m
  have hwarnings : (c.sequence.unrecognized.map fun u => "warning: " ++ u.message ++ "\n") =
      (c.sequence.unrecognized.map warning).map (· ++ "\n") := by
    rw [List.map_map]
    rfl
  rw [renderTrace, hsteps, hwarnings, List.map_append, String.join_append]

theorem oneLine_warning (u : Unrecognized) : Text.OneLine (warning u) :=
  .append (by decide) u.oneLine_message

/-- The line of a stretch begins with a letter, where that of a step has a number. -/
theorem read?_warning (u : Unrecognized) : Told.read? (warning u) = none := by
  have hline : (warning u).toList = 'w' :: ("arning: ".toList ++ u.message.toList) := by
    rw [warning, String.toList_append]
    rfl
  rw [Told.read?, hline]
  rfl

/-- **One line for each step.** Take a context, under whatever grammar it came about. Each line of
its trace ends with a line end and holds no other. The lines are one for each step whose rule the
grammar has, in the order of the steps, and one for each stretch that was not recognized, in the
order of the stretches. What the line of a step tells is read off it: the index, the number of the
rule, its tokens, its production and the production of the onmatch rule, if one was written; the
line of a stretch is seen not to be one. -/
theorem renderTrace_lines (g : Grammar) (c : Context) :
    let told := c.steps.toList.filterMap g.told?
    let lines := told.map Told.line ++ c.sequence.unrecognized.map warning
    g.renderTrace c = String.join (lines.map (· ++ "\n")) ∧
    (∀ line ∈ lines, '\n' ∉ line.toList) ∧
    (g.renderTrace c).toList.splitOn '\n' = lines.map String.toList ++ [[]] ∧
    (∀ t ∈ told, Told.read? t.line = some t) ∧
    ∀ u ∈ c.sequence.unrecognized, Told.read? (warning u) = none := by
  intro told lines
  have hnewline : ∀ line ∈ lines, Text.OneLine line := by
    intro line hline
    rcases List.mem_append.1 hline with hline | hline
    · obtain ⟨t, -, rfl⟩ := List.mem_map.1 hline
      exact t.oneLine_line
    · obtain ⟨u, -, rfl⟩ := List.mem_map.1 hline
      exact oneLine_warning u
  have hrender : g.renderTrace c = String.join (lines.map (· ++ "\n")) := g.renderTrace_eq c
  exact ⟨hrender, hnewline, hrender ▸ Text.splitOn_join hnewline, fun t _ => t.read?_line,
    fun u _ => read?_warning u⟩

end Grammar

end Translit
