import Translit.Parse.Run

/-!
# Traces

The trace of a parse is a text with one line for each step whose rule the grammar has, and one for
each stretch of input that was not recognized. All texts in it are quoted, so none breaks a line.

* `Grammar.renderTrace` : the trace of a context.
-/

namespace Translit.Grammar

/-- A number set to the right in a column of four. -/
def padded (n : Nat) : String :=
  String.ofList (List.replicate (4 - (toString n).length) ' ') ++ toString n

/-- The line of a step, if the grammar has its rule. -/
def traceLine? (g : Grammar) (m : RuleMatch) : Option String :=
  (g.rule? m.rule).map fun rule =>
    padded m.index ++ s!": rule {m.rule} " ++ Text.quotedList rule.tokens ++ " -> "
      ++ Text.quoted rule.production
      ++ (match m.onmatch.bind g.onmatchRule? with
        | some r => " (onmatch " ++ Text.quoted r.production ++ ")"
        | none => "")
      ++ "\n"

/-- The trace of a context. -/
def renderTrace (g : Grammar) (c : Context) : String :=
  String.join (c.steps.toList.filterMap g.traceLine?) ++
    String.join (c.sequence.unrecognized.map fun u => "warning: " ++ u.message ++ "\n")

end Translit.Grammar
