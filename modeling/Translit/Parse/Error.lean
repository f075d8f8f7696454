import Translit.Grammar.Rule
import Translit.Token.Unrecognized

/-!
# What can go wrong in a parse

A parse fails because no rule matches, because a limit is exceeded, because some input was not
recognized where that is asked for, or because the grammar is not well formed.

* `Defect.reason`, `ParseError.message` : how each of them reads.
-/

namespace Translit

/-- A defect of a grammar that a parse came upon. -/
inductive Defect where
  | missingNode (id : NodeId)
  | acceptsNothing (node : NodeId)
  | acceptsUnknown (node : NodeId) (rule : RuleId)
  | unknownRule (rule : RuleId)
  | emptyRule (rule : RuleId)
  | unknownOnmatch (id : OnmatchId)
  | stated (reason : String)
deriving DecidableEq

/-- How a defect reads. -/
def Defect.reason : Defect → String
  | missingNode id => s!"node {id} is referenced but missing"
  | acceptsNothing node => s!"accepting node {node} has no rule"
  | acceptsUnknown node rule => s!"node {node} accepts unknown rule {rule}"
  | unknownRule rule => s!"unknown rule {rule}"
  | emptyRule rule => s!"rule {rule} consumes no tokens"
  | unknownOnmatch id => s!"unknown onmatch rule {id}"
  | stated reason => reason

/-- Why a parse fails. -/
inductive ParseError where
  | noMatch (position : Nat) (token : String)
  | malformed (defect : Defect)
  | inputTooLarge (size limit : Nat)
  | stackLimit (size limit : Nat)
  | unrecognized (spans : List Unrecognized)
deriving DecidableEq

namespace ParseError

/-- The grammar is to blame and not the input. -/
def isGrammarFault : ParseError → Bool
  | malformed _ => true
  | _ => false

/-- How an error reads. -/
def message : ParseError → String
  | noMatch position token =>
    "Could not match token " ++ Text.quoted token ++ s!" at position {position}"
  | malformed defect => "Malformed grammar: " ++ defect.reason
  | inputTooLarge size limit => s!"Input too large: {size} bytes exceeds limit of {limit} bytes"
  | stackLimit size limit =>
    s!"Matcher stack limit exceeded: {size} entries exceeds limit of {limit}"
  | unrecognized spans =>
    s!"{spans.length} unrecognized span(s)" ++
      (match spans with
      | [] => ""
      | u :: _ => ", first: " ++ u.message)

end ParseError

end Translit
