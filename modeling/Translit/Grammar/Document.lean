import Translit.Grammar.Constraints
import Translit.Grammar.Rule
import Translit.Table

/-!
# Grammar documents

A grammar arrives as a document that a compiler of grammars wrote. It names automaton nodes by
text keys and lists the children of a node by the token that leads to them; the list under
`Document.fallbackKey` holds for every token without a list of its own.
-/

namespace Translit.Document

/-- The key of the list that serves every token without a list of its own. -/
def fallbackKey : String := "__rules__"

/-- A node of the automaton. -/
structure Node where
  accepting : Bool
  rule : Option RuleId
  orderedChildren : Table String (List NodeId)
deriving DecidableEq

/-- An edge of the automaton. -/
structure Edge where
  constraints : Option Constraints
deriving DecidableEq

/-- The automaton: nodes by key, and edges by the keys of their ends. -/
structure Graph where
  nodes : Table String Node
  edges : Table String (Table String Edge)
deriving DecidableEq

end Document

/-- A compiled grammar as it is written down. -/
structure Document where
  graph : Document.Graph
  rules : List Rule
  onmatchRules : List OnmatchRule
  onmatchLookup : Table String (Table String (List OnmatchId))
  pattern : String
  classes : Table String (List String)
  whitespace : Whitespace
deriving DecidableEq

end Translit
