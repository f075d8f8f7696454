import Translit.Grammar.Constraints
import Translit.Grammar.Rule
import Translit.Pattern.Scan
import Translit.Table

/-!
# Grammars

A grammar ready for use: an automaton whose nodes are numbers, the constraints of its edges, the
tables of rules and onmatch rules, a tokenizer pattern and the classes of tokens. Nothing says that
the automaton is well formed; a number that leads nowhere is found out when a walk comes by.
-/

namespace Translit

/-- A node of the automaton: whether a rule ends here and which, the children of each token that
has its own, and the list that serves every other token. -/
structure Node where
  accepting : Bool
  rule : Option RuleId
  children : Table String (List NodeId)
  fallback : List NodeId
deriving DecidableEq

/-- The nodes that a walk tries next when it meets a token. -/
def Node.successors (n : Node) (token : String) : List NodeId :=
  (n.children.get? token).getD n.fallback

/-- A grammar ready for use. -/
structure Grammar where
  nodes : Table NodeId Node
  edges : Table NodeId (Table NodeId Constraints)
  rules : Array Rule
  onmatchRules : Array OnmatchRule
  onmatchLookup : Table String (Table String (List OnmatchId))
  pattern : Pattern
  classes : Table String (List String)
  whitespace : Whitespace

namespace Grammar

/-- The node where every walk begins. -/
def root : NodeId := 0

/-- The node of a number. -/
def node? (g : Grammar) (id : NodeId) : Option Node := g.nodes.get? id

/-- The constraints on the edge between two nodes. -/
def edge? (g : Grammar) (parent child : NodeId) : Option Constraints :=
  (g.edges.get? parent).bind (·.get? child)

/-- The rule of a number. -/
def rule? (g : Grammar) (id : RuleId) : Option Rule := g.rules[id.toNat]?

/-- The onmatch rule of a number. -/
def onmatchRule? (g : Grammar) (id : OnmatchId) : Option OnmatchRule := g.onmatchRules[id.toNat]?

/-- The onmatch rules to try between two tokens, in order. -/
def onmatchCandidates? (g : Grammar) (current previous : String) : Option (List OnmatchId) :=
  (g.onmatchLookup.get? current).bind (·.get? previous)

/-- The classes of a token, sorted and each once, if the token is known. -/
def classesOf? (g : Grammar) (token : String) : Option (List String) := g.classes.get? token

/-- The token belongs to the class. -/
def hasClass (g : Grammar) (token tokenClass : String) : Bool :=
  (g.classesOf? token).any (·.contains tokenClass)

/-- The token is blank. -/
def isBlank (g : Grammar) (token : String) : Bool := g.hasClass token g.whitespace.tokenClass

end Grammar

end Translit
