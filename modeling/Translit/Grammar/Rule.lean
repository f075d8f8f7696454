import Translit.Number.Binary64

/-!
# Rules

A rule consumes a row of tokens and emits a text; an onmatch rule emits a text between two tokens
before the rule that starts at the second one. Rules, onmatch rules and automaton nodes are named
by numbers.
-/

namespace Translit

/-- The number of an automaton node. -/
abbrev NodeId := UInt64

/-- The place of a rule in the rule table. -/
abbrev RuleId := UInt64

/-- The place of an onmatch rule in its table. -/
abbrev OnmatchId := UInt64

/-- A rule. Matching uses only the production and how many tokens are consumed; the context
beside the tokens says what the automaton's edges were made from. -/
structure Rule where
  production : String
  prevClasses : Option (List String)
  prevTokens : Option (List String)
  tokens : List String
  nextTokens : Option (List String)
  nextClasses : Option (List String)
  cost : Number.Binary64
deriving DecidableEq

/-- The number of tokens a rule consumes. -/
def Rule.tokenCount (r : Rule) : Nat := r.tokens.length

/-- A text emitted between two tokens whose surroundings have the given classes. -/
structure OnmatchRule where
  prevClasses : List String
  nextClasses : List String
  production : String
deriving DecidableEq

/-- How blanks appear among the tokens: the token at both ends of every sequence, the class of
blank tokens, and whether a run of them counts as one. -/
structure Whitespace where
  defaultToken : String
  tokenClass : String
  consolidate : Bool
deriving DecidableEq

end Translit
