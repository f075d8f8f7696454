import Translit.Grammar.Document
import Translit.Json.Reader
import Translit.Json.Shape

/-!
# Reading a grammar document

Records may be objects or arrays of their fields. Rules, onmatch rules and the whitespace policy
are always arrays, and of full length. A document that is not of this shape is refused as a whole.

* `Document.ofJson?` : the document that a JSON value denotes;
* `Document.read?` : the document that a text denotes.
-/

namespace Translit.Document

open Json (asBool? asText? asWord? asBinary64? asOption? asList? asTable? fields? required? orElse?
  optional?)

/-- A list of texts. -/
def texts? : Json → Option (List String) := asList? asText?

/-- A node, all of whose fields may be absent. -/
def Node.ofJson? (v : Json) : Option Node := do
  match ← fields? ["accepting", "rule_key", "ordered_children"] v with
  | [accepting, rule, children] =>
    return {
      accepting := ← orElse? false asBool? accepting
      rule := ← optional? asWord? rule
      orderedChildren := ← orElse? Table.empty (asTable? (asList? asWord?)) children }
  | _ => none

/-- The windows of an edge, any of which may be absent. -/
def constraints? (v : Json) : Option Constraints := do
  match ← fields? ["prev_tokens", "next_tokens", "prev_classes", "next_classes"] v with
  | [prevTokens, nextTokens, prevClasses, nextClasses] =>
    return {
      prevTokens := ← optional? texts? prevTokens
      nextTokens := ← optional? texts? nextTokens
      prevClasses := ← optional? texts? prevClasses
      nextClasses := ← optional? texts? nextClasses }
  | _ => none

/-- An edge, with or without constraints. -/
def Edge.ofJson? (v : Json) : Option Edge := do
  match ← fields? ["constraints"] v with
  | [constraints] => return ⟨← optional? constraints? constraints⟩
  | _ => none

/-- The automaton, either half of which may be absent. -/
def Graph.ofJson? (v : Json) : Option Graph := do
  match ← fields? ["node", "edge"] v with
  | [nodes, edges] =>
    return {
      nodes := ← orElse? Table.empty (asTable? Node.ofJson?) nodes
      edges := ← orElse? Table.empty (asTable? (asTable? Edge.ofJson?)) edges }
  | _ => none

/-- A rule: its production, the context before, the tokens, the context after and the cost. -/
def rule? : Json → Option Rule
  | .array [production, prevClasses, prevTokens, tokens, nextTokens, nextClasses, cost] => do
    return {
      production := ← asText? production
      prevClasses := ← asOption? texts? prevClasses
      prevTokens := ← asOption? texts? prevTokens
      tokens := ← texts? tokens
      nextTokens := ← asOption? texts? nextTokens
      nextClasses := ← asOption? texts? nextClasses
      cost := ← asBinary64? cost }
  | _ => none

/-- An onmatch rule: the classes before, the classes after and the production. -/
def onmatchRule? : Json → Option OnmatchRule
  | .array [prevClasses, nextClasses, production] => do
    return ⟨← texts? prevClasses, ← texts? nextClasses, ← asText? production⟩
  | _ => none

/-- The whitespace policy: the default token, the class and whether runs count as one. -/
def whitespace? : Json → Option Whitespace
  | .array [defaultToken, tokenClass, consolidate] => do
    return ⟨← asText? defaultToken, ← asText? tokenClass, ← asBool? consolidate⟩
  | _ => none

/-- The document that a JSON value denotes. -/
def ofJson? (v : Json) : Option Document := do
  let names := ["_graph", "_rules", "_onmatch_rules", "_onmatch_rules_lookup",
    "_tokenizer_pattern", "_tokens", "_whitespace"]
  match ← fields? names v with
  | [graph, rules, onmatchRules, onmatchLookup, pattern, classes, whitespace] =>
    return {
      graph := ← required? Graph.ofJson? graph
      rules := ← required? (asList? rule?) rules
      onmatchRules := ← orElse? [] (asList? onmatchRule?) onmatchRules
      onmatchLookup :=
        ← orElse? Table.empty (asTable? (asTable? (asList? asWord?))) onmatchLookup
      pattern := ← required? asText? pattern
      classes := ← required? (asTable? texts?) classes
      whitespace := ← required? whitespace? whitespace }
  | _ => none

/-- The document that a text denotes. -/
def read? (s : String) : Option Document := (Json.read? s.toList).bind ofJson?

end Translit.Document
