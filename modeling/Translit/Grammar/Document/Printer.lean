import Translit.Grammar.Document
import Translit.Json.Printer

/-!
# Writing a grammar document

Records are written as objects with their fields in a fixed order. An absent rule of a node, absent
constraints of an edge and absent windows are left out; an absent context of a rule is `null`.

* `Document.toJson` : a document as a JSON value;
* `Document.write` : a document as text.
-/

namespace Translit.Document

/-- A table as an object. -/
def ofTable {α : Type} (ofValue : α → Json) (t : Table String α) : Json :=
  .object (t.entries.map fun e => (some e.1, ofValue e.2))

/-- A list of identifiers. -/
def ofIds (ids : List UInt64) : Json := .array (ids.map fun id => .nat id.toNat)

/-- A field that is left out when it is absent. -/
def ofField {α : Type} (name : String) (ofValue : α → Json) :
    Option α → List (Option String × Json)
  | none => []
  | some v => [(some name, ofValue v)]

/-- A value or `null`. -/
def ofOption {α : Type} (ofValue : α → Json) : Option α → Json
  | none => .null
  | some v => ofValue v

/-- A node as an object. -/
def Node.toJson (n : Node) : Json :=
  .object <| [(some "accepting", .bool n.accepting)]
    ++ ofField "rule_key" (fun id : RuleId => .nat id.toNat) n.rule
    ++ [(some "ordered_children", ofTable ofIds n.orderedChildren)]

/-- The windows of an edge as an object. -/
def ofConstraints (c : Constraints) : Json :=
  .object <| ofField "prev_tokens" Json.texts c.prevTokens
    ++ ofField "next_tokens" Json.texts c.nextTokens
    ++ ofField "prev_classes" Json.texts c.prevClasses
    ++ ofField "next_classes" Json.texts c.nextClasses

/-- An edge as an object. -/
def Edge.toJson (e : Edge) : Json := .object (ofField "constraints" ofConstraints e.constraints)

/-- The automaton as an object. -/
def Graph.toJson (g : Graph) : Json :=
  .object [(some "node", ofTable Node.toJson g.nodes),
    (some "edge", ofTable (ofTable Edge.toJson) g.edges)]

/-- A rule as an array. -/
def ofRule (r : Rule) : Json :=
  .array [.text r.production, ofOption Json.texts r.prevClasses, ofOption Json.texts r.prevTokens,
    Json.texts r.tokens, ofOption Json.texts r.nextTokens, ofOption Json.texts r.nextClasses,
    .number (.ofBinary64 r.cost)]

/-- An onmatch rule as an array. -/
def ofOnmatchRule (r : OnmatchRule) : Json :=
  .array [Json.texts r.prevClasses, Json.texts r.nextClasses, .text r.production]

/-- The whitespace policy as an array. -/
def ofWhitespace (w : Whitespace) : Json :=
  .array [.text w.defaultToken, .text w.tokenClass, .bool w.consolidate]

/-- A document as a JSON value. -/
def toJson (d : Document) : Json :=
  .object [(some "_graph", d.graph.toJson),
    (some "_rules", .array (d.rules.map ofRule)),
    (some "_onmatch_rules", .array (d.onmatchRules.map ofOnmatchRule)),
    (some "_onmatch_rules_lookup", ofTable (ofTable ofIds) d.onmatchLookup),
    (some "_tokenizer_pattern", .text d.pattern),
    (some "_tokens", ofTable Json.texts d.classes),
    (some "_whitespace", ofWhitespace d.whitespace)]

/-- A document as text. -/
def write (d : Document) : String := d.toJson.write

end Translit.Document
