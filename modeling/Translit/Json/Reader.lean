import Translit.Json.Token

/-!
# Reading JSON

The tokens of a text are put together one by one. What is unfinished stands in a list of open
containers, innermost first, so nesting has no limit; reading ends with one finished value and no
open container.

* `Json.ofTokens?` : the value of a row of tokens;
* `Json.read?` : the value of a text, with nothing but blanks around it.
-/

namespace Translit.Json

/-- A container that is still open: what it holds so far, the latest first. -/
inductive Frame where
  | array (items : List Json)
  | object (members : List (Option String × Json)) (key : Option String)

/-- What must come next, inside the open containers. -/
inductive Expected where
  | value (outer : List Frame)
  | firstItem (outer : List Frame)
  | firstMember (outer : List Frame)
  | key (outer : List Frame) (members : List (Option String × Json))
  | colon (outer : List Frame) (members : List (Option String × Json)) (key : Option String)
  | afterValue (v : Json) (outer : List Frame)

namespace Expected

/-- A token at a place where a value must come. -/
def beginValue? (outer : List Frame) : Token → Option Expected
  | .null => some (.afterValue .null outer)
  | .bool b => some (.afterValue (.bool b) outer)
  | .number n => some (.afterValue (.number n) outer)
  | .string s => some (.afterValue (.string s) outer)
  | .openArray => some (.firstItem outer)
  | .openObject => some (.firstMember outer)
  | _ => none

/-- A token after a finished value. -/
def afterValue? (v : Json) : List Frame → Token → Option Expected
  | .array items :: outer, .comma => some (.value (.array (v :: items) :: outer))
  | .array items :: outer, .closeArray => some (.afterValue (.array (v :: items).reverse) outer)
  | .object members k :: outer, .comma => some (.key outer ((k, v) :: members))
  | .object members k :: outer, .closeObject =>
    some (.afterValue (.object ((k, v) :: members).reverse) outer)
  | _, _ => none

/-- One token further. -/
def next? : Expected → Token → Option Expected
  | .value outer, t => beginValue? outer t
  | .firstItem outer, .closeArray => some (.afterValue (.array []) outer)
  | .firstItem outer, t => beginValue? (.array [] :: outer) t
  | .firstMember outer, .closeObject => some (.afterValue (.object []) outer)
  | .firstMember outer, .string k => some (.colon outer [] k)
  | .key outer members, .string k => some (.colon outer members k)
  | .colon outer members k, .colon => some (.value (.object members k :: outer))
  | .afterValue v outer, t => afterValue? v outer t
  | _, _ => none

end Expected

/-- The value of a row of tokens. -/
def ofTokens? (ts : List Token) : Option Json :=
  match ts.foldlM Expected.next? (.value []) with
  | some (.afterValue v []) => some v
  | _ => none

/-- The value of a text. -/
def read? (cs : List Char) : Option Json := (Token.ofText? cs).bind ofTokens?

end Translit.Json
