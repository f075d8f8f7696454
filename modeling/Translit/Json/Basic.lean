import Translit.Json.Numeral

/-!
# JSON values

A JSON value as its text spells it: members keep their order and may repeat a key, and numbers
keep their spelling. A string literal may hold one half of a surrogate pair without the other;
it is well formed but denotes no text, which `none` stands for.
-/

namespace Translit

/-- A JSON value; a string or key that denotes no text is `none`. -/
inductive Json where
  | null
  | bool (b : Bool)
  | number (n : Json.Numeral)
  | string (s : Option String)
  | array (items : List Json)
  | object (members : List (Option String × Json))

namespace Json

instance : Inhabited Json := ⟨null⟩

/-- A text as a value. -/
def text (s : String) : Json := string (some s)

/-- A natural number as a value. -/
def nat (n : Nat) : Json := number (.ofNat n)

/-- A list of texts as a value. -/
def texts (ss : List String) : Json := array (ss.map text)

end Json

end Translit
