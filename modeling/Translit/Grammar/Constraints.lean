/-!
# Constraints on an edge

An edge of the automaton may ask for tokens or token classes around the tokens that a rule
consumes. From left to right the windows lie: previous classes, previous tokens, the consumed
tokens, next tokens, next classes. A kind of window that is absent is empty, but one that is
present must lie inside the sequence even when it is empty.

* `windowFits` : a window compared with the tokens from one index on;
* `Constraints.hold` : all windows of an edge.
-/

namespace Translit

/-- The four windows of an edge. -/
structure Constraints where
  prevTokens : Option (List String)
  nextTokens : Option (List String)
  prevClasses : Option (List String)
  nextClasses : Option (List String)
deriving DecidableEq

/-- The values of a window, one for each token from `start` on, inside the sequence. -/
def windowFits (fits : String → String → Bool) (tokens : Array String) (start : Nat)
    (values : List String) : Bool :=
  let window := (tokens.extract start (start + values.length)).toList
  decide (start + values.length ≤ tokens.size) && (window.zip values).all fun p => fits p.1 p.2

/-- A window that ends where `offset` tokens before `index` begin; it needs room before them. -/
def windowFitsBefore (fits : String → String → Bool) (tokens : Array String) (index offset : Nat)
    (values : List String) : Bool :=
  decide (offset + values.length ≤ index) &&
    windowFits fits tokens (index - (offset + values.length)) values

namespace Constraints

/-- No constraint of any kind. -/
def empty : Constraints := ⟨none, none, none, none⟩

instance : Inhabited Constraints := ⟨empty⟩

/-- The kinds that are present, by name, in the order they are listed everywhere. -/
def kinds (c : Constraints) : List (String × List String) :=
  (c.prevTokens.map ("prev_tokens", ·)).toList ++ (c.nextTokens.map ("next_tokens", ·)).toList ++
  (c.prevClasses.map ("prev_classes", ·)).toList ++ (c.nextClasses.map ("next_classes", ·)).toList

/-- No kind is present. -/
def isEmpty (c : Constraints) : Bool := c.kinds.isEmpty

/-- The number of tokens that a window asks for. -/
def width (window : Option (List String)) : Nat := (window.getD []).length

/-- Every window that is present fits around the `count` tokens that end before `index`. -/
def hold (hasClass : String → String → Bool) (c : Constraints) (tokens : Array String)
    (index count : Nat) : Bool :=
  (c.prevTokens.all fun vs => windowFitsBefore (· == ·) tokens index count vs) &&
  (c.nextTokens.all fun vs => windowFits (· == ·) tokens index vs) &&
  (c.prevClasses.all fun vs =>
    windowFitsBefore hasClass tokens index (count + width c.prevTokens) vs) &&
  (c.nextClasses.all fun vs => windowFits hasClass tokens (index + width c.nextTokens) vs)

end Constraints

end Translit
