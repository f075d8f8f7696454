import Translit.Pattern.Syntax

/-!
# The normal form of patterns

Patterns are put together by functions that keep a normal form: a row holds no row and no empty
pattern, and no two literals side by side; alternatives hold no alternatives; a class of one
character is a literal; alternatives that are all one character, or all one class, are one class.
Alternatives that all begin with the same items are one row: those items, then a choice between
what is left. This shows in what is found, as the preference among the alternatives then comes
after the choices inside the common items.

* `Node.ofSet`, `Node.concat`, `Node.alternation`, `Node.repetition`.
-/

namespace Translit.Pattern.Node

/-- One character of a set. -/
def ofSet (s : CharSet) : Node :=
  match s.single? with
  | some c => literal [c]
  | none => one s

/-! ## Rows -/

/-- The items of a row. -/
def factors : Node → List Node
  | empty => []
  | seq first second => first.factors ++ second.factors
  | n => [n]

/-- An item in front of a row; two literals side by side become one. -/
def attach : Node → List Node → List Node
  | literal cs, literal ds :: ns => literal (cs ++ ds) :: ns
  | n, ns => n :: ns

/-- A row of items as one pattern. -/
def ofFactors : List Node → Node
  | [] => empty
  | [n] => n
  | n :: ns => seq n (ofFactors ns)

/-- One pattern after the other. -/
def concat (ns : List Node) : Node := ofFactors ((ns.flatMap factors).foldr attach [])

/-! ## Alternatives -/

/-- The alternatives of a pattern, the preferred one first. -/
def branches : Node → List Node
  | alt first second => first.branches ++ second.branches
  | n => [n]

/-- Alternatives as one pattern; without any, nothing is found. -/
def ofBranches : List Node → Node
  | [] => one .empty
  | [n] => n
  | n :: ns => alt n (ofBranches ns)

/-- The character of a literal that is just one. -/
def char? : Node → Option Char
  | literal [c] => some c
  | _ => none

/-- The set of a class. -/
def set? : Node → Option CharSet
  | one s => some s
  | _ => none

/-- The set of alternatives that are all one character, or all one class. -/
def commonSet? (ns : List Node) : Option CharSet :=
  ((ns.mapM char?).map CharSet.ofChars).or
    ((ns.mapM set?).map fun sets => sets.foldl .union .empty)

/-- Alternatives, one class if they can be. -/
def anyOf (ns : List Node) : Node :=
  let ns := ns.flatMap branches
  match ns, commonSet? ns with
  | _ :: _ :: _, some s => ofSet s
  | _, _ => ofBranches ns

/-- What two rows begin with alike. -/
def commonHead : List Node → List Node → List Node
  | m :: ms, n :: ns => if m = n then m :: commonHead ms ns else []
  | _, _ => []

/-- The pattern is a row of several items. -/
def isRow : Node → Bool
  | seq _ _ => true
  | _ => false

/-- What all rows of several begin with alike; nothing if one alternative is not a row. -/
def sharedHead : List Node → List Node
  | [] => []
  | [n] => if n.isRow then n.factors else []
  | n :: ns => if n.isRow then commonHead n.factors (sharedHead ns) else []

/-- One of several patterns, an earlier one preferred; what all of them begin with comes before the
choice. -/
def alternation (ns : List Node) : Node :=
  match anyOf ns with
  | alt first second =>
    let branches := first.branches ++ second.branches
    let head := sharedHead branches
    if head = [] then alt first second
    else concat (head ++ [anyOf (branches.map fun n => concat (n.factors.drop head.length))])
  | n => n

/-! ## Repetitions -/

/-- A pattern repeated; what asks for no character is repeated once at most. -/
def repetition (least : Nat) (most : Option Nat) (greedy : Bool) (body : Node) : Node :=
  let (least, most) :=
    if body.isVoid then (min least 1, some (min (most.getD 1) 1)) else (least, most)
  match least, most with
  | 0, some 0 => empty
  | 1, some 1 => body
  | _, _ => repeated least most greedy body

end Translit.Pattern.Node
