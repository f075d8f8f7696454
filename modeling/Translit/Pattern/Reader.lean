import Translit.Pattern.Class
import Translit.Pattern.Normal
import Translit.Unicode.Letter
import Translit.Unicode.Numeric

/-!
# Reading patterns

A pattern is read from left to right. Groups that are still open stand in a list, innermost first,
each with its finished alternatives and the row it is in the middle of. Whatever is not a pattern
is refused: unbalanced brackets, a repetition of nothing, an escape or a flag without meaning, a
name given twice, a range or a count that runs backwards, look-around and back-references, and what
is nested too deep.

* `Node.read?` : the tree of a pattern and the number of its groups.
-/

namespace Translit.Pattern

open Number (Digit)

/-! ## Groups -/

/-- An item of a row: what it asks for, whether it can be repeated, which a change of flags cannot,
and how deep its written form is nested. -/
structure Item where
  node : Node
  repeatable : Bool
  depth : Nat

/-- A group that is still open: its number if it captures, the flags to go back to, its finished
alternatives and the row since the last bar, both the latest first. -/
structure Level where
  capture : Option Nat
  restore : Flags
  branches : List Item
  row : List Item

namespace Level

/-- A group without contents. -/
def fresh (capture : Option Nat) (restore : Flags) : Level := ⟨capture, restore, [], []⟩

/-- The row since the last bar as one item. -/
def branch (l : Level) : Item :=
  ⟨.concat (l.row.reverse.map (·.node)), true, rowDepth (l.row.map (·.depth))⟩

/-- The contents of a finished group. -/
def body (l : Level) : Item :=
  let all := (l.branch :: l.branches).reverse
  ⟨.alternation (all.map (·.node)), true, rowDepth (all.map (·.depth))⟩

/-- A finished group. -/
def close (l : Level) : Item :=
  let body := l.body
  let node :=
    match l.capture with
    | some index => .group index body.node
    | none => body.node
  ⟨node, true, body.depth + 1⟩

end Level

/-- A reader in the middle of a pattern. -/
structure State where
  flags : Flags
  level : Level
  outer : List Level
  groups : Nat
  names : List (List Char)

namespace State

/-- A reader before a pattern. -/
def start : State := ⟨.none, .fresh none .none, [], 0, []⟩

/-- One item more in the row. -/
def pushItem (st : State) (i : Item) : State :=
  { st with level := { st.level with row := i :: st.level.row } }

/-- One item more in the row, which is not nested. -/
def push (st : State) (n : Node) : State := st.pushItem ⟨n, true, 0⟩

/-- One character of a set more in the row. -/
def pushSet (st : State) (s : CharSet) : State := st.push (.ofSet s)

/-- One literal character more in the row. -/
def pushLiteral (st : State) (c : Char) : State := st.pushSet (st.flags.seen (.single c))

/-- Other flags from here on, which count as an item of the row. -/
def setFlags (st : State) (f : Flags) : State := { st.pushItem ⟨.empty, false, 0⟩ with flags := f }

/-- Another alternative begins. -/
def bar (st : State) : State :=
  { st with level :=
    { st.level with branches := st.level.branch :: st.level.branches, row := [] } }

/-- Another group begins, with flags of its own. -/
def openLevel (st : State) (capture : Option Nat) (flags : Flags) : State :=
  { st with flags := flags, level := .fresh capture st.flags, outer := st.level :: st.outer }

/-- A capturing group begins. -/
def openCapture (st : State) : State :=
  { st.openLevel (some (st.groups + 1)) st.flags with groups := st.groups + 1 }

/-- The innermost group ends. -/
def closeLevel? (st : State) : Option State :=
  match st.outer with
  | [] => none
  | l :: outer =>
    some ({ st with flags := st.level.restore, level := l, outer := outer }.pushItem st.level.close)

/-- The last item of the row is repeated. -/
def repeatLast? (st : State) (least : Nat) (most : Option Nat) (lazy : Bool) : Option State :=
  match st.level.row with
  | i :: row =>
    let greedy := lazy == st.flags.swapGreed
    let repeated : Item := ⟨.repetition least most greedy i.node, true, i.depth + 1⟩
    if i.repeatable then some { st with level := { st.level with row := repeated :: row } } else none
  | [] => none

end State

/-- A question mark behind a repetition makes it lazy. -/
def readLazy : List Char → Bool × List Char
  | '?' :: cs => (true, cs)
  | cs => (false, cs)

/-- A repetition sign and its question mark. -/
def readSign? (st : State) (least : Nat) (most : Option Nat) (cs : List Char) :
    Option (State × List Char) :=
  let (lazy, rest) := readLazy cs
  (st.repeatLast? least most lazy).map fun st => (st, rest)

/-- A count of a repetition, below `2 ^ 32`, with blanks around it. -/
def readCount? (f : Flags) (cs : List Char) : Option (Nat × List Char) :=
  match f.takeAll Digit.ofChar? ((f.skip cs).dropWhile Unicode.isBlank) with
  | ([], _) => none
  | (ds, rest) =>
    let n := Number.value ds
    if n < UInt32.size then some (n, rest.dropWhile Unicode.isBlank) else none

/-- The counts of a repetition, after its opening brace, and what follows the closing one. -/
def readBounds? (f : Flags) (cs : List Char) : Option ((Nat × Option Nat) × List Char) := do
  let (least, rest) ← readCount? f cs
  match rest with
  | '\x7d' :: rest => return ((least, some least), rest)
  | ',' :: rest =>
    match f.skip rest with
    | '\x7d' :: rest => return ((least, none), rest)
    | rest =>
      match ← readCount? f rest with
      | (most, '\x7d' :: rest) =>
        if least ≤ most then return ((least, some most), rest) else none
      | _ => none
  | _ => none

/-- A repetition with counts. -/
def readCounted? (st : State) (cs : List Char) : Option (State × List Char) := do
  let ((least, most), rest) ← readBounds? st.flags cs
  let (lazy, rest) := readLazy (st.flags.skip rest)
  return (← st.repeatLast? least most lazy, rest)

/-- Flags up to the sign that ends them, which tells whether a group follows. At most one minus
stands among them, not at the end, and no letter twice. -/
def readFlags? (f : Flags) (on : Bool) (seen : List Char) :
    List Char → Option (Flags × List Char × Bool × List Char)
  | [] => none
  | ':' :: cs => if seen.head? = some '-' then none else some (f, seen, true, cs)
  | ')' :: cs => if seen.head? = some '-' then none else some (f, seen, false, cs)
  | '-' :: cs => if seen.contains '-' then none else readFlags? f false ('-' :: seen) cs
  | c :: cs =>
    if seen.contains c then none
    else (f.set? on c).bind fun f => readFlags? f on (c :: seen) cs

/-- The name of a group: a letter or an underscore, then also numbers, points and brackets. -/
def isName : List Char → Bool
  | [] => false
  | c :: cs =>
    (c = '_' || Unicode.isLetter c) &&
      cs.all fun c => "_.[]".contains c || Unicode.isLetter c || Unicode.isNumeric c

/-- A named group, after the sign that opens its name. -/
def readNamedGroup? (st : State) (cs : List Char) : Option (State × List Char) :=
  let name := cs.takeWhile (· ≠ '>')
  match cs.dropWhile (· ≠ '>') with
  | _ :: rest =>
    if isName name ∧ name ∉ st.names then
      some ({ st.openCapture with names := name :: st.names }, rest)
    else none
  | [] => none

/-- The head of a group, after its parenthesis, or a change of flags. -/
def readGroup? (st : State) (cs : List Char) : Option (State × List Char) :=
  match st.flags.skip cs with
  | '?' :: '=' :: _ => none
  | '?' :: '!' :: _ => none
  | '?' :: '<' :: '=' :: _ => none
  | '?' :: '<' :: '!' :: _ => none
  | '?' :: 'P' :: '<' :: cs => readNamedGroup? st cs
  | '?' :: '<' :: cs => readNamedGroup? st cs
  | '?' :: cs => do
    let (flags, seen, opens, rest) ← readFlags? st.flags true [] cs
    if opens then return (st.openLevel none flags, rest)
    else if seen = [] then none
    else return (st.setFlags flags, rest)
  | cs => some (st.openCapture, cs)

/-- What `.` stands for; without Unicode it would take parts of characters. -/
def Flags.dot? (f : Flags) : Option CharSet :=
  f.allow?
    (if f.dotAll then .any
    else (CharSet.ofChars (if f.returns then ['\n', '\r'] else ['\n'])).compl)

/-- What `^` asks for. -/
def Flags.start (f : Flags) : Look :=
  if f.multiLine then (if f.returns then .breakStart else .lineStart) else .textStart

/-- What `$` asks for. -/
def Flags.stop (f : Flags) : Look :=
  if f.multiLine then (if f.returns then .breakStop else .lineStop) else .textStop

/-- What the character `c` begins, outside of classes; at most `limit` characters follow. -/
def readItem? (limit : Nat) (st : State) (c : Char) (cs : List Char) :
    Option (State × List Char) :=
  match c with
  | '(' => readGroup? st cs
  | ')' => st.closeLevel?.map fun st => (st, cs)
  | '|' => some (st.bar, cs)
  | '[' =>
    (readClass? st.flags limit cs).map fun (p, rest) =>
      (st.pushItem ⟨.ofSet p.set, true, p.depth⟩, rest)
  | '?' => readSign? st 0 (some 1) cs
  | '*' => readSign? st 0 none cs
  | '+' => readSign? st 1 none cs
  | '\x7b' => readCounted? st cs
  | '.' => st.flags.dot?.map fun s => (st.pushSet s, cs)
  | '^' => some (st.push (.look st.flags.start), cs)
  | '$' => some (st.push (.look st.flags.stop), cs)
  | '\\' =>
    (readEscape? st.flags cs).map fun
      | (.literal c, rest) => (st.pushLiteral c, rest)
      | (.set s, rest) => (st.pushSet s, rest)
      | (.look l, rest) => (st.push (.look l), rest)
  | c => some (st.pushLiteral c, cs)

/-- How deep a pattern may be nested. -/
def maxDepth : Nat := 250

/-- The rest of a pattern; every step takes at least one character. -/
def readRest? : (limit : Nat) → State → List Char → Option (Node × Nat)
  | 0, _, _ => none
  | limit + 1, st, cs =>
    match st.flags.skip cs with
    | [] =>
      let body := st.level.body
      if st.outer.isEmpty ∧ body.depth ≤ maxDepth then some (body.node, st.groups) else none
    | c :: cs => (readItem? limit st c cs).bind fun (st, rest) => readRest? limit st rest

/-- The tree of a pattern and the number of its groups. -/
def Node.read? (cs : List Char) : Option (Node × Nat) := readRest? (cs.length + 1) .start cs

end Translit.Pattern
