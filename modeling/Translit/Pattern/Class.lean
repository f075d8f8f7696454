import Translit.Pattern.Escape

/-!
# Classes in brackets

A class is read from left to right; classes that are still open inside each other stand in a list,
innermost first. Letters that differ in case only are made the same, where the flags say so, in
every named class, on both sides of an operator and in every finished class, each time before it is
negated.

* `readClass?` : the set of a class, how deep its written form is nested, and what follows.
-/

namespace Translit.Pattern

/-- How deep a row is nested whose members have the given depths; a row of several is a level of
its own. -/
def rowDepth : List Nat → Nat
  | [] => 0
  | [d] => d
  | ds => ds.foldl max 0 + 1

/-- A set as the flags see it, letters of either case the same if they say so. -/
def Flags.seen (f : Flags) (s : CharSet) : CharSet :=
  if !f.ignoreCase then s
  else if f.ascii then s.union ((s.inter .ascii).folded.inter .ascii)
  else s.folded

/-- How the part of a class to the left of an operator joins the part to its right. -/
inductive ClassOp where
  | inter | diff | symmDiff

/-- Two parts of a class joined. -/
def ClassOp.join (s t : CharSet) : ClassOp → CharSet
  | inter => s.inter t
  | diff => s.diff t
  | symmDiff => s.symmDiff t

/-- A part of a class: its members and how deep its written form is nested. -/
structure ClassPart where
  set : CharSet
  depth : Nat

/-- A class that is still open: whether it is negated, what stands to the left of its last
operator, and the members since with their depths. -/
structure ClassLevel where
  negated : Bool
  left : Option (ClassPart × ClassOp)
  members : CharSet
  depths : List Nat

namespace ClassLevel

/-- The level with one member more. -/
def insert (l : ClassLevel) (p : ClassPart) : ClassLevel :=
  { l with members := l.members.union p.set, depths := p.depth :: l.depths }

/-- The level with one member more, which is not nested. -/
def insertSet (l : ClassLevel) (s : CharSet) : ClassLevel := l.insert ⟨s, 0⟩

/-- What the level holds, before negation. -/
def joined (f : Flags) (l : ClassLevel) : ClassPart :=
  let depth := rowDepth l.depths
  match l.left with
  | some (p, op) => ⟨op.join (f.seen p.set) (f.seen l.members), max p.depth depth + 1⟩
  | none => ⟨l.members, depth⟩

/-- The level after an operator. -/
def operator (f : Flags) (l : ClassLevel) (op : ClassOp) : ClassLevel :=
  { l with left := some (l.joined f, op), members := .empty, depths := [] }

/-- A finished class, if the flags allow it. -/
def close? (f : Flags) (l : ClassLevel) : Option ClassPart :=
  let p := l.joined f
  let s := f.seen p.set
  (f.allow? (if l.negated then s.compl else s)).map (⟨·, p.depth + 1⟩)

end ClassLevel

/-- A level with some hyphens, which stand for themselves. -/
def ClassLevel.insertHyphens (l : ClassLevel) (n : Nat) : ClassLevel :=
  Nat.repeat (·.insertSet (.single '-')) n l

/-- A hyphen. -/
def hyphen? (c : Char) : Option Char := if c = '-' then some c else none

/-- The head of a class, after its bracket: negation, hyphens, and a closing bracket that stands
for itself if nothing is before it. -/
def openClass (f : Flags) (cs : List Char) : ClassLevel × List Char :=
  let (negated, cs) : Bool × List Char :=
    match f.skip cs with
    | '^' :: cs => (true, f.skip cs)
    | cs => (false, cs)
  let fresh : ClassLevel := ⟨negated, none, .empty, []⟩
  match cs with
  | ']' :: cs => (fresh.insertSet (.single ']'), f.skip cs)
  | cs =>
    let (hyphens, rest) := f.takeAll hyphen? cs
    (fresh.insertHyphens hyphens.length, rest)

/-- A named class, after its opening bracket. -/
def readNamed? (f : Flags) : List Char → Option (CharSet × List Char)
  | ':' :: cs =>
    let (negated, cs) : Bool × List Char :=
      match cs with
      | '^' :: cs => (true, cs)
      | cs => (false, cs)
    match cs.dropWhile (· ≠ ':') with
    | ':' :: ']' :: rest =>
      (CharSet.named? (String.ofList (cs.takeWhile (· ≠ ':')))).map fun s =>
        (if negated then (f.seen s).compl else f.seen s, rest)
    | _ => none
  | _ => none

/-- One character or class inside a class. -/
def readMember? (f : Flags) : List Char → Option (Primitive × List Char)
  | '\\' :: cs => readEscape? f cs
  | c :: cs => some (.literal c, cs)
  | [] => none

/-- A member or a range of a class. -/
def readRange? (f : Flags) (cs : List Char) : Option (CharSet × List Char) := do
  let (first, rest) ← readMember? f cs
  match f.skip rest with
  | [] => none
  | '-' :: after =>
    if f.peek after = some ']' ∨ f.peek after = some '-' then
      return (← first.asSet? f, '-' :: after)
    else
      match first, ← readMember? f (f.skip after) with
      | .literal a, (.literal b, rest) =>
        if a ≤ b then return (← f.allow? (.range a b), rest) else none
      | _, _ => none
  | rest => return (← first.asSet? f, rest)

/-- The rest of a class inside the open classes around it, and what follows the outermost; every
step takes at least one character. -/
def readClassRest? (f : Flags) :
    (limit : Nat) → ClassLevel → List ClassLevel → List Char → Option (ClassPart × List Char)
  | 0, _, _, _ => none
  | limit + 1, l, outer, cs =>
    match f.skip cs with
    | [] => none
    | '[' :: cs =>
      match readNamed? f cs with
      | some (s, rest) =>
        (f.allow? s).bind fun s => readClassRest? f limit (l.insertSet s) outer rest
      | none =>
        let (inner, rest) := openClass f cs
        readClassRest? f limit inner (l :: outer) rest
    | ']' :: rest =>
      match l.close? f, outer with
      | none, _ => none
      | some p, [] => some (p, rest)
      | some p, around :: outer => readClassRest? f limit (around.insert p) outer rest
    | '&' :: '&' :: rest => readClassRest? f limit (l.operator f .inter) outer rest
    | '-' :: '-' :: rest => readClassRest? f limit (l.operator f .diff) outer rest
    | '~' :: '~' :: rest => readClassRest? f limit (l.operator f .symmDiff) outer rest
    | cs => do
      let (s, rest) ← readRange? f cs
      readClassRest? f limit (l.insertSet s) outer rest

/-- A class of at most `limit` characters, after its opening bracket. -/
def readClass? (f : Flags) (limit : Nat) (cs : List Char) : Option (ClassPart × List Char) :=
  let (l, rest) := openClass f cs
  readClassRest? f limit l [] rest

end Translit.Pattern
