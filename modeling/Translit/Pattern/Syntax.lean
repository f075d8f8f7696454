import Translit.Pattern.CharSet

/-!
# Patterns as trees

A pattern asks for a row of characters. Groups are numbered from one in the order their opening
parentheses stand in; a repetition is greedy if it prefers one more round to going on.

* `Node.leastLength?` : how few characters a pattern asks for;
* `Node.isVoid` : whether it asks for none at all.
-/

namespace Translit.Pattern

/-- The characters that words are made of: those of ASCII only, or those of every script. -/
def isWordIn (ascii : Bool) (c : Char) : Bool :=
  if ascii then c.isAlphanum || c = '_' else Unicode.isWord c

/-- What a pattern can ask of a place between two characters. -/
inductive Look where
  | textStart | textStop | lineStart | lineStop | breakStart | breakStop
  | boundary (ascii : Bool) | noBoundary (ascii : Bool)
  | wordStart (ascii : Bool) | wordStop (ascii : Bool)
  | noWordBefore (ascii : Bool) | noWordAfter (ascii : Bool)
deriving DecidableEq

/-- A place between two characters, either of which may be missing, is as asked. A line ends before
a line feed or, for `breakStart` and `breakStop`, also before a carriage return, never between the
two. -/
def Look.holds (before after : Option Char) : Look → Bool
  | textStart => before.isNone
  | textStop => after.isNone
  | lineStart => before.all (· = '\n')
  | lineStop => after.all (· = '\n')
  | breakStart => before.all (· = '\n') || before = some '\r' && after ≠ some '\n'
  | breakStop => after.all (· = '\r') || after = some '\n' && before ≠ some '\r'
  | boundary ascii => before.any (isWordIn ascii) != after.any (isWordIn ascii)
  | noBoundary ascii => before.any (isWordIn ascii) == after.any (isWordIn ascii)
  | wordStart ascii => !before.any (isWordIn ascii) && after.any (isWordIn ascii)
  | wordStop ascii => before.any (isWordIn ascii) && !after.any (isWordIn ascii)
  | noWordBefore ascii => !before.any (isWordIn ascii)
  | noWordAfter ascii => !after.any (isWordIn ascii)

/-- A pattern as a tree. -/
inductive Node where
  | empty
  | literal (cs : List Char)
  | one (set : CharSet)
  | look (l : Look)
  | group (index : Nat) (body : Node)
  | seq (first second : Node)
  | alt (first second : Node)
  | repeated (least : Nat) (most : Option Nat) (greedy : Bool) (body : Node)
deriving DecidableEq

namespace Node

/-- The least number of characters that a pattern asks for; none if part of it asks for a character
of a set without members. -/
def leastLength? : Node → Option Nat
  | empty => some 0
  | literal cs => some cs.length
  | one set => if set = .empty then none else some 1
  | look _ => some 0
  | group _ body => body.leastLength?
  | seq first second => do return (← first.leastLength?) + (← second.leastLength?)
  | alt first second => do return min (← first.leastLength?) (← second.leastLength?)
  | repeated least _ _ body => body.leastLength?.map (least * ·)

/-- The pattern asks for at least one character, and every part of it for one that there is. -/
def isSolid (n : Node) : Bool := n.leastLength?.any (0 < ·)

/-- The pattern asks for no character, however often its repetitions go round. -/
def isVoid : Node → Bool
  | empty => true
  | literal cs => cs.isEmpty
  | one _ => false
  | look _ => true
  | group _ body => body.isVoid
  | seq first second => first.isVoid && second.isVoid
  | alt first second => first.isVoid && second.isVoid
  | repeated _ most _ body => most.isSome && body.isVoid

end Node

end Translit.Pattern
