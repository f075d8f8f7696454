import Translit.Number.Digits
import Translit.Pattern.Flags
import Translit.Pattern.Syntax

/-!
# Escapes in a pattern

A backslash makes a sign stand for itself, or a letter for a class, a place or a character that is
named by the letter or by its number. Classes by Unicode property, `\p` and `\P`, are not read.

* `readEscape?` : what stands behind a backslash.
-/

namespace Translit.Pattern

open Number (hexDigit?)

/-- What stands for one item of a pattern or of a class. -/
inductive Primitive where
  | literal (c : Char)
  | set (s : CharSet)
  | look (l : Look)

/-- A set that the flags allow. Without Unicode a set of characters is one of bytes, which must not
take a part of a character that has several. -/
def Flags.allow? (f : Flags) (s : CharSet) : Option CharSet :=
  if f.ascii ∧ s.diff .ascii ≠ .empty then .none else some s

/-- A class named by a letter, or the characters that it lacks. -/
def Flags.class? (f : Flags) (s : CharSet) (negated : Bool) : Option CharSet :=
  let s := if f.ascii then s.inter .ascii else s
  f.allow? (if negated then s.compl else s)

/-- An item of a class as a set. -/
def Primitive.asSet? (f : Flags) : Primitive → Option CharSet
  | literal c => f.allow? (.single c)
  | set s => some s
  | look _ => none

/-- The character whose number has the given hexadecimal digits. -/
def charOfHex? (ds : List Nat) : Option Char :=
  let n := ds.foldl (fun n d => 16 * n + d) 0
  if n.isValidChar ∧ ds ≠ [] then some (Char.ofNat n) else none

/-- As many hexadecimal digits as asked for. -/
def readDigits? (f : Flags) : (width : Nat) → List Char → Option (List Nat × List Char)
  | 0, cs => some ([], cs)
  | _ + 1, [] => none
  | width + 1, c :: cs => do
    let d ← hexDigit? c
    let (ds, rest) ← readDigits? f width (f.skip cs)
    return (d :: ds, rest)

/-- A character given by its number, in braces or in as many digits as its letter asks for. Two
digits without Unicode are a byte, which must be a character of its own. -/
def readHex? (f : Flags) (width : Nat) (cs : List Char) : Option (Primitive × List Char) := do
  match f.skip cs with
  | '\x7b' :: cs =>
    match f.takeAll hexDigit? (f.skip cs) with
    | (ds, '\x7d' :: rest) => return (.literal (← charOfHex? ds), rest)
    | _ => none
  | cs =>
    let (ds, rest) ← readDigits? f width cs
    let c ← charOfHex? ds
    if f.ascii ∧ width = 2 ∧ 128 ≤ c.toNat then none else return (.literal c, rest)

/-- A character that a backslash makes stand for itself: ASCII, but no letter or digit. -/
def isEscapable (c : Char) : Bool := c.toNat < 128 && !c.isAlphanum

/-- A boundary of words, or the side of it that a name in braces asks for; other braces are left
for a count. -/
def readBoundary? (f : Flags) (cs : List Char) : Option (Primitive × List Char) :=
  let plain := some (.look (.boundary f.ascii), cs)
  let isNamePart (c : Char) : Bool := c.isAlpha || c = '-'
  match cs with
  | '\x7b' :: rest =>
    if (f.skip rest).head?.any isNamePart then
      match f.takeAll (fun c => if isNamePart c then some c else none) (f.skip rest) with
      | (name, '\x7d' :: rest) =>
        match String.ofList name with
        | "start" => some (.look (.wordStart f.ascii), rest)
        | "end" => some (.look (.wordStop f.ascii), rest)
        | "start-half" => some (.look (.noWordBefore f.ascii), rest)
        | "end-half" => some (.look (.noWordAfter f.ascii), rest)
        | _ => none
      | _ => none
    else plain
  | _ => plain

/-- What stands behind a backslash. -/
def readEscape? (f : Flags) : List Char → Option (Primitive × List Char)
  | [] => none
  | 'x' :: cs => readHex? f 2 cs
  | 'u' :: cs => readHex? f 4 cs
  | 'U' :: cs => readHex? f 8 cs
  | 'd' :: cs => (f.class? .digit false).map (.set ·, cs)
  | 'D' :: cs => (f.class? .digit true).map (.set ·, cs)
  | 's' :: cs => (f.class? .blank false).map (.set ·, cs)
  | 'S' :: cs => (f.class? .blank true).map (.set ·, cs)
  | 'w' :: cs => (f.class? .word false).map (.set ·, cs)
  | 'W' :: cs => (f.class? .word true).map (.set ·, cs)
  | 'A' :: cs => some (.look .textStart, cs)
  | 'z' :: cs => some (.look .textStop, cs)
  | 'b' :: cs => readBoundary? f cs
  | 'B' :: cs => some (.look (.noBoundary f.ascii), cs)
  | '<' :: cs => some (.look (.wordStart f.ascii), cs)
  | '>' :: cs => some (.look (.wordStop f.ascii), cs)
  | 'a' :: cs => some (.literal '\x07', cs)
  | 'f' :: cs => some (.literal '\x0c', cs)
  | 't' :: cs => some (.literal '\t', cs)
  | 'n' :: cs => some (.literal '\n', cs)
  | 'r' :: cs => some (.literal '\r', cs)
  | 'v' :: cs => some (.literal '\x0b', cs)
  | c :: cs => if isEscapable c then some (.literal c, cs) else none

end Translit.Pattern
