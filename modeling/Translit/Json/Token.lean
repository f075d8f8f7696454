import Translit.Json.Basic

/-!
# The tokens of a JSON text

A JSON text is a row of punctuation marks, literals and blanks. Reading a string literal goes
through its code units: an escape may name one half of a surrogate pair, and two halves that
follow each other make one character.

* `Token.ofText?` : the tokens of a whole text.
-/

namespace Translit.Json

open Number (hexDigit?)

/-- A token of a JSON text. -/
inductive Token where
  | openArray | closeArray | openObject | closeObject | comma | colon | null
  | bool (b : Bool)
  | number (n : Numeral)
  | string (s : Option String)

namespace Token

/-- The number that four hexadecimal digits denote. -/
def hex4? (a b c d : Char) : Option Nat := do
  return (((← hexDigit? a) * 16 + (← hexDigit? b)) * 16 + (← hexDigit? c)) * 16 + (← hexDigit? d)

/-- The code that a one-letter escape stands for. -/
def escapeCode? : Char → Option Nat
  | '"' => some 34
  | '\\' => some 92
  | '/' => some 47
  | 'b' => some 8
  | 'f' => some 12
  | 'n' => some 10
  | 'r' => some 13
  | 't' => some 9
  | _ => none

/-- The codes of a string literal after its opening quote, and what follows the closing one. -/
def takeCodes? : List Char → Option (List Nat × List Char)
  | [] => none
  | '"' :: cs => some ([], cs)
  | '\\' :: 'u' :: a :: b :: c :: d :: cs => do
    let n ← hex4? a b c d
    let (codes, rest) ← takeCodes? cs
    return (n :: codes, rest)
  | '\\' :: e :: cs => do
    let n ← escapeCode? e
    let (codes, rest) ← takeCodes? cs
    return (n :: codes, rest)
  | c :: cs =>
    if c.toNat < 32 ∨ c = '\\' then none
    else (takeCodes? cs).map fun (codes, rest) => (c.toNat :: codes, rest)

/-- The first half of a surrogate pair. -/
def isHighHalf (n : Nat) : Bool := 0xD800 ≤ n && n < 0xDC00

/-- The second half of a surrogate pair. -/
def isLowHalf (n : Nat) : Bool := 0xDC00 ≤ n && n < 0xE000

/-- The text of a row of codes; nothing if half a surrogate pair stands alone. -/
def textOfCodes? : List Nat → Option (List Char)
  | [] => some []
  | [n] => if isHighHalf n || isLowHalf n then none else some [Char.ofNat n]
  | n :: m :: rest =>
    if isHighHalf n then
      if isLowHalf m then
        (textOfCodes? rest).map
          (Char.ofNat (0x10000 + (n - 0xD800) * 0x400 + (m - 0xDC00)) :: ·)
      else none
    else if isLowHalf n then none
    else (textOfCodes? (m :: rest)).map (Char.ofNat n :: ·)

/-- Blanks between tokens. -/
def isBlank (c : Char) : Bool := c = ' ' || c = '\n' || c = '\t' || c = '\r'

/-- The token at the head of a text that starts with no blank, and what follows it. -/
def take? : List Char → Option (Token × List Char)
  | '[' :: cs => some (openArray, cs)
  | ']' :: cs => some (closeArray, cs)
  | '\x7b' :: cs => some (openObject, cs)
  | '\x7d' :: cs => some (closeObject, cs)
  | ',' :: cs => some (comma, cs)
  | ':' :: cs => some (colon, cs)
  | '"' :: cs =>
    (takeCodes? cs).map fun (codes, rest) => (string ((textOfCodes? codes).map String.ofList), rest)
  | 'n' :: 'u' :: 'l' :: 'l' :: cs => some (null, cs)
  | 't' :: 'r' :: 'u' :: 'e' :: cs => some (bool true, cs)
  | 'f' :: 'a' :: 'l' :: 's' :: 'e' :: cs => some (bool false, cs)
  | cs => (Numeral.take? cs).map fun (n, rest) => (number n, rest)

/-- The tokens of a text, of which at most `limit` characters begin a token or are blank. -/
def ofTextWithin? : (limit : Nat) → List Char → Option (List Token)
  | _, [] => some []
  | 0, _ :: _ => none
  | limit + 1, c :: cs =>
    if isBlank c then ofTextWithin? limit cs
    else do
      let (t, rest) ← take? (c :: cs)
      let ts ← ofTextWithin? limit rest
      return t :: ts

/-- The tokens of a text. Every step takes at least one character, so the length is limit enough. -/
def ofText? (cs : List Char) : Option (List Token) := ofTextWithin? cs.length cs

end Token

end Translit.Json
