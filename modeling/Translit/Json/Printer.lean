import Translit.Json.Basic

/-!
# Writing JSON

A value is written without blanks. In a string the quote, the backslash and the controls are
escaped, the latter by their short name where they have one, and all else stands for itself.

* `Json.render` : the text of a value.
-/

namespace Translit.Json

/-- The last hexadecimal digit of a number. -/
def hexDigit (n : Nat) : Char := Nat.digitChar (n % 16)

/-- How one character is written in a string literal. -/
def escapedChar (c : Char) : List Char :=
  if c = '"' then ['\\', '"']
  else if c = '\\' then ['\\', '\\']
  else if c = '\x08' then ['\\', 'b']
  else if c = '\x0c' then ['\\', 'f']
  else if c = '\n' then ['\\', 'n']
  else if c = '\r' then ['\\', 'r']
  else if c = '\t' then ['\\', 't']
  else if c.toNat < 32 then ['\\', 'u', '0', '0', hexDigit (c.toNat / 16), hexDigit c.toNat]
  else [c]

/-- A string literal; one that denotes no text is written as half a surrogate pair. -/
def renderString : Option String → List Char
  | some s => '"' :: s.toList.flatMap escapedChar ++ ['"']
  | none => ['"', '\\', 'u', 'd', '8', '0', '0', '"']

mutual

/-- The text of a value. -/
def render : Json → List Char
  | null => ['n', 'u', 'l', 'l']
  | bool true => ['t', 'r', 'u', 'e']
  | bool false => ['f', 'a', 'l', 's', 'e']
  | number n => n.render
  | string s => renderString s
  | array [] => ['[', ']']
  | array (v :: vs) => '[' :: (render v ++ renderItems vs)
  | object [] => ['\x7b', '\x7d']
  | object (m :: ms) => '\x7b' :: (renderString m.1 ++ ':' :: (render m.2 ++ renderMembers ms))

/-- The items of an array after the first, and its end. -/
def renderItems : List Json → List Char
  | [] => [']']
  | v :: vs => ',' :: (render v ++ renderItems vs)

/-- The members of an object after the first, and its end. -/
def renderMembers : List (Option String × Json) → List Char
  | [] => ['\x7d']
  | m :: ms => ',' :: (renderString m.1 ++ ':' :: (render m.2 ++ renderMembers ms))

end

/-- The text of a value as a string. -/
def write (v : Json) : String := String.ofList v.render

end Translit.Json
