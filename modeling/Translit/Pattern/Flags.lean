import Translit.Unicode.Blank

/-!
# Flags of a pattern

The flags say how what follows them is read. Under the verbose flag blanks and comments stand for
nothing almost everywhere: between items, in classes, in counts and in the numbers of characters.

* `Flags.skip` : a text after blanks and comments;
* `Flags.takeAll` : what can be read of the characters at the head of a text, one after the other;
* `Flags.peek` : the character that tells whether a hyphen stands for itself.
-/

namespace Translit.Pattern

/-- The flags in force: letters of either case are the same, `.` takes a line end, `^` and `$`
hold at every line, a carriage return ends a line too, greedy and lazy change places, blanks and
comments are skipped, and classes, words and case are those of ASCII. -/
structure Flags where
  ignoreCase : Bool
  dotAll : Bool
  multiLine : Bool
  returns : Bool
  swapGreed : Bool
  verbose : Bool
  ascii : Bool

/-- The text after blanks and comments; a comment goes from `#` to the end of its line. -/
def skipBlanks : (inComment : Bool) → List Char → List Char
  | _, [] => []
  | true, c :: cs => skipBlanks (c ≠ '\n') cs
  | false, c :: cs =>
    if Unicode.isBlank c then skipBlanks false cs
    else if c = '#' then skipBlanks true cs
    else c :: cs

theorem length_skipBlanks_le (inComment : Bool) (cs : List Char) :
    (skipBlanks inComment cs).length ≤ cs.length := by
  fun_induction skipBlanks inComment cs with
  | case1 => exact Nat.le_refl _
  | case2 c cs ih => exact Nat.le_succ_of_le ih
  | case3 c cs _ ih => exact Nat.le_succ_of_le ih
  | case4 cs _ ih => exact Nat.le_succ_of_le ih
  | case5 => exact Nat.le_refl _

namespace Flags

/-- No flag. -/
def none : Flags := ⟨false, false, false, false, false, false, false⟩

/-- The flags with the one of a letter set or cleared. The letter of Unicode clears the one of
ASCII. -/
def set? (f : Flags) (on : Bool) : Char → Option Flags
  | 'i' => some { f with ignoreCase := on }
  | 's' => some { f with dotAll := on }
  | 'm' => some { f with multiLine := on }
  | 'R' => some { f with returns := on }
  | 'U' => some { f with swapGreed := on }
  | 'x' => some { f with verbose := on }
  | 'u' => some { f with ascii := !on }
  | _ => .none

/-- The text after what the flags let one skip. -/
def skip (f : Flags) (cs : List Char) : List Char :=
  if f.verbose then skipBlanks false cs else cs

theorem length_skip_le (f : Flags) (cs : List Char) : (f.skip cs).length ≤ cs.length := by
  unfold skip
  split
  · exact length_skipBlanks_le false cs
  · exact Nat.le_refl _

/-- What `read?` makes of the characters at the head of a text, as long as it takes them, and the
text behind; after each of them one skips what the flags allow. -/
def takeAll {α : Type} (f : Flags) (read? : Char → Option α) : List Char → List α × List Char
  | [] => ([], [])
  | c :: cs =>
    match read? c with
    | some a =>
      let (as, rest) := takeAll f read? (f.skip cs)
      (a :: as, rest)
    | .none => ([], c :: cs)
termination_by cs => cs.length
decreasing_by exact Nat.lt_succ_of_le (f.length_skip_le cs)

/-- The next character, past blanks and one number sign among them if the flags allow. -/
def peek (f : Flags) (cs : List Char) : Option Char :=
  if f.verbose then
    match cs.dropWhile Unicode.isBlank with
    | '#' :: cs => (cs.dropWhile Unicode.isBlank).head?
    | cs => cs.head?
  else cs.head?

end Flags

end Translit.Pattern
