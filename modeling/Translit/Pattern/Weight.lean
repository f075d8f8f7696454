import Translit.Pattern.Normal
import Translit.Text.Bytes

/-!
# The weight of a pattern

How heavy a pattern is tells the memory of an automaton over UTF-8 bytes that finds it: 32 bytes
for a state, 8 for a step by a range of bytes and 4 for a step by none. There is one automaton for
each direction of reading; only the forward one marks groups. A pattern must be light enough in
both directions.

* `CharSet.byteRows` : the UTF-8 forms of the members of a set, as rows of byte ranges;
* `CharSet.weight` : a set forward is a tree of those rows in which equal subtrees are shared, and
  backward one row after the other, common beginnings shared;
* `wordsWeight` : alternatives that are all literals are a tree of their bytes;
* `Node.weight`, `Node.fits` : the weight of a pattern, and whether it is allowed.
-/

namespace Translit.Pattern

/-- A direction of reading. -/
inductive Direction where
  | forward | backward
deriving DecidableEq

/-! ## Sets as bytes -/

/-- A range of bytes for each place of a row of bytes. -/
abbrev ByteRow := List (Nat × Nat)

/-- The rows for the numbers from `lo` to `hi`, six bits to a byte that goes on; the first byte is
counted from `lead` and `rest` more go on. -/
def byteRows (lead : Nat) : (rest : Nat) → (lo hi : Nat) → List ByteRow
  | 0, lo, hi => [[(lead + lo, lead + hi)]]
  | rest + 1, lo, hi =>
    let full := Nat.pow 64 (rest + 1)
    let first := lo / full
    let last := hi / full
    let below (byte lo hi : Nat) : List ByteRow :=
      (byteRows 0x80 rest lo hi).map ((lead + byte, lead + byte) :: ·)
    if first = last then below first (lo % full) (hi % full)
    else
      let (head, start) :=
        if lo % full = 0 then ([], first) else (below first (lo % full) (full - 1), first + 1)
      let (tail, stop) :=
        if hi % full = full - 1 then ([], last + 1) else (below last 0 (hi % full), last)
      let whole := (lead + start, lead + stop - 1) :: List.replicate (rest + 1) (0x80, 0xbf)
      head ++ (if start < stop then [whole] else []) ++ tail

/-- The bands of characters whose UTF-8 forms have one length: the places of the first and the last
one, what the first byte is counted from and how many bytes go on. Surrogates part the third. -/
def utf8Bands : List (Nat × Nat × Nat × Nat) := [
  (0x0, 0x7f, 0x00, 0), (0x80, 0x7ff, 0xc0, 1), (0x800, 0xd7ff, 0xe0, 2), (0xd800, 0xf7ff, 0xe0, 2),
  (0xf800, 0x10f7ff, 0xf0, 3)]

/-- The rows of bytes that spell the members of a set. -/
def CharSet.byteRows (s : CharSet) : List ByteRow :=
  s.ranges.flatMap fun (lo, hi) =>
    utf8Bands.flatMap fun (first, last, lead, rest) =>
      if max lo first ≤ min hi last then
        Pattern.byteRows lead rest (codeAt (max lo first)) (codeAt (min hi last))
      else []

/-- A row in front of others that are grouped by what they begin with. -/
def groupRow (r : ByteRow) (groups : List ((Nat × Nat) × List ByteRow)) :
    List ((Nat × Nat) × List ByteRow) :=
  match r, groups with
  | [], groups => groups
  | head :: tail, [] => [(head, [tail])]
  | head :: tail, (h, tails) :: rest =>
    if head = h then (h, tail :: tails) :: rest else (head, [tail]) :: (h, tails) :: rest

/-- Rows with a common beginning put together, without it. -/
def grouped (rows : List ByteRow) : List ((Nat × Nat) × List ByteRow) := rows.foldr groupRow []

/-- The rows that can still come, at the root of the tree of some rows and at all its branches. -/
def branchings : (depth : Nat) → List ByteRow → List (List ByteRow)
  | 0, _ => []
  | depth + 1, rows =>
    rows :: (grouped rows).flatMap fun (_, tails) =>
      if tails = [[]] then [] else branchings depth tails

/-- The weight of a tree of rows, equal subtrees shared. -/
def treeWeight (rows : List ByteRow) : Nat :=
  ((branchings 4 rows).eraseDups.map fun rows => 32 + 8 * (grouped rows).length).foldl (· + ·) 32

/-- The number of places at which two rows begin alike. -/
def sharedLength : ByteRow → ByteRow → Nat
  | a :: as, b :: bs => if a = b then sharedLength as bs + 1 else 0
  | _, _ => 0

/-- The weight of rows one after the other, behind the row `last`. -/
def chainWeight (last : ByteRow) : List ByteRow → Nat
  | [] => 64
  | r :: rs => 4 + 32 * (r.length - sharedLength last r) + chainWeight r rs

/-- The weight of one character of a set; ASCII alone is a tree in both directions. -/
def CharSet.weight (d : Direction) (s : CharSet) : Nat :=
  let rows := s.byteRows
  if d = .forward ∨ rows.all (fun r => r.length = 1 && r.all (·.2 < 0x80)) then treeWeight rows
  else chainWeight [] rows

/-! ## Literals as bytes -/

/-- The bytes of a text, in the order they are read. -/
def bytesOf (d : Direction) (cs : List Char) : List UInt8 :=
  let bytes := cs.flatMap String.utf8EncodeChar
  if d = .forward then bytes else bytes.reverse

/-- The words of a list between the empty ones. -/
def stretches : List (List UInt8) → List (List (List UInt8))
  | [] => [[]]
  | [] :: ws => [] :: stretches ws
  | w :: ws =>
    match stretches ws with
    | s :: rest => (w :: s) :: rest
    | [] => [[w]]

/-- What can follow each of the bytes that some words begin with. -/
def continuations (ws : List (List UInt8)) : List (List (List UInt8)) :=
  (ws.filterMap List.head?).eraseDups.map fun b =>
    ws.filterMap fun w => if w.head? = some b then some w.tail else none

/-- The weight of a tree of words, the preferred one first. An empty word ends the stretch of words
that share branches, and several of them at the front count once. -/
def wordsWeight : (depth : Nat) → List (List UInt8) → Nat
  | 0, _ => 0
  | depth + 1, ws =>
    let front := ws.takeWhile List.isEmpty
    let groups := stretches (front.take 1 ++ ws.drop front.length)
    let branches := (groups.filter (· ≠ [])).map continuations
    let below := branches.flatten.map fun tails =>
      if tails.all List.isEmpty then 0 else wordsWeight depth tails
    let here := branches.map fun b => if b.length = 1 then 32 else 32 + 8 * b.length
    32 + 4 * (branches.length + groups.length - 1) + here.sum + below.sum

/-! ## Patterns -/

namespace Node

/-- The text of a literal. -/
def text? : Node → Option (List Char)
  | literal cs => some cs
  | _ => none

/-- The weight of a pattern, without what every pattern has; as one of several alternatives it has
a step more, and what a choice costs is counted once for all of them. -/
def weight (d : Direction) : (inChoice : Bool) → Node → Nat
  | c, empty => step c + 32
  | c, literal cs => step c + 32 * Text.bytes cs
  | c, one set => step c + set.weight d
  | c, look _ => step c + 32
  | c, group _ body => step c + (if d = .forward then 64 else 0) + body.weight d false
  | c, seq first second => step c + first.weight d false + second.weight d false
  | true, alt first second => first.weight d true + second.weight d true
  | false, alt first second =>
    match (alt first second).branches.mapM text? with
    | some texts =>
      let words := texts.map (bytesOf d)
      32 + wordsWeight ((words.map List.length).foldl max 0 + 1) words
    | none => 64 + first.weight d true + second.weight d true
  | c, repeated 0 (some 1) _ body => step c + body.weight d false + 72
  | c, repeated 0 none _ body =>
    step c + body.weight d false + (if body.isSolid then 40 else 112)
  | c, repeated least none _ body => step c + least * body.weight d false + 40
  | c, repeated least (some most) _ body =>
    let w := body.weight d false
    if least = most then step c + least * w
    else step c + (if least = 0 then 32 else least * w) + 32 + (most - least) * (w + 40)
where
  /-- The step from a choice to an alternative. -/
  step (inChoice : Bool) : Nat := if inChoice then 4 else 0

/-- The most that a pattern may weigh, 10 MiB. -/
def maxWeight : Nat := 10485760

/-- The pattern is light enough in both directions. -/
def fits (n : Node) : Bool :=
  n.weight .forward false + 208 ≤ maxWeight && n.weight .backward false + 144 ≤ maxWeight

end Node

end Translit.Pattern
