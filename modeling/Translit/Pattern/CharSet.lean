import Translit.Unicode.Blank
import Translit.Unicode.Digit
import Translit.Unicode.Fold
import Translit.Unicode.Word

/-!
# Sets of characters in a pattern

What a pattern can ask of one character. All characters stand in a row; a set lists, in ascending
order, the places where a walk along the row enters or leaves it, so that two sets with the same
members are equal.

* `place` : where a character stands; `CharSet.mem` : whether a walk is inside at its place;
* `union`, `inter`, `diff`, `symmDiff`, `compl` and the laws of `mem` for them;
* `folded` : a set with every letter that differs in case only from one of its members;
* `single?` : the member of a set that has just one.
-/

namespace Translit.Pattern

/-- The number of characters before a code point; surrogates are no characters. -/
def placeOfCode (n : Nat) : Nat := if n < 0xd800 then n else n - 0x800

/-- The number of characters before a character. -/
def place (c : Char) : Nat := placeOfCode c.toNat

/-- The code point of the character at a place. -/
def codeAt (p : Nat) : Nat := if p < 0xd800 then p else p + 0x800

/-- The number of all characters. -/
def placeCount : Nat := 0x10f800

theorem place_lt (c : Char) : place c < placeCount := by
  have h := c.valid
  simp only [UInt32.isValidChar, Nat.isValidChar] at h
  simp only [place, placeOfCode, placeCount, Char.toNat]
  split <;> omega

/-! ## Edges -/

/-- Every place of a list lies behind `n`. -/
def Behind (n : Nat) (xs : List Nat) : Prop := ∀ x ∈ xs, n < x

theorem Behind.mono {m n : Nat} {xs : List Nat} (h : Behind n xs) (hmn : m ≤ n) : Behind m xs :=
  fun x hx => Nat.lt_of_le_of_lt hmn (h x hx)

theorem Behind.cons {n x : Nat} {xs : List Nat} (h : n < x) (hxs : Behind n xs) :
    Behind n (x :: xs) := by
  intro y hy
  rcases List.mem_cons.1 hy with rfl | hy
  · exact h
  · exact hxs y hy

/-- Whether a walk that starts inside or outside is inside at a place, its edges being given. -/
def inside (now : Bool) : List Nat → Nat → Bool
  | [], _ => now
  | x :: xs, n => if n < x then now else inside (!now) xs n

theorem inside_of_behind {n : Nat} {xs : List Nat} (now : Bool) (h : Behind n xs) :
    inside now xs n = now := by
  cases xs with
  | nil => rfl
  | cons x xs => simp [inside, h x (by simp)]

/-- An edge at `x` if the walk changes there. -/
def edge (x : Nat) (before after : Bool) (rest : List Nat) : List Nat :=
  if before = after then rest else x :: rest

theorem inside_edge_of_lt {n x : Nat} (before after : Bool) (rest : List Nat) (h : n < x)
    (hrest : Behind n rest) : inside before (edge x before after rest) n = before := by
  unfold edge
  split
  · exact inside_of_behind _ hrest
  · simp [inside, h]

theorem inside_edge_of_le {n x : Nat} (before after : Bool) (rest : List Nat) (h : x ≤ n) :
    inside before (edge x before after rest) n = inside after rest n := by
  unfold edge
  split
  · next he => rw [he]
  · next he =>
    have : (!before) = after := by cases before <;> cases after <;> simp_all
    simp [inside, Nat.not_lt.2 h, this]

theorem Behind.edge {n x : Nat} {rest : List Nat} (before after : Bool) (h : n < x)
    (hrest : Behind n rest) : Behind n (edge x before after rest) := by
  unfold Pattern.edge
  split
  · exact hrest
  · exact hrest.cons h

theorem pairwise_edge {x : Nat} {rest : List Nat} (before after : Bool) (h : Behind x rest)
    (hrest : rest.Pairwise (· < ·)) : (edge x before after rest).Pairwise (· < ·) := by
  unfold edge
  split
  · exact hrest
  · exact List.pairwise_cons.2 ⟨h, hrest⟩

/-- The edges of the set that `f` makes of two sets, `a` and `b` telling whether the walks along
them are inside. -/
def merge (f : Bool → Bool → Bool) (a b : Bool) : List Nat → List Nat → List Nat
  | [], [] => []
  | x :: xs, [] => edge x (f a b) (f (!a) b) (merge f (!a) b xs [])
  | [], y :: ys => edge y (f a b) (f a (!b)) (merge f a (!b) [] ys)
  | x :: xs, y :: ys =>
    if x < y then edge x (f a b) (f (!a) b) (merge f (!a) b xs (y :: ys))
    else if y < x then edge y (f a b) (f a (!b)) (merge f a (!b) (x :: xs) ys)
    else edge x (f a b) (f (!a) (!b)) (merge f (!a) (!b) xs ys)
termination_by xs ys => xs.length + ys.length

theorem behind_merge (f : Bool → Bool → Bool) (a b : Bool) (n : Nat) (xs ys : List Nat)
    (hx : Behind n xs) (hy : Behind n ys) : Behind n (merge f a b xs ys) := by
  have tail {z : Nat} {zs : List Nat} (h : Behind n (z :: zs)) : n < z ∧ Behind n zs :=
    ⟨h z (by simp), fun w hw => h w (by simp [hw])⟩
  fun_induction merge f a b xs ys with
  | case1 => exact hx
  | case2 a b x xs ih => exact (ih (tail hx).2 hy).edge _ _ (tail hx).1
  | case3 a b y ys ih => exact (ih hx (tail hy).2).edge _ _ (tail hy).1
  | case4 a b x xs y ys hxy ih => exact (ih (tail hx).2 hy).edge _ _ (tail hx).1
  | case5 a b x xs y ys hxy hyx ih => exact (ih hx (tail hy).2).edge _ _ (tail hy).1
  | case6 a b x xs y ys hxy hyx ih => exact (ih (tail hx).2 (tail hy).2).edge _ _ (tail hx).1

theorem pairwise_merge (f : Bool → Bool → Bool) (a b : Bool) (xs ys : List Nat)
    (hx : xs.Pairwise (· < ·)) (hy : ys.Pairwise (· < ·)) :
    (merge f a b xs ys).Pairwise (· < ·) := by
  have none (n : Nat) : Behind n [] := by simp [Behind]
  have head {z : Nat} {zs : List Nat} (h : (z :: zs).Pairwise (· < ·)) : Behind z zs :=
    (List.pairwise_cons.1 h).1
  fun_induction merge f a b xs ys with
  | case1 => exact hx
  | case2 a b x xs ih =>
    exact pairwise_edge _ _ (behind_merge _ _ _ _ _ _ (head hx) (none x)) (ih hx.tail hy)
  | case3 a b y ys ih =>
    exact pairwise_edge _ _ (behind_merge _ _ _ _ _ _ (none y) (head hy)) (ih hx hy.tail)
  | case4 a b x xs y ys hxy ih =>
    exact pairwise_edge _ _ (behind_merge _ _ _ _ _ _ (head hx)
      (((head hy).mono (Nat.le_of_lt hxy)).cons hxy)) (ih hx.tail hy)
  | case5 a b x xs y ys hxy hyx ih =>
    exact pairwise_edge _ _ (behind_merge _ _ _ _ _ _
      (((head hx).mono (Nat.le_of_lt hyx)).cons hyx) (head hy)) (ih hx hy.tail)
  | case6 a b x xs y ys hxy hyx ih =>
    exact pairwise_edge _ _ (behind_merge _ _ _ _ _ _ (head hx)
      ((head hy).mono (Nat.le_of_not_lt hyx))) (ih hx.tail hy.tail)

theorem inside_merge (f : Bool → Bool → Bool) (a b : Bool) (xs ys : List Nat) (n : Nat)
    (hx : xs.Pairwise (· < ·)) (hy : ys.Pairwise (· < ·)) :
    inside (f a b) (merge f a b xs ys) n = f (inside a xs n) (inside b ys n) := by
  have none : Behind n [] := by simp [Behind]
  have behind {z : Nat} {zs : List Nat} (h : (z :: zs).Pairwise (· < ·)) (hz : n < z) :
      Behind n zs := Behind.mono (List.pairwise_cons.1 h).1 (Nat.le_of_lt hz)
  have before {z : Nat} {zs : List Nat} (now : Bool) (hz : n < z) :
      inside now (z :: zs) n = now := by simp [inside, hz]
  have after {z : Nat} {zs : List Nat} (now : Bool) (hz : z ≤ n) :
      inside now (z :: zs) n = inside (!now) zs n := by simp [inside, Nat.not_lt.2 hz]
  fun_induction merge f a b xs ys with
  | case1 => rfl
  | case2 a b x xs ih =>
    by_cases hn : n < x
    · rw [inside_edge_of_lt _ _ _ hn (behind_merge _ _ _ _ _ _ (behind hx hn) none), before a hn]
      rfl
    · rw [inside_edge_of_le _ _ _ (Nat.le_of_not_lt hn), ih hx.tail hy,
        after a (Nat.le_of_not_lt hn)]
  | case3 a b y ys ih =>
    by_cases hn : n < y
    · rw [inside_edge_of_lt _ _ _ hn (behind_merge _ _ _ _ _ _ none (behind hy hn)), before b hn]
      rfl
    · rw [inside_edge_of_le _ _ _ (Nat.le_of_not_lt hn), ih hx hy.tail,
        after b (Nat.le_of_not_lt hn)]
  | case4 a b x xs y ys hxy ih =>
    by_cases hn : n < x
    · have hny := Nat.lt_trans hn hxy
      rw [inside_edge_of_lt _ _ _ hn (behind_merge _ _ _ _ _ _ (behind hx hn)
        ((behind hy hny).cons hny)), before a hn, before b hny]
    · rw [inside_edge_of_le _ _ _ (Nat.le_of_not_lt hn), ih hx.tail hy,
        after a (Nat.le_of_not_lt hn)]
  | case5 a b x xs y ys hxy hyx ih =>
    by_cases hn : n < y
    · have hnx := Nat.lt_trans hn hyx
      rw [inside_edge_of_lt _ _ _ hn (behind_merge _ _ _ _ _ _
        ((behind hx hnx).cons hnx) (behind hy hn)), before a hnx, before b hn]
    · rw [inside_edge_of_le _ _ _ (Nat.le_of_not_lt hn), ih hx hy.tail,
        after b (Nat.le_of_not_lt hn)]
  | case6 a b x xs y ys hxy hyx ih =>
    obtain rfl : x = y := by omega
    by_cases hn : n < x
    · rw [inside_edge_of_lt _ _ _ hn (behind_merge _ _ _ _ _ _ (behind hx hn) (behind hy hn)),
        before a hn, before b hn]
    · have hle := Nat.le_of_not_lt hn
      rw [inside_edge_of_le _ _ _ hle, ih hx.tail hy.tail, after a hle, after b hle]

/-- The edges of ranges of code points; a range that does not lie behind the ones before it is
left out. -/
def edgesFrom (least : Nat) : Unicode.Ranges → List Nat
  | [] => []
  | (lo, hi) :: rs =>
    if least < placeOfCode lo + 1 ∧ placeOfCode lo < placeOfCode hi + 1 then
      placeOfCode lo :: (placeOfCode hi + 1) :: edgesFrom (placeOfCode hi + 2) rs
    else edgesFrom least rs

theorem le_of_mem_edgesFrom (least : Nat) (rs : Unicode.Ranges) :
    ∀ x ∈ edgesFrom least rs, least ≤ x := by
  fun_induction edgesFrom least rs with
  | case1 => simp
  | case2 least lo hi rs h ih =>
    intro x hx
    rcases List.mem_cons.1 hx with rfl | hx
    · omega
    · rcases List.mem_cons.1 hx with rfl | hx
      · omega
      · have := ih x hx
        omega
  | case3 least lo hi rs h ih => exact ih

theorem pairwise_edgesFrom (least : Nat) (rs : Unicode.Ranges) :
    (edgesFrom least rs).Pairwise (· < ·) := by
  fun_induction edgesFrom least rs with
  | case1 => exact List.Pairwise.nil
  | case2 least lo hi rs h ih =>
    refine List.pairwise_cons.2 ⟨fun x hx => ?_, List.pairwise_cons.2 ⟨fun x hx => ?_, ih⟩⟩
    · rcases List.mem_cons.1 hx with rfl | hx
      · omega
      · have := le_of_mem_edgesFrom _ _ x hx
        omega
    · have := le_of_mem_edgesFrom _ _ x hx
      omega
  | case3 least lo hi rs h ih => exact ih

/-! ## Sets -/

/-- A set of characters, by the places where a walk along all characters enters or leaves it. -/
structure CharSet where
  edges : List Nat
  ascending : edges.Pairwise (· < ·)
deriving DecidableEq

namespace CharSet

/-- The character belongs to the set. -/
def mem (s : CharSet) (c : Char) : Bool := inside false s.edges (place c)

/-- The set without members. -/
def empty : CharSet := ⟨[], List.Pairwise.nil⟩

/-- Ranges of code points that stand in ascending order. -/
def ofRanges (rs : Unicode.Ranges) : CharSet := ⟨edgesFrom 0 rs, pairwise_edgesFrom 0 rs⟩

/-- The characters from `first` to `last`. -/
def range (first last : Char) : CharSet := ofRanges [(first.toNat, last.toNat)]

/-- The set of one character. -/
def single (c : Char) : CharSet := range c c

/-- All characters. -/
def any : CharSet := ⟨[0, placeCount], by decide⟩

/-- The characters of ASCII. -/
def ascii : CharSet := ofRanges [(0x00, 0x7f)]

/-- The decimal digits. -/
def digit : CharSet := ofRanges Unicode.digitRanges

/-- The blank characters. -/
def blank : CharSet := ofRanges Unicode.blankRanges

/-- The word characters. -/
def word : CharSet := ofRanges Unicode.wordRanges

/-- The set of the characters that `f` picks by their being in `s` and in `t`. -/
def combine (f : Bool → Bool → Bool) (s t : CharSet) : CharSet where
  edges := merge f false false s.edges t.edges
  ascending := pairwise_merge f false false _ _ s.ascending t.ascending

/-- The members of either set. -/
def union (s t : CharSet) : CharSet := combine or s t

/-- The members of both sets. -/
def inter (s t : CharSet) : CharSet := combine and s t

/-- The members of `s` that `t` lacks. -/
def diff (s t : CharSet) : CharSet := combine (fun a b => a && !b) s t

/-- The members of just one of two sets. -/
def symmDiff (s t : CharSet) : CharSet := combine xor s t

/-- The characters that a set lacks. -/
def compl (s : CharSet) : CharSet := any.diff s

@[simp] theorem mem_empty (c : Char) : empty.mem c = false := rfl

@[simp] theorem mem_any (c : Char) : any.mem c = true := by
  simp [mem, any, inside, place_lt c]

theorem mem_combine (f : Bool → Bool → Bool) (hf : f false false = false) (s t : CharSet)
    (c : Char) : (combine f s t).mem c = f (s.mem c) (t.mem c) := by
  have h := inside_merge f false false s.edges t.edges (place c) s.ascending t.ascending
  rwa [hf] at h

@[simp] theorem mem_union (s t : CharSet) (c : Char) :
    (s.union t).mem c = (s.mem c || t.mem c) := mem_combine _ rfl s t c

@[simp] theorem mem_inter (s t : CharSet) (c : Char) :
    (s.inter t).mem c = (s.mem c && t.mem c) := mem_combine _ rfl s t c

@[simp] theorem mem_diff (s t : CharSet) (c : Char) :
    (s.diff t).mem c = (s.mem c && !t.mem c) := mem_combine _ rfl s t c

@[simp] theorem mem_symmDiff (s t : CharSet) (c : Char) :
    (s.symmDiff t).mem c = (s.mem c ^^ t.mem c) := mem_combine _ rfl s t c

@[simp] theorem mem_compl (s : CharSet) (c : Char) : s.compl.mem c = !s.mem c := by
  simp [compl]

/-- The set with some characters more. -/
def insertAll (s : CharSet) (cs : List Char) : CharSet :=
  cs.foldl (fun s c => s.union (single c)) s

/-- The characters of a list. -/
def ofChars (cs : List Char) : CharSet := empty.insertAll cs

/-- The set with every letter that differs in case only from a member: first the images of its
members, then all letters with an image in it. -/
def folded (s : CharSet) : CharSet :=
  let added (s : CharSet) (pairs : List (Char × Char)) : CharSet :=
    s.insertAll (pairs.filterMap fun (a, b) => if s.mem a && !s.mem b then some b else none)
  let images := added s Unicode.foldPairs
  added images (Unicode.foldPairs.map fun (a, b) => (b, a))

/-- The only member of a set. -/
def single? (s : CharSet) : Option Char :=
  match s.edges with
  | [x, y] => if x + 1 = y then some (Char.ofNat (codeAt x)) else none
  | _ => none

/-- The ranges of a set, by the places of their first and last members. -/
def ranges (s : CharSet) : List (Nat × Nat) := pairs s.edges
where
  /-- Every edge into the set with the last place before the next edge out of it. -/
  pairs : List Nat → List (Nat × Nat)
    | x :: y :: rest => (x, y - 1) :: pairs rest
    | _ => []

/-- The named classes of ASCII characters. -/
def named? : String → Option CharSet
  | "alnum" => some (ofRanges [(0x30, 0x39), (0x41, 0x5a), (0x61, 0x7a)])
  | "alpha" => some (ofRanges [(0x41, 0x5a), (0x61, 0x7a)])
  | "ascii" => some ascii
  | "blank" => some (ofRanges [(0x09, 0x09), (0x20, 0x20)])
  | "cntrl" => some (ofRanges [(0x00, 0x1f), (0x7f, 0x7f)])
  | "digit" => some (ofRanges [(0x30, 0x39)])
  | "graph" => some (ofRanges [(0x21, 0x7e)])
  | "lower" => some (ofRanges [(0x61, 0x7a)])
  | "print" => some (ofRanges [(0x20, 0x7e)])
  | "punct" => some (ofRanges [(0x21, 0x2f), (0x3a, 0x40), (0x5b, 0x60), (0x7b, 0x7e)])
  | "space" => some (ofRanges [(0x09, 0x0d), (0x20, 0x20)])
  | "upper" => some (ofRanges [(0x41, 0x5a)])
  | "word" => some (ofRanges [(0x30, 0x39), (0x41, 0x5a), (0x5f, 0x5f), (0x61, 0x7a)])
  | "xdigit" => some (ofRanges [(0x30, 0x39), (0x41, 0x46), (0x61, 0x66)])
  | _ => none

end CharSet

end Translit.Pattern
