import Translit.Pattern.Reader
import Translit.Pattern.Search
import Translit.Pattern.Weight

/-!
# All matches of a text

A pattern is matched again and again, each time behind the last match. An empty match right behind
the last match is no match: the search goes on one character further. The text falls into what was
skipped and what was matched, in order and without a gap.

* `Pattern.compile?` : a pattern made ready to run;
* `Pattern.hits` : all matches of a text, and what is left behind the last;
* `joined_hits` : nothing of the text is lost.
-/

namespace Translit

/-- A pattern ready to run: its source, the number of its groups and its program. -/
structure Pattern where
  source : String
  groups : Nat
  program : Pattern.Program

namespace Pattern

/-- A pattern made ready to run, if it is one and not too heavy. One with a class by Unicode property
is refused; `Grammar.loadWith` takes any other way to compile patterns in place of this one. -/
def compile? (source : String) : Option Pattern := do
  let (node, groups) ← Node.read? source.toList
  if node.fits then return ⟨source, groups, Program.ofNode node⟩ else none

/-- A match in a text: what was skipped since the last one, what was matched, and what each group
holds, if it took part. -/
structure Hit where
  skipped : List Char
  whole : List Char
  groups : List (Option (List Char))

/-- The match `found` in `cs`, behind `skipped` characters more. -/
def hitAt (p : Pattern) (skipped cs : List Char) (found : Found) : Hit where
  skipped := skipped ++ cs.take found.start
  whole := (cs.drop found.start).take (found.stop - found.start)
  groups := (List.range p.groups).map fun i =>
    (found.group? (i + 1)).map fun (start, stop) => (cs.drop start).take (stop - start)

/-- The character before the rest of a text whose first `n` characters were taken. -/
def lastBefore (before : Option Char) (cs : List Char) (n : Nat) : Option Char :=
  match n with
  | 0 => before
  | n + 1 => cs[n]?

/-- All matches in `cs`, which stands behind the character `before`, and what is left; the first
one also holds the characters `skipped`. An empty match at once counts only if `fresh`. -/
def hitsFrom (p : Pattern) (before : Option Char) (fresh : Bool) (skipped cs : List Char) :
    List Hit × List Char :=
  match _hs : search p.program before cs with
  | none => ([], skipped ++ cs)
  | some found =>
    if found.stop = 0 then
      if fresh then
        let (hits, rest) := hitsFrom p before false [] cs
        (hitAt p skipped cs found :: hits, rest)
      else
        match cs with
        | [] => ([], skipped)
        | c :: cs => hitsFrom p (some c) true (skipped ++ [c]) cs
    else
      let (hits, rest) :=
        hitsFrom p (lastBefore before cs found.stop) false [] (cs.drop found.stop)
      (hitAt p skipped cs found :: hits, rest)
termination_by (cs.length, if fresh then 1 else 0)
decreasing_by
  · simp_all only [if_true, if_false]
    exact Prod.Lex.right _ Nat.zero_lt_one
  · exact Prod.Lex.left _ _ (by simp)
  · have h := (search_within _ _ _ _ _hs).2
    exact Prod.Lex.left _ _ (by simp only [List.length_drop]; omega)

/-- All matches of a text, and what is left behind the last one. -/
def hits (p : Pattern) (cs : List Char) : List Hit × List Char := hitsFrom p none true [] cs

/-- A row of matches and what is left, put together again. -/
def joined (hits : List Hit) (rest : List Char) : List Char :=
  hits.flatMap (fun h => h.skipped ++ h.whole) ++ rest

theorem skipped_append_whole (p : Pattern) (skipped cs : List Char) (found : Found)
    (h : found.start ≤ found.stop) :
    (hitAt p skipped cs found).skipped ++ (hitAt p skipped cs found).whole ++ cs.drop found.stop =
      skipped ++ cs := by
  have hsplit : cs.drop found.stop = (cs.drop found.start).drop (found.stop - found.start) := by
    rw [List.drop_drop, Nat.add_sub_cancel' h]
  simp only [hitAt]
  rw [hsplit, List.append_assoc, List.append_assoc, List.take_append_drop, List.take_append_drop]

theorem joined_hitsFrom (p : Pattern) (before : Option Char) (fresh : Bool)
    (skipped cs : List Char) :
    joined (hitsFrom p before fresh skipped cs).1 (hitsFrom p before fresh skipped cs).2 =
      skipped ++ cs := by
  fun_induction hitsFrom p before fresh skipped cs with
  | case1 => simp [joined]
  | case2 before skipped cs found hs hstop hits rest heq ih =>
    have hle := (search_within _ _ _ _ hs).1
    have h := skipped_append_whole p skipped cs found hle
    rw [hstop, List.drop_zero] at h
    rw [heq] at ih
    simp only [joined, List.flatMap_cons, List.append_assoc] at ih ⊢
    rw [ih, List.nil_append, ← List.append_assoc, h]
  | case3 => simp [joined]
  | case4 before fresh skipped found hstop hfresh c cs hs ih => simpa using ih
  | case5 before fresh skipped cs found hs hstop hits rest heq ih =>
    have hle := (search_within _ _ _ _ hs).1
    have h := skipped_append_whole p skipped cs found hle
    rw [heq] at ih
    simp only [joined, List.flatMap_cons, List.append_assoc] at ih ⊢
    rw [ih, List.nil_append, ← List.append_assoc, h]

/-- Nothing of the text is lost. -/
theorem joined_hits (p : Pattern) (cs : List Char) :
    joined (p.hits cs).1 (p.hits cs).2 = cs :=
  joined_hitsFrom p none true [] cs

end Pattern

end Translit
