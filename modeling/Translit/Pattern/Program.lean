import Translit.Pattern.Syntax

/-!
# Patterns as programs

A pattern is run as a program whose instructions stand in a row. Every instruction but `jump` and
`split` goes on to the next one; `split` prefers its first target. A bounded repetition is laid out
as so many copies of its body, and before each of the optional ones one can leave all that follow.
A loop goes back to the choice before its body if a round takes at least one character; else a
second choice stands behind the body, so that a round that takes none still leads on in the order
the pattern prefers.

* `Node.size` : the length of a program, without building it;
* `Program.ofNode` : the program of a pattern;
* `size_emit` : a pattern adds as many instructions as its size says, so targets are where they
  should be.
-/

namespace Translit.Pattern

/-- An instruction. -/
inductive Instr where
  | take (set : CharSet)
  | look (l : Look)
  | mark (slot : Nat)
  | split (preferred other : Nat)
  | jump (target : Nat)
  | accept

/-- A program. -/
abbrev Program := Array Instr

namespace Node

/-- The number of instructions of a pattern. -/
def size : Node → Nat
  | empty => 0
  | literal cs => cs.length
  | one _ => 1
  | look _ => 1
  | group _ body => body.size + 2
  | seq first second => first.size + second.size
  | alt first second => first.size + second.size + 2
  | repeated 0 none _ body => body.size + 2
  | repeated (least + 1) none _ body => (least + 1) * body.size + 1
  | repeated least (some most) _ body => least * body.size + (most - least) * (body.size + 1)

/-- A choice between going on with `inner` and with `outer`. -/
def choice (greedy : Bool) (inner outer : Nat) : Instr :=
  if greedy then .split inner outer else .split outer inner

/-- A program with the instructions of a pattern behind those it has. -/
def emit : Node → Program → Program
  | empty, p => p
  | literal cs, p => cs.foldl (fun p c => p.push (.take (.single c))) p
  | one set, p => p.push (.take set)
  | look l, p => p.push (.look l)
  | group index body, p =>
    (body.emit (p.push (.mark (2 * index)))).push (.mark (2 * index + 1))
  | seq first second, p => second.emit (first.emit p)
  | alt first second, p =>
    let other := p.size + first.size + 2
    second.emit ((first.emit (p.push (.split (p.size + 1) other))).push (.jump (other + second.size)))
  | repeated 0 none greedy body, p =>
    let base := p.size
    let enter := choice greedy (base + 1) (base + body.size + 2)
    (body.emit (p.push enter)).push (if body.isSolid then .jump base else enter)
  | repeated (least + 1) none greedy body, p =>
    let last := p.size + least * body.size
    (Nat.repeat body.emit (least + 1) p).push (choice greedy last (last + body.size + 1))
  | repeated least (some most) greedy body, p =>
    let stop := p.size + least * body.size + (most - least) * (body.size + 1)
    Nat.repeat (fun p => body.emit (p.push (choice greedy (p.size + 1) stop))) (most - least)
      (Nat.repeat body.emit least p)

theorem size_repeat {f : Program → Program} {k : Nat} (h : ∀ p, (f p).size = p.size + k) (n : Nat)
    (p : Program) : (Nat.repeat f n p).size = p.size + n * k := by
  induction n with
  | zero => simp [Nat.repeat]
  | succ n ih => simp only [Nat.repeat, h, ih, Nat.succ_mul, Nat.add_assoc]

theorem size_foldl_push {α : Type} (f : α → Instr) (xs : List α) (p : Program) :
    (xs.foldl (fun p x => p.push (f x)) p).size = p.size + xs.length := by
  induction xs generalizing p with
  | nil => rfl
  | cons x xs ih => simp only [List.foldl_cons, ih, Array.size_push, List.length_cons]; omega

/-- A pattern adds as many instructions as its size says. -/
theorem size_emit (n : Node) (p : Program) : (n.emit p).size = p.size + n.size := by
  induction n generalizing p with
  | empty => rfl
  | literal cs => exact size_foldl_push _ cs p
  | one set => simp [emit, size]
  | look l => simp [emit, size]
  | group index body ih => simp only [emit, size, Array.size_push, ih]; omega
  | seq first second ihf ihs => simp only [emit, size, ihf, ihs]; omega
  | alt first second ihf ihs => simp only [emit, size, Array.size_push, ihf, ihs]; omega
  | repeated least most greedy body ih =>
    match least, most with
    | 0, none => simp only [emit, size, Array.size_push, ih]; omega
    | least + 1, none =>
      simp only [emit, size, Array.size_push, size_repeat ih]; omega
    | least, some most =>
      have round (stop : Nat) (q : Program) :
          (body.emit (q.push (choice greedy (q.size + 1) stop))).size = q.size + (body.size + 1) := by
        simp only [ih, Array.size_push]; omega
      simp only [emit, size, size_repeat (round _), size_repeat ih]; omega

end Node

/-- The program of a pattern. -/
def Program.ofNode (n : Node) : Program := (n.emit #[]).push .accept

end Translit.Pattern
