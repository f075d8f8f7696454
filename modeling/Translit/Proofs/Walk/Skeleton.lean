import Translit.Proofs.Grammar.Skeleton
import Translit.Proofs.Walk.Steps

/-!
# Walks over grammars of one skeleton

A walk reads no more of a rule than whether it is there and how many tokens it consumes. So over
grammars of one skeleton it takes the same steps, entry by entry.

* `accepted_onGrammar`, `push_onGrammar`, `step_onGrammar` : one step;
* `rules_onGrammar`, `matchAt_onGrammar` : a walk, and the rule that matches.
-/

namespace Translit.Walk

/-- The same walk over another grammar. -/
def onGrammar (w : Walk) (g : Grammar) : Walk := { w with grammar := g }

variable {w : Walk} {g' : Grammar} (h : w.grammar.SameSkeleton g')

include h

theorem node?_onGrammar (id : NodeId) : (w.onGrammar g').grammar.node? id = w.grammar.node? id := by
  show g'.node? id = w.grammar.node? id
  rw [Grammar.node?, Grammar.node?, h.nodes]

theorem accepted_onGrammar (e : Entry) (n : Node) :
    (w.onGrammar g').accepted e n = w.accepted e n := by
  have hedge : (w.onGrammar g').grammar.edge? e.parent e.node = w.grammar.edge? e.parent e.node := by
    show g'.edge? e.parent e.node = w.grammar.edge? e.parent e.node
    rw [Grammar.edge?, Grammar.edge?, h.edges]
  have hclass : (w.onGrammar g').grammar.hasClass = w.grammar.hasClass := by
    funext token tokenClass
    show g'.hasClass token tokenClass = w.grammar.hasClass token tokenClass
    rw [Grammar.hasClass, Grammar.hasClass, Grammar.classesOf?, Grammar.classesOf?, h.classes]
  unfold accepted
  rw [hedge, hclass]
  cases n.rule with
  | none => rfl
  | some id =>
    -- the rules of one number differ in what is not looked at
    have hcount := h.tokenCount id
    have hgrammar : (w.onGrammar g').grammar.rule? id = g'.rule? id := rfl
    cases hr : w.grammar.rule? id with
    | none =>
      rw [hr, Option.map_none, eq_comm, Option.map_eq_none_iff] at hcount
      simp only [hr, hgrammar, hcount]
    | some r =>
      rw [hr, Option.map_some, eq_comm, Option.map_eq_some_iff] at hcount
      obtain ⟨r', hr', hcount⟩ := hcount
      simp only [hr, hgrammar, hr', hcount]
      rfl

theorem push_onGrammar (id : NodeId) (index : Nat) (pending : List Entry) :
    (w.onGrammar g').push id index pending = w.push id index pending := by
  unfold push
  rw [node?_onGrammar h]
  rfl

theorem step_onGrammar (mode : Mode) (s : State) :
    (w.onGrammar g').step mode s = w.step mode s := by
  unfold step
  simp only [node?_onGrammar h, accepted_onGrammar h, push_onGrammar h]
  rfl

theorem after_onGrammar (mode : Mode) (n : Nat) (s : State) :
    (w.onGrammar g').after mode n s = w.after mode n s := by
  induction n generalizing s with
  | zero => rfl
  | succ n ih =>
    rw [after, after, step_onGrammar h]
    cases w.step mode s with
    | ended r => rfl
    | further t => exact ih t

theorem rules_onGrammar (mode : Mode) (index : Nat) :
    (w.onGrammar g').rules mode index = w.rules mode index := by
  unfold rules run
  simp only [push_onGrammar h, after_onGrammar h]
  rfl

theorem matchAt_onGrammar (index : Nat) : (w.onGrammar g').matchAt index = w.matchAt index := by
  unfold matchAt
  rw [rules_onGrammar h]
  rfl

end Translit.Walk
