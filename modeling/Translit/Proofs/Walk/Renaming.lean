import Translit.Proofs.Grammar.Renaming
import Translit.Proofs.Walk.Cap

/-!
# Walks over a renamed grammar

A walk looks nodes and edges up by number and compares no numbers otherwise. So over a renamed
grammar it takes the same steps, entry by entry, with the other numbers in its entries.

* `Entry.rename`, `State.rename`, `Step.rename`, `Walk.rename` : a walk with other numbers;
* `push_rename`, `accepted_rename`, `step_rename`, `after_rename` : one step, and several;
* `rules_rename`, `matchAt_rename` : a walk, and the rule that matches.
-/

namespace Translit

namespace Walk

open Grammar

/-- An entry with other numbers for its nodes. -/
def Entry.rename (f : NodeId → NodeId) (e : Entry) : Entry := ⟨f e.node, f e.parent, e.index⟩

/-- A state with other numbers in its entries; rules keep theirs. -/
def State.rename (f : NodeId → NodeId) (s : State) : State :=
  ⟨s.pending.map (Entry.rename f), s.found⟩

/-- A step to the same end, told of by other numbers, or to a state with other numbers. -/
def Step.rename (f : NodeId → NodeId) : Step → Step
  | ended r => ended (r.mapError (ParseError.rename f))
  | further s => further (s.rename f)

/-- The same walk over the renamed grammar. -/
def rename (f : NodeId → NodeId) (w : Walk) : Walk := { w with grammar := w.grammar.rename f }

variable {w : Walk} {f : NodeId → NodeId}

theorem listed_rename (id : NodeId) (n : Node) (index : Nat) :
    (w.rename f).listed (f id) (n.rename f) index = (w.listed id n index).map (Entry.rename f) := by
  have htoken : (w.rename f).token index = w.token index := rfl
  unfold listed
  rw [htoken, Node.successors_rename, List.map_map, List.map_map]
  rfl

variable (hf : Function.Injective f)

include hf

theorem node?_rename (id : NodeId) :
    (w.rename f).grammar.node? (f id) = (w.grammar.node? id).map (Node.rename f) :=
  Grammar.node?_rename hf w.grammar id

theorem push_rename (id : NodeId) (index : Nat) (pending : List Entry) :
    (w.rename f).push (f id) index (pending.map (Entry.rename f)) =
      ((w.push id index pending).map (List.map (Entry.rename f))).mapError
        (ParseError.rename f) := by
  have hnode := node?_rename (w := w) hf id
  cases hn : w.grammar.node? id with
  | none =>
    rw [hn] at hnode
    rw [push_of_missing hn, push_of_missing hnode]
    rfl
  | some n =>
    rw [hn] at hnode
    have hcap : (w.rename f).cap = w.cap := rfl
    -- a push lists as many entries, so it goes over the cap or not as before
    rw [push_of_node hn, push_of_node hnode, listed_rename, ← List.map_append, List.length_map,
      hcap]
    split <;> rfl

theorem accepted_rename (e : Entry) (n : Node) :
    (w.rename f).accepted (e.rename f) (n.rename f) =
      (w.accepted e n).mapError (ParseError.rename f) := by
  have hedge : (w.rename f).grammar.edge? (e.rename f).parent (e.rename f).node =
      w.grammar.edge? e.parent e.node := edge?_rename hf w.grammar e.parent e.node
  have haccepting : (n.rename f).accepting = n.accepting := rfl
  have hrule : (n.rename f).rule = n.rule := rfl
  have hrule? (id : RuleId) : (w.rename f).grammar.rule? id = w.grammar.rule? id := rfl
  unfold accepted
  rw [hedge, haccepting, hrule]
  cases n.accepting with
  | false => rfl
  | true =>
    cases n.rule with
    | none => rfl
    | some id =>
      simp only [hrule?, if_pos]
      cases w.grammar.rule? id with
      | none => rfl
      | some r =>
        have hclass : (w.rename f).grammar.hasClass = w.grammar.hasClass := rfl
        have htokens : (w.rename f).tokens = w.tokens := rfl
        have hindex : (e.rename f).index = e.index := rfl
        simp only [hclass, htokens, hindex]
        split <;> rfl

theorem step_rename (mode : Mode) (s : State) :
    (w.rename f).step mode (s.rename f) = (w.step mode s).rename f := by
  obtain ⟨pending, found⟩ := s
  cases pending with
  | nil => rfl
  | cons e rest =>
    show (w.rename f).step mode ⟨e.rename f :: rest.map (Entry.rename f), found⟩ = _
    have hnode : (w.rename f).grammar.node? (e.rename f).node =
        (w.grammar.node? e.node).map (Node.rename f) := node?_rename hf e.node
    cases hn : w.grammar.node? e.node with
    | none =>
      rw [hn] at hnode
      rw [step_of_missing hn, step_of_missing hnode]
      rfl
    | some n =>
      rw [hn] at hnode
      have haccepted := accepted_rename (w := w) hf e n
      cases hacc : w.accepted e n with
      | error err =>
        rw [hacc] at haccepted
        rw [step_of_error hn hacc, step_of_error hnode haccepted]
        rfl
      | ok o =>
        rw [hacc] at haccepted
        cases o with
        | some id =>
          rw [step_of_rule hn hacc, step_of_rule hnode haccepted]
          cases mode <;> rfl
        | none =>
          rw [step_of_push hn hacc, step_of_push hnode haccepted]
          have hpush : (w.rename f).push (e.rename f).node
              ((w.rename f).nextIndex (e.rename f).index) (rest.map (Entry.rename f)) = _ :=
            push_rename hf e.node (w.nextIndex e.index) rest
          rw [hpush]
          cases w.push e.node (w.nextIndex e.index) rest <;> rfl

theorem after_rename (mode : Mode) (n : Nat) (s : State) :
    (w.rename f).after mode n (s.rename f) = (w.after mode n s).rename f := by
  induction n generalizing s with
  | zero => rfl
  | succ n ih =>
    rw [after, after, step_rename hf]
    cases w.step mode s with
    | ended r => rfl
    | further t => exact ih t

variable (hroot : f root = root)

include hroot

/-- A walk over the renamed grammar has the same result, told of by other numbers. -/
theorem rules_rename (mode : Mode) (index : Nat) :
    (w.rename f).rules mode index =
      (w.rules mode index).map (·.mapError (ParseError.rename f)) := by
  have hpush := push_rename (w := w) hf root index []
  rw [hroot, List.map_nil] at hpush
  unfold rules
  rw [hpush]
  show (if w.tokens.size ≤ index then _ else _) = _
  split
  · rfl
  · cases w.push root index [] with
    | error err => rfl
    | ok pending =>
      show (w.rename f).run mode (State.rename f ⟨pending, []⟩) = _
      unfold run
      rw [show (w.rename f).steps = w.steps from rfl, after_rename hf]
      dsimp only
      cases w.after mode w.steps ⟨pending, []⟩ <;> rfl

theorem matchAt_rename (index : Nat) :
    (w.rename f).matchAt index = (w.matchAt index).map (·.mapError (ParseError.rename f)) := by
  unfold matchAt
  rw [rules_rename hf hroot, Option.map_map, Option.map_map]
  congr 1
  funext r
  cases r with
  | error err => rfl
  | ok ids => cases ids <;> rfl

end Walk

end Translit
