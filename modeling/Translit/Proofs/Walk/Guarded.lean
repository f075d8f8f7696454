import Translit.Proofs.Token.Guarded
import Translit.Proofs.Walk.Steps

/-!
# Walks that trap outside of the row

A walk reads the token at the index of each push. Here that read traps where the row has no token.
The indices of the entries stay in the row, since the first is inside and the next index never goes
over the last one, so no walk meets a trap, however many steps it goes.

* `guardedPush`, `guardedStep`, `guardedAfter`, `guardedRules`, `guardedMatchAt` : the walk with
  reads that may trap;
* `guardedPush_eq` : inside the row a push does not trap;
* `InRow` : all entries of a state are in the row; `InRow.step` : a step keeps it;
* `guardedStep_eq`, `guardedAfter_eq`, `guardedRules_eq` : the same as the plain walk.
-/

namespace Translit.Walk

/-! ## Walks with reads that may trap -/

/-- Puts the successors of a node at the token of an index before the entries that wait. -/
def guardedPush (w : Walk) (node : NodeId) (index : Nat) (pending : List Entry) :
    Except Trap (Except ParseError (List Entry)) :=
  match w.grammar.node? node with
  | none => .ok (.error (.malformed (.missingNode node)))
  | some n =>
    (readToken w.tokens index).map fun token =>
      let pending := (n.successors token).map (⟨·, node, index⟩) ++ pending
      if 0 < w.cap ∧ w.cap < pending.length then .error (.stackLimit pending.length w.cap)
      else .ok pending

/-- One entry further, in a row whose last index is `last`. -/
def guardedStep (w : Walk) (last : Nat) (mode : Mode) (s : State) : Except Trap Step :=
  match s.pending with
  | [] => .ok (.ended (.ok s.found))
  | e :: rest =>
    match w.grammar.node? e.node with
    | none => .ok (.ended (.error (.malformed (.missingNode e.node))))
    | some n =>
      match w.accepted e n with
      | .error err => .ok (.ended (.error err))
      | .ok (some id) =>
        match mode with
        | .first => .ok (.ended (.ok (s.found ++ [id])))
        | .all => .ok (.further ⟨rest, if id ∈ s.found then s.found else s.found ++ [id]⟩)
      | .ok none =>
        let next := if e.index < last then e.index + 1 else e.index
        (w.guardedPush e.node next rest).map fun
          | .error err => .ended (.error err)
          | .ok pending => .further ⟨pending, s.found⟩

/-- What a number of steps leads to; a walk that has ended stays so. -/
def guardedAfter (w : Walk) (last : Nat) (mode : Mode) : Nat → State → Except Trap Step
  | 0, s => .ok (.further s)
  | n + 1, s =>
    match w.guardedStep last mode s with
    | .error trap => .error trap
    | .ok (.ended r) => .ok (.ended r)
    | .ok (.further s) => guardedAfter w last mode n s

/-- The last index of a row, which must have a token. -/
def lastIndex (tokens : Array String) : Except Trap Nat :=
  if tokens.size = 0 then .error .noTokens else .ok (tokens.size - 1)

/-- The rules found at an index; none behind the last token. -/
def guardedRules (w : Walk) (mode : Mode) (index : Nat) : Except Trap (Option Result) :=
  if w.tokens.size ≤ index then .ok (some (.ok []))
  else do
    let last ← lastIndex w.tokens
    match ← w.guardedPush Grammar.root index [] with
    | .error err => pure (some (.error err))
    | .ok pending =>
      match ← w.guardedAfter last mode w.steps ⟨pending, []⟩ with
      | .ended r => pure (some r)
      | .further _ => pure none

/-- The rule that matches at an index. -/
def guardedMatchAt (w : Walk) (index : Nat) : Except Trap (Option (Except ParseError RuleId)) :=
  (w.guardedRules .first index).map fun r => r.map (w.firstRule index)

/-! ## No trap is met -/

variable {w : Walk} {mode : Mode}

theorem guardedPush_eq {index : Nat} (h : index < w.tokens.size) (node : NodeId)
    (pending : List Entry) : w.guardedPush node index pending = .ok (w.push node index pending) := by
  unfold guardedPush push
  cases w.grammar.node? node with
  | none => rfl
  | some n =>
    have htoken : w.token index = w.tokens[index] := by
      rw [token, Array.getElem?_eq_getElem h, Option.getD_some]
    rw [readToken_eq h, htoken]
    rfl

/-- The entries that wait are in the row. -/
def InRow (w : Walk) (s : State) : Prop := ∀ e ∈ s.pending, e.index < w.tokens.size

theorem inRow_of_push {index : Nat} {pending : List Entry} (h : index < w.tokens.size)
    (hpush : w.push Grammar.root index [] = .ok pending) (found : List RuleId) :
    w.InRow ⟨pending, found⟩ := by
  obtain ⟨n, -, rfl⟩ := push_eq_ok hpush
  intro e he
  rw [List.append_nil] at he
  exact index_of_listed_lt h e he

/-- A step lists successors at the next index, which stays in the row. -/
theorem InRow.step {s t : State} (h : w.InRow s) (hstep : w.step mode s = .further t) :
    w.InRow t :=
  pending_of_step (fun _ _ he _ _ => index_of_listed_lt (nextIndex_lt he)) h hstep

theorem InRow.after {n : Nat} {s t : State} (h : w.InRow s)
    (hafter : w.after mode n s = .further t) : w.InRow t := by
  induction n generalizing s with
  | zero =>
    obtain rfl : s = t := Step.further.inj hafter
    exact h
  | succ n ih =>
    rw [Walk.after] at hafter
    cases hstep : w.step mode s with
    | ended r =>
      rw [hstep] at hafter
      cases hafter
    | further s' =>
      rw [hstep] at hafter
      exact ih (h.step hstep) hafter

theorem guardedStep_eq {s : State} (h : w.InRow s) :
    w.guardedStep (w.tokens.size - 1) mode s = .ok (w.step mode s) := by
  obtain ⟨pending, found⟩ := s
  cases pending with
  | nil => rfl
  | cons e rest =>
    have hnext : w.nextIndex e.index < w.tokens.size := nextIndex_lt (h e List.mem_cons_self)
    unfold guardedStep step
    cases hn : w.grammar.node? e.node with
    | none => simp only [hn]
    | some n =>
      simp only [hn]
      cases w.accepted e n with
      | error err => rfl
      | ok o =>
        cases o with
        | some id => cases mode <;> rfl
        | none =>
          have hpush := guardedPush_eq hnext e.node rest
          rw [nextIndex] at hpush ⊢
          dsimp only
          rw [hpush]
          rfl

theorem guardedAfter_eq (mode : Mode) (n : Nat) {s : State} (h : w.InRow s) :
    w.guardedAfter (w.tokens.size - 1) mode n s = .ok (w.after mode n s) := by
  induction n generalizing s with
  | zero => rfl
  | succ n ih =>
    rw [guardedAfter, after, guardedStep_eq h]
    cases hstep : w.step mode s with
    | ended r => rfl
    | further t => exact ih (h.step hstep)

/-- A walk at any index comes to what it comes to without traps. -/
theorem guardedRules_eq (w : Walk) (mode : Mode) (index : Nat) :
    w.guardedRules mode index = .ok (w.rules mode index) := by
  unfold guardedRules rules
  by_cases hi : w.tokens.size ≤ index
  · rw [if_pos hi, if_pos hi]
  · have hlt : index < w.tokens.size := Nat.not_le.1 hi
    have hlast : lastIndex w.tokens = .ok (w.tokens.size - 1) := if_neg (by omega)
    rw [if_neg hi, if_neg hi, hlast, guardedPush_eq hlt]
    cases hpush : w.push Grammar.root index [] with
    | error err => rfl
    | ok pending =>
      have hafter := guardedAfter_eq mode w.steps (inRow_of_push hlt hpush [])
      simp only [bind, Except.bind, hafter, run]
      cases w.after mode w.steps ⟨pending, []⟩ <;> rfl

theorem guardedMatchAt_eq (w : Walk) (index : Nat) :
    w.guardedMatchAt index = .ok (w.matchAt index) := by
  rw [guardedMatchAt, guardedRules_eq]
  rfl

end Translit.Walk
