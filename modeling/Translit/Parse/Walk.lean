import Translit.Grammar.Basic
import Translit.Parse.Error
import Translit.Parse.Limits

/-!
# Walking the automaton

A walk looks for the rules that match at one token. It goes depth first and keeps the entries it
has not come to yet in a list, the next one first. An entry is a node, the node it was listed by,
and the index of a token. An accepting node whose incoming constraints hold gives its rule; any
other node moves on to the next token, staying at the last one, and lists its successors there.

A walk need not end: from the last token on, a cycle of nodes is walked for ever. So a walk has a
number of steps, and no result if it is not at its end after them.

* `step` : one entry further; `after` : so many steps further;
* `after_of_le`, `run_of_le` : with more steps a walk has the same result;
* `run` : a walk from any state to its end;
* `matchAt`, `matchAll` : the first rule, or all rules, that match at a token.
-/

namespace Translit

/-- Whether a walk ends with the first rule or goes on to find all. -/
inductive Mode where
  | first | all
deriving DecidableEq

/-- A grammar, the tokens it is walked over, the most entries that may wait, where zero stands for
any number, and the most steps. -/
structure Walk where
  grammar : Grammar
  tokens : Array String
  cap : Nat
  steps : Nat

/-- A walk over tokens under limits. -/
def Grammar.walk (g : Grammar) (limits : Limits) (tokens : Array String) : Walk :=
  ⟨g, tokens, limits.stackSize, limits.steps⟩

namespace Walk

/-- A node that waits, with the node it was listed by and the index it was listed at. -/
structure Entry where
  node : NodeId
  parent : NodeId
  index : Nat
deriving DecidableEq

/-- The entries that wait, the next one first, and the rules found, in order. -/
structure State where
  pending : List Entry
  found : List RuleId
deriving DecidableEq

/-- What a walk ends with. -/
abbrev Result := Except ParseError (List RuleId)

/-- What one step leads to: the end, or another state. -/
inductive Step where
  | ended (r : Result)
  | further (s : State)

/-- The token at an index. -/
def token (w : Walk) (index : Nat) : String := w.tokens[index]?.getD ""

/-- The index after an index; the last one stays. -/
def nextIndex (w : Walk) (index : Nat) : Nat :=
  if index < w.tokens.size - 1 then index + 1 else index

/-- Puts the successors of a node at a token before the entries that wait. -/
def push (w : Walk) (node : NodeId) (index : Nat) (pending : List Entry) :
    Except ParseError (List Entry) :=
  match w.grammar.node? node with
  | none => .error (.malformed (.missingNode node))
  | some n =>
    let pending := (n.successors (w.token index)).map (⟨·, node, index⟩) ++ pending
    if 0 < w.cap ∧ w.cap < pending.length then .error (.stackLimit pending.length w.cap)
    else .ok pending

/-- The rule that an entry gives: that of an accepting node whose incoming constraints hold. -/
def accepted (w : Walk) (e : Entry) (n : Node) : Except ParseError (Option RuleId) :=
  if n.accepting then
    match n.rule with
    | none => .error (.malformed (.acceptsNothing e.node))
    | some id =>
      match w.grammar.rule? id with
      | none => .error (.malformed (.acceptsUnknown e.node id))
      | some r =>
        let constraints := w.grammar.edge? e.parent e.node
        if constraints.all (·.hold w.grammar.hasClass w.tokens e.index r.tokenCount) then
          .ok (some id)
        else .ok none
  else .ok none

/-- One entry further. -/
def step (w : Walk) (mode : Mode) (s : State) : Step :=
  match s.pending with
  | [] => .ended (.ok s.found)
  | e :: rest =>
    match w.grammar.node? e.node with
    | none => .ended (.error (.malformed (.missingNode e.node)))
    | some n =>
      match w.accepted e n with
      | .error err => .ended (.error err)
      | .ok (some id) =>
        match mode with
        | .first => .ended (.ok (s.found ++ [id]))
        | .all => .further ⟨rest, if id ∈ s.found then s.found else s.found ++ [id]⟩
      | .ok none =>
        match w.push e.node (w.nextIndex e.index) rest with
        | .error err => .ended (.error err)
        | .ok pending => .further ⟨pending, s.found⟩

/-- What a number of steps leads to; a walk that has ended stays so. -/
def after (w : Walk) (mode : Mode) : Nat → State → Step
  | 0, s => .further s
  | n + 1, s =>
    match w.step mode s with
    | .ended r => .ended r
    | .further s => after w mode n s

/-- What a walk ends with, if it ends within its steps. -/
def run (w : Walk) (mode : Mode) (s : State) : Option Result :=
  match w.after mode w.steps s with
  | .ended r => some r
  | .further _ => none

theorem after_of_le {w : Walk} {mode : Mode} {m n : Nat} {s : State} {r : Result}
    (h : w.after mode m s = .ended r) (hmn : m ≤ n) : w.after mode n s = .ended r := by
  induction m generalizing n s with
  | zero => simp [after] at h
  | succ m ih =>
    obtain ⟨k, rfl⟩ : ∃ k, n = k + 1 := ⟨n - 1, by omega⟩
    unfold after at h ⊢
    cases hstep : w.step mode s with
    | ended r' => rwa [hstep] at h
    | further s' =>
      rw [hstep] at h
      exact ih h (by omega)

theorem run_eq_some_iff {w : Walk} {mode : Mode} {s : State} {r : Result} :
    w.run mode s = some r ↔ w.after mode w.steps s = .ended r := by
  unfold run
  cases w.after mode w.steps s <;> simp

theorem after_steps (w : Walk) (mode : Mode) (steps n : Nat) (s : State) :
    Walk.after { w with steps := steps } mode n s = w.after mode n s := by
  induction n generalizing s with
  | zero => rfl
  | succ n ih =>
    have hstep : Walk.step { w with steps := steps } mode s = w.step mode s := rfl
    unfold after
    rw [hstep]
    cases w.step mode s with
    | ended r => rfl
    | further s' => exact ih s'

/-- With more steps a walk has the same result. -/
theorem run_of_le {w : Walk} {mode : Mode} {s : State} {r : Result} {steps : Nat}
    (h : w.run mode s = some r) (hle : w.steps ≤ steps) :
    Walk.run { w with steps := steps } mode s = some r := by
  rw [run_eq_some_iff, after_steps]
  exact after_of_le (run_eq_some_iff.1 h) hle

/-- The rules found at an index; none behind the last token. -/
def rules (w : Walk) (mode : Mode) (index : Nat) : Option Result :=
  if w.tokens.size ≤ index then some (.ok [])
  else
    match w.push Grammar.root index [] with
    | .error err => some (.error err)
    | .ok pending => run w mode ⟨pending, []⟩

/-- The first rule of a result; it is an error if there is none. -/
def firstRule (w : Walk) (index : Nat) (r : Result) : Except ParseError RuleId :=
  r.bind fun ids =>
    match ids.head? with
    | some id => .ok id
    | none => .error (.noMatch index (w.token index))

/-- The rule that matches at an index. -/
def matchAt (w : Walk) (index : Nat) : Option (Except ParseError RuleId) :=
  (w.rules .first index).map (w.firstRule index)

/-- All rules that match at an index, each once, in the order they are found. -/
def matchAll (w : Walk) (index : Nat) : Option Result := w.rules .all index

end Walk

end Translit
