import Translit.Proofs.Grammar.Automaton
import Translit.Proofs.Walk.Steps

/-!
# Walks as recursion

A walk keeps the entries of all levels in one list. Read as a recursion, it visits a node, then the
nodes below it in order, and stops at the first error; it need not be finite.

* `Grammar.visit`, `Grammar.reading` : the recursion, cut off at a depth;
* `exists_after_visited`, `exists_after_inOrder` : before any entries that wait, a walk does what
  the recursion says and goes on with those entries;
* `gives_of_reading` : where the recursion is finite, a walk gives what it comes to;
* `exists_reading_of_gives` : where a walk comes to its end, the recursion is finite.
-/

namespace Translit

/-- What the recursion comes to: the rules in the order they are met, and the error it stops at. -/
structure Reading where
  rules : List RuleId
  error : Option ParseError
deriving DecidableEq

namespace Reading

/-- Nothing met. -/
def empty : Reading := ⟨[], none⟩

/-- One rule met. -/
def rule (id : RuleId) : Reading := ⟨[id], none⟩

/-- A defect of the grammar met. -/
def defect (d : Defect) : Reading := ⟨[], some (.malformed d)⟩

/-- One reading and then another. -/
def andThen (a b : Reading) : Reading := ⟨a.rules ++ b.rules, b.error⟩

/-- The readings of a list in order up to the first error, if all of these are finite. -/
def inOrder {α : Type} (read : α → Option Reading) : List α → Option Reading
  | [] => some empty
  | x :: xs =>
    match read x with
    | none => none
    | some a => if a.error.isSome then some a else (inOrder read xs).map a.andThen

/-- What a walk should make of a reading: the first rule, if it is met before an error, or all
rules, each once, if there is no error. -/
def result (a : Reading) : Mode → Walk.Result
  | .first =>
    match a.rules, a.error with
    | id :: _, _ => .ok [id]
    | [], some err => .error err
    | [], none => .ok []
  | .all =>
    match a.error with
    | some err => .error err
    | none => .ok a.rules.eraseDups

end Reading

namespace Grammar

/-- Visits a node that `parent` listed at an index, going down at most `depth` nodes. -/
def visit (g : Grammar) (tokens : Array String) :
    (depth : Nat) → (id parent : NodeId) → (index : Nat) → Option Reading
  | 0, _, _, _ => none
  | depth + 1, id, parent, index =>
    match g.node? id with
    | none => some (.defect (.missingNode id))
    | some n =>
      let next := min (index + 1) (tokens.size - 1)
      let below := Reading.inOrder (fun child => visit g tokens depth child id next)
        (n.successors (tokens[next]?.getD ""))
      if n.accepting then
        match n.rule with
        | none => some (.defect (.acceptsNothing id))
        | some ruleId =>
          match g.rule? ruleId with
          | none => some (.defect (.acceptsUnknown id ruleId))
          | some r =>
            if (g.edge? parent id).all (·.hold g.hasClass tokens index r.tokenCount) then
              some (.rule ruleId)
            else below
      else below

/-- Visits the nodes that the root lists at an index. -/
def reading (g : Grammar) (tokens : Array String) (depth index : Nat) : Option Reading :=
  match g.node? root with
  | none => some (.defect (.missingNode root))
  | some n =>
    Reading.inOrder (fun child => g.visit tokens depth child root index)
      (n.successors (tokens[index]?.getD ""))

end Grammar

/-! ## Readings in order -/

namespace Reading

variable {α β : Type}

theorem inOrder_map (f : α → β) (read : β → Option Reading) (xs : List α) :
    inOrder read (xs.map f) = inOrder (fun x => read (f x)) xs := by
  induction xs with
  | nil => rfl
  | cons x xs ih => simp only [List.map_cons, inOrder, ih]

theorem inOrder_cons_eq_some {read : α → Option Reading} {x : α} {xs : List α} {c : Reading} :
    inOrder read (x :: xs) = some c ↔
      ∃ a, read x = some a ∧ ((a.error.isSome = true ∧ c = a) ∨
        (a.error = none ∧ ∃ b, inOrder read xs = some b ∧ c = a.andThen b)) := by
  rw [inOrder]
  cases hx : read x with
  | none => simp
  | some a =>
    constructor
    · intro h
      refine ⟨a, rfl, ?_⟩
      cases herr : a.error with
      | some err =>
        simp only [herr, Option.isSome_some, if_true, Option.some.injEq] at h
        exact Or.inl ⟨rfl, h.symm⟩
      | none =>
        simp only [herr, Option.isSome_none, Bool.false_eq_true, if_false] at h
        obtain ⟨b, hb, hc⟩ := Option.map_eq_some_iff.1 h
        exact Or.inr ⟨rfl, b, hb, hc.symm⟩
    · rintro ⟨a', ha, ⟨herr, rfl⟩ | ⟨hok, b, hb, rfl⟩⟩
      · obtain rfl : a = c := Option.some.inj ha
        simp only [herr, if_true]
      · obtain rfl : a = a' := Option.some.inj ha
        simp [hok, hb]

/-- What is read of two lists is read of each of them. -/
theorem inOrder_of_append {read : α → Option Reading} {xs ys : List α} {c : Reading}
    (h : inOrder read (xs ++ ys) = some c) :
    ∃ a, inOrder read xs = some a ∧
      (a.error.isSome = true ∨ ∃ b, inOrder read ys = some b) := by
  induction xs generalizing c with
  | nil => exact ⟨empty, rfl, Or.inr ⟨c, h⟩⟩
  | cons x xs ih =>
    obtain ⟨a, hx, ⟨herr, -⟩ | ⟨hok, b, hrest, -⟩⟩ := inOrder_cons_eq_some.1 h
    · exact ⟨a, inOrder_cons_eq_some.2 ⟨a, hx, Or.inl ⟨herr, rfl⟩⟩, Or.inl herr⟩
    · obtain ⟨d, hd, hys⟩ := ih hrest
      exact ⟨a.andThen d, inOrder_cons_eq_some.2 ⟨a, hx, Or.inr ⟨hok, d, hd, rfl⟩⟩, hys⟩

theorem inOrder_mono {read read' : α → Option Reading} {xs : List α} {c : Reading}
    (hread : ∀ x ∈ xs, ∀ a, read x = some a → read' x = some a)
    (h : inOrder read xs = some c) : inOrder read' xs = some c := by
  induction xs generalizing c with
  | nil => exact h
  | cons x xs ih =>
    have hrest : ∀ y ∈ xs, ∀ a, read y = some a → read' y = some a :=
      fun y hy => hread y (List.mem_cons_of_mem x hy)
    obtain ⟨a, hx, ⟨herr, rfl⟩ | ⟨hok, b, hb, rfl⟩⟩ := inOrder_cons_eq_some.1 h
    · exact inOrder_cons_eq_some.2 ⟨c, hread x (by simp) c hx, Or.inl ⟨herr, rfl⟩⟩
    · exact inOrder_cons_eq_some.2
        ⟨a, hread x (by simp) a hx, Or.inr ⟨hok, b, ih hrest hb, rfl⟩⟩

/-- The state of a walk that has done what a reading says, with the entries that wait behind. -/
def lead (a : Reading) (mode : Mode) (rest : List Walk.Entry) (found : List RuleId) : Walk.Step :=
  match mode, a.rules with
  | .first, id :: _ => .ended (.ok (found ++ [id]))
  | _, ids =>
    match a.error with
    | some err => .ended (.error err)
    | none => .further ⟨rest, ids.foldl Walk.noted found⟩

theorem lead_of_error {a : Reading} {err : ParseError} (h : a.error = some err) (mode : Mode)
    (found : List RuleId) :
    ∃ r, ∀ rest, a.lead mode rest found = .ended r := by
  obtain ⟨ids, e⟩ := a
  obtain rfl : e = some err := h
  cases mode with
  | first =>
    cases ids with
    | nil => exact ⟨.error err, fun _ => rfl⟩
    | cons id ids => exact ⟨.ok (found ++ [id]), fun _ => rfl⟩
  | all => exact ⟨.error err, fun _ => rfl⟩

/-- Behind a reading without error comes the next, unless the walk has its first rule. -/
theorem lead_andThen {a : Reading} (h : a.error = none) (b : Reading) (mode : Mode)
    (rest rest' : List Walk.Entry) (found : List RuleId) :
    (∃ r, a.lead mode rest' found = .ended r ∧ (a.andThen b).lead mode rest found = .ended r) ∨
      ∃ found', a.lead mode rest' found = .further ⟨rest', found'⟩ ∧
        (a.andThen b).lead mode rest found = b.lead mode rest found' := by
  obtain ⟨ids, err⟩ := a
  obtain rfl : err = none := h
  cases mode with
  | first =>
    cases ids with
    | nil => exact Or.inr ⟨found, rfl, rfl⟩
    | cons id ids => exact Or.inl ⟨.ok (found ++ [id]), rfl, rfl⟩
  | all =>
    refine Or.inr ⟨ids.foldl Walk.noted found, rfl, ?_⟩
    simp only [lead, andThen, List.foldl_append]

/-- A walk that has done what a reading says and has nothing else to do ends with its result. -/
theorem lead_result (a : Reading) (mode : Mode) :
    a.lead mode [] [] = .ended (a.result mode) ∨
      ∃ found, a.lead mode [] [] = .further ⟨[], found⟩ ∧ a.result mode = .ok found := by
  obtain ⟨ids, err⟩ := a
  cases mode with
  | first => cases ids <;> cases err <;> simp [lead, result]
  | all => cases err with
    | some err => exact Or.inl rfl
    | none =>
      refine Or.inr ⟨ids.foldl Walk.noted [], rfl, ?_⟩
      have h := Walk.foldl_noted [] ids
      simp only [List.eraseDups_nil, List.nil_append] at h
      simp only [result, h]

end Reading

namespace Walk

open Grammar Reading

variable {w : Walk}

/-- The recursion at an entry of a walk. -/
def visited (w : Walk) (depth : Nat) (e : Entry) : Option Reading :=
  w.grammar.visit w.tokens depth e.node e.parent e.index

theorem visited_of_missing {e : Entry} (hn : w.grammar.node? e.node = none) (depth : Nat) :
    w.visited (depth + 1) e = some (.defect (.missingNode e.node)) := by
  simp [visited, visit, hn]

/-- The recursion at a node that is there: its rule, an error, or the entries it lists. -/
theorem visited_of_node {e : Entry} {n : Node} (hi : e.index < w.tokens.size)
    (hn : w.grammar.node? e.node = some n) (depth : Nat) :
    w.visited (depth + 1) e =
      match w.accepted e n with
      | .error err => some ⟨[], some err⟩
      | .ok (some id) => some (.rule id)
      | .ok none => inOrder (w.visited depth) (w.listed e.node n (w.nextIndex e.index)) := by
  have hbelow : inOrder (w.visited depth) (w.listed e.node n (w.nextIndex e.index)) =
      inOrder (fun child => w.grammar.visit w.tokens depth child e.node
          (min (e.index + 1) (w.tokens.size - 1)))
        (n.successors (w.tokens[min (e.index + 1) (w.tokens.size - 1)]?.getD "")) := by
    rw [listed, inOrder_map, nextIndex_eq_min hi]
    rfl
  rw [hbelow]
  cases hacc : n.accepting with
  | false => simp [visited, visit, accepted, hn, hacc]
  | true =>
    cases hrule : n.rule with
    | none => simp [visited, visit, accepted, hn, hacc, hrule, defect]
    | some id =>
      cases hr : w.grammar.rule? id with
      | none => simp [visited, visit, accepted, hn, hacc, hrule, hr, defect]
      | some r =>
        cases hhold : (w.grammar.edge? e.parent e.node).all
          (·.hold w.grammar.hasClass w.tokens e.index r.tokenCount) <;>
          simp [visited, visit, accepted, hn, hacc, hrule, hr, hhold]

theorem visited_succ {depth : Nat} {e : Entry} {a : Reading} (hi : e.index < w.tokens.size)
    (h : w.visited depth e = some a) : w.visited (depth + 1) e = some a := by
  induction depth generalizing e a with
  | zero => cases h
  | succ depth ih =>
    cases hn : w.grammar.node? e.node with
    | none =>
      rw [visited_of_missing hn] at h ⊢
      exact h
    | some n =>
      rw [visited_of_node hi hn] at h ⊢
      split at h
      · exact h
      · exact h
      · exact inOrder_mono (fun c hc b hb => ih (index_of_listed_lt (nextIndex_lt hi) c hc) hb) h

theorem visited_of_le {depth depth' : Nat} {e : Entry} {a : Reading}
    (hi : e.index < w.tokens.size) (h : w.visited depth e = some a) (hle : depth ≤ depth') :
    w.visited depth' e = some a := by
  induction hle with
  | refl => exact h
  | step _ ih => exact visited_succ hi ih

/-! ## From the recursion to the walk -/

theorem step_of_missing {e : Entry} (hn : w.grammar.node? e.node = none) (mode : Mode)
    (rest : List Entry) (found : List RuleId) :
    w.step mode ⟨e :: rest, found⟩ = .ended (.error (.malformed (.missingNode e.node))) := by
  simp [step, hn]

theorem step_of_error {e : Entry} {n : Node} {err : ParseError}
    (hn : w.grammar.node? e.node = some n) (hacc : w.accepted e n = .error err) (mode : Mode)
    (rest : List Entry) (found : List RuleId) :
    w.step mode ⟨e :: rest, found⟩ = .ended (.error err) := by
  simp [step, hn, hacc]

theorem step_of_rule {e : Entry} {n : Node} {id : RuleId} (hn : w.grammar.node? e.node = some n)
    (hacc : w.accepted e n = .ok (some id)) (mode : Mode) (rest : List Entry)
    (found : List RuleId) :
    w.step mode ⟨e :: rest, found⟩ = (Reading.rule id).lead mode rest found := by
  cases mode <;> simp [step, hn, hacc, lead, rule, noted]

theorem step_of_listed (hcap : w.cap = 0) {e : Entry} {n : Node}
    (hn : w.grammar.node? e.node = some n) (hacc : w.accepted e n = .ok none) (mode : Mode)
    (rest : List Entry) (found : List RuleId) :
    w.step mode ⟨e :: rest, found⟩ =
      .further ⟨w.listed e.node n (w.nextIndex e.index) ++ rest, found⟩ := by
  simp [step, hn, hacc, push_of_uncapped hcap hn]

/-- Entries before others are worked off in order, each as it would be alone. -/
theorem exists_after_inOrder {read : Entry → Option Reading} {mode : Mode} {es : List Entry}
    {a : Reading}
    (hread : ∀ e ∈ es, ∀ b, read e = some b → ∀ rest found,
      ∃ n, w.after mode n ⟨e :: rest, found⟩ = b.lead mode rest found)
    (h : inOrder read es = some a) (rest : List Entry) (found : List RuleId) :
    ∃ n, w.after mode n ⟨es ++ rest, found⟩ = a.lead mode rest found := by
  induction es generalizing a found with
  | nil =>
    obtain rfl : empty = a := Option.some.inj h
    refine ⟨0, ?_⟩
    cases mode <;> rfl
  | cons e es ih =>
    have hrest := fun c hc => hread c (List.mem_cons_of_mem e hc)
    obtain ⟨b, hb, ⟨herr, rfl⟩ | ⟨hok, c, hc, rfl⟩⟩ := inOrder_cons_eq_some.1 h
    · obtain ⟨err, herr⟩ := Option.isSome_iff_exists.1 herr
      obtain ⟨r, hr⟩ := lead_of_error herr mode found
      obtain ⟨n, hn⟩ := hread e (by simp) a hb (es ++ rest) found
      exact ⟨n, by rw [List.cons_append, hn, hr, hr]⟩
    · obtain ⟨n, hn⟩ := hread e (by simp) b hb (es ++ rest) found
      rcases lead_andThen hok c mode rest (es ++ rest) found with ⟨r, hr, hr'⟩ | ⟨found', hf, hf'⟩
      · exact ⟨n, by rw [List.cons_append, hn, hr, hr']⟩
      · obtain ⟨m, hm⟩ := ih hrest hc found'
        exact ⟨n + m, by rw [hf']; exact after_of_further (hn.trans hf) hm⟩

/-- Whatever waits behind an entry, a walk first does what the recursion at the entry says. -/
theorem exists_after_visited (hcap : w.cap = 0) {depth : Nat} {e : Entry} {a : Reading}
    (hi : e.index < w.tokens.size) (h : w.visited depth e = some a) (mode : Mode)
    (rest : List Entry) (found : List RuleId) :
    ∃ n, w.after mode n ⟨e :: rest, found⟩ = a.lead mode rest found := by
  -- the entries that wait behind are arbitrary, since those of upper levels do
  induction depth generalizing e a rest found with
  | zero => cases h
  | succ depth ih =>
    cases hn : w.grammar.node? e.node with
    | none =>
      rw [visited_of_missing hn] at h
      obtain rfl := Option.some.inj h
      refine ⟨1, ?_⟩
      rw [after_one, step_of_missing hn]
      cases mode <;> rfl
    | some n =>
      rw [visited_of_node hi hn] at h
      split at h
      · next err hacc =>
        obtain rfl := Option.some.inj h
        refine ⟨1, ?_⟩
        rw [after_one, step_of_error hn hacc]
        cases mode <;> rfl
      · next id hacc =>
        obtain rfl := Option.some.inj h
        exact ⟨1, by rw [after_one, step_of_rule hn hacc]⟩
      · next hacc =>
        have hread : ∀ c ∈ w.listed e.node n (w.nextIndex e.index), ∀ b, w.visited depth c = some b →
            ∀ rest found, ∃ m, w.after mode m ⟨c :: rest, found⟩ = b.lead mode rest found := by
          intro c hc b hb rest found
          exact ih (index_of_listed_lt (nextIndex_lt hi) c hc) hb rest found
        obtain ⟨m, hm⟩ := exists_after_inOrder hread h rest found
        refine ⟨1 + m, after_of_further ?_ hm⟩
        rw [after_one, step_of_listed hcap hn hacc]

/-- A walk over entries whose readings are finite ends with their result. -/
theorem exists_ended (hcap : w.cap = 0) {depth : Nat} {es : List Entry} {a : Reading}
    (hes : ∀ e ∈ es, e.index < w.tokens.size) (h : inOrder (w.visited depth) es = some a)
    (mode : Mode) : ∃ n, w.after mode n ⟨es, []⟩ = .ended (a.result mode) := by
  obtain ⟨n, hn⟩ := exists_after_inOrder
    (fun e he b hb => exists_after_visited hcap (hes e he) hb mode) h [] []
  rw [List.append_nil] at hn
  rcases lead_result a mode with hend | ⟨found, hfurther, hresult⟩
  · exact ⟨n, hn.trans hend⟩
  · refine ⟨n + 1, after_of_further (hn.trans hfurther) ?_⟩
    rw [after_one, hresult]
    rfl

/-! ## From the walk to the recursion -/

/-- If an entry has a finite reading, so have it and those behind it, unless it stops there. -/
theorem exists_inOrder_cons {depth : Nat} {e : Entry} {rest : List Entry} {a : Reading}
    (hrest : ∀ c ∈ rest, c.index < w.tokens.size) (he : w.visited (depth + 1) e = some a)
    (h : a.error.isSome = true ∨ ∃ b, inOrder (w.visited depth) rest = some b) :
    ∃ depth b, inOrder (w.visited depth) (e :: rest) = some b := by
  refine ⟨depth + 1, ?_⟩
  cases herr : a.error with
  | some err => exact ⟨a, inOrder_cons_eq_some.2 ⟨a, he, Or.inl ⟨by rw [herr]; rfl, rfl⟩⟩⟩
  | none =>
    obtain ⟨b, hb⟩ := h.resolve_left (by rw [herr]; exact Bool.false_ne_true)
    have hb' := inOrder_mono (fun c hc b hb => visited_succ (hrest c hc) hb) hb
    exact ⟨_, inOrder_cons_eq_some.2 ⟨a, he, Or.inr ⟨herr, b, hb', rfl⟩⟩⟩

/-- A walk for all rules that comes to its end has worked off finite readings. -/
theorem exists_inOrder (hcap : w.cap = 0) {n : Nat} {s : State} {r : Result}
    (hs : ∀ e ∈ s.pending, e.index < w.tokens.size) (h : w.after .all n s = .ended r) :
    ∃ depth a, inOrder (w.visited depth) s.pending = some a := by
  induction n generalizing s with
  | zero => cases h
  | succ n ih =>
    obtain ⟨pending, found⟩ := s
    cases pending with
    | nil => exact ⟨0, empty, rfl⟩
    | cons e rest =>
      have hi : e.index < w.tokens.size := hs e (by simp)
      have hrest : ∀ c ∈ rest, c.index < w.tokens.size := fun c hc => hs c (by simp [hc])
      rw [after] at h
      cases hn : w.grammar.node? e.node with
      | none => exact exists_inOrder_cons hrest (visited_of_missing hn 0) (Or.inl rfl)
      | some m =>
        cases hacc : w.accepted e m with
        | error err =>
          have he : w.visited 1 e = some ⟨[], some err⟩ := by rw [visited_of_node hi hn, hacc]
          exact exists_inOrder_cons hrest he (Or.inl rfl)
        | ok o =>
          cases o with
          | some id =>
            rw [step_of_rule hn hacc] at h
            obtain ⟨depth, hread⟩ := ih (s := ⟨rest, [id].foldl noted found⟩) hrest h
            have he : w.visited (depth + 1) e = some (.rule id) := by
              rw [visited_of_node hi hn, hacc]
            exact exists_inOrder_cons hrest he (Or.inr hread)
          | none =>
            rw [step_of_listed hcap hn hacc] at h
            have hnext : ∀ c ∈ w.listed e.node m (w.nextIndex e.index) ++ rest,
                c.index < w.tokens.size := by
              intro c hc
              rcases List.mem_append.1 hc with hc | hc
              · exact index_of_listed_lt (nextIndex_lt hi) c hc
              · exact hrest c hc
            obtain ⟨depth, c, hc⟩ :=
              ih (s := ⟨w.listed e.node m (w.nextIndex e.index) ++ rest, found⟩) hnext h
            obtain ⟨a, ha, hend⟩ := inOrder_of_append hc
            have he : w.visited (depth + 1) e = some a := by rw [visited_of_node hi hn, hacc, ha]
            exact exists_inOrder_cons hrest he hend

/-! ## The whole walk -/

theorem reading_of_node {n : Node} (hn : w.grammar.node? root = some n) (depth index : Nat) :
    w.grammar.reading w.tokens depth index =
      inOrder (w.visited depth) (w.listed root n index) := by
  simp only [reading, hn, listed, inOrder_map]
  rfl

/-- Where the recursion is finite, a walk gives its result. -/
theorem gives_of_reading (hcap : w.cap = 0) {depth index : Nat} {a : Reading}
    (hi : index < w.tokens.size) (h : w.grammar.reading w.tokens depth index = some a)
    (mode : Mode) : w.Gives mode index (a.result mode) := by
  cases hn : w.grammar.node? root with
  | none =>
    rw [gives_of_push_error hi (push_of_missing hn index [])]
    rw [reading, hn] at h
    obtain rfl := Option.some.inj h
    cases mode <;> rfl
  | some n =>
    rw [gives_iff hi (push_of_uncapped hcap hn index []), List.append_nil]
    rw [reading_of_node hn] at h
    exact exists_ended hcap (index_of_listed_lt hi) h mode

/-- Where a walk for all rules gives a result, the recursion is finite. -/
theorem exists_reading_of_gives (hcap : w.cap = 0) {index : Nat} {r : Result}
    (hi : index < w.tokens.size) (h : w.Gives .all index r) :
    ∃ depth a, w.grammar.reading w.tokens depth index = some a ∧ a.result .all = r := by
  cases hn : w.grammar.node? root with
  | none =>
    rw [gives_of_push_error hi (push_of_missing hn index [])] at h
    refine ⟨0, .defect (.missingNode root), ?_, h.symm⟩
    rw [reading, hn]
  | some n =>
    rw [gives_iff hi (push_of_uncapped hcap hn index []), List.append_nil] at h
    obtain ⟨steps, h⟩ := h
    obtain ⟨depth, a, ha⟩ := exists_inOrder hcap (index_of_listed_lt hi) h
    obtain ⟨steps', h'⟩ := exists_ended hcap (index_of_listed_lt hi) ha .all
    exact ⟨depth, a, by rw [reading_of_node hn, ha], ended_unique h' h⟩

/-- **A walk gives what the recursion comes to**, for the first rule and for all, whenever the
recursion is finite; and a walk for all rules gives nothing else. -/
theorem gives_reading (hcap : w.cap = 0) {index : Nat} (hi : index < w.tokens.size) :
    (∀ depth a mode, w.grammar.reading w.tokens depth index = some a →
      w.Gives mode index (a.result mode)) ∧
    ∀ r, w.Gives .all index r →
      ∃ depth a, w.grammar.reading w.tokens depth index = some a ∧ a.result .all = r :=
  ⟨fun _ _ mode h => gives_of_reading hcap hi h mode,
    fun _ h => exists_reading_of_gives hcap hi h⟩

/-- The rules `a` and, before `c`, `a b`; behind `a b` the automaton also lists a node that is not
there. -/
def strayGrammar : Grammar :=
  .ofAutomaton
    [(0, .inner [("a", [1])] []), (1, .inner [("b", [2, 3, 9])] []), (2, .inner [] [4]),
      (3, .leaf 0), (4, .leaf 1)]
    [(2, [(4, ⟨none, some ["c"], none, none⟩)])] [["a"], ["a", "b"]]

/-- The longer rule fails at the end, the shorter one is met, and only a walk for all rules goes on
to the missing node. -/
theorem gives_reading_strayGrammar :
    let w : Walk := ⟨strayGrammar, #[" ", "a", "b", " "], 0, 0⟩
    w.cap = 0 ∧ 1 < w.tokens.size ∧
      w.Gives .first 1 (.ok [0]) ∧ w.Gives .all 1 (.error (.malformed (.missingNode 9))) := by
  intro w
  have hi : 1 < w.tokens.size := by decide
  have hread : w.grammar.reading w.tokens 4 1 = some ⟨[0], some (.malformed (.missingNode 9))⟩ := by
    decide
  have h := gives_reading (w := w) rfl hi
  exact ⟨rfl, hi, h.1 4 _ .first hread, h.1 4 _ .all hread⟩

end Walk

end Translit
