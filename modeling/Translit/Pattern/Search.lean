import Translit.Pattern.Program

/-!
# Searching a text

A search follows all threads of a program through the text at once, in the order the pattern
prefers them. A thread stands before a character or at the end of the program; no two stand at the
same instruction, the preferred one going first. When a thread reaches the end, the ones behind it
are dropped; those before it may still find a match that is preferred. So one pass finds the match
that starts first and of those the preferred one.

* `search` : the first match in a text, as offsets in characters;
* `search_within` : a match lies inside the text.
-/

namespace Translit.Pattern

/-- The places where groups began and ended, the latest first. -/
abbrev Marks := List (Nat × Nat)

/-- A way through the program: its next instruction, where it started and what it marked. -/
structure Thread where
  place : Nat
  start : Nat
  marks : Marks

/-- A match: where it starts, where it stops and what it marked. -/
structure Found where
  start : Nat
  stop : Nat
  marks : Marks

/-- The threads before one character, the least preferred first, and for every place of the
program whether they came by it. -/
structure Front where
  threads : List Thread
  seen : Array Bool

namespace Front

/-- No thread. -/
def empty (program : Program) : Front := ⟨[], Array.replicate program.size false⟩

/-- Runs threads up to a character or to the end of the program, the first thread first. Every
place is passed once, so twice their number of steps is enough. -/
def run (program : Program) (before after : Option Char) (offset : Nat) :
    (limit : Nat) → List Thread → Front → Front
  | 0, _, front => front
  | _, [], front => front
  | limit + 1, t :: ts, front =>
    if front.seen.getD t.place true then run program before after offset limit ts front
    else
      let front := { front with seen := front.seen.setIfInBounds t.place true }
      match program[t.place]? with
      | some (.look l) =>
        let ts := if l.holds before after then { t with place := t.place + 1 } :: ts else ts
        run program before after offset limit ts front
      | some (.mark slot) =>
        let t := { t with place := t.place + 1, marks := (slot, offset) :: t.marks }
        run program before after offset limit (t :: ts) front
      | some (.split preferred other) =>
        let ts := { t with place := preferred } :: { t with place := other } :: ts
        run program before after offset limit ts front
      | some (.jump target) =>
        run program before after offset limit ({ t with place := target } :: ts) front
      | _ => run program before after offset limit ts { front with threads := t :: front.threads }

/-- Adds a thread behind those that are there. -/
def add (program : Program) (before after : Option Char) (offset : Nat) (front : Front)
    (t : Thread) : Front :=
  run program before after offset (2 * program.size + 2) [t] front

/-- Adds, behind all others, a thread that starts here, unless there is a match already. -/
def seeded (program : Program) (before after : Option Char) (offset : Nat) (best : Option Found)
    (front : Front) : Front :=
  if best.isNone then front.add program before after offset ⟨0, offset, []⟩ else front

end Front

/-- Takes the character `c` with every thread that can, up to one that is at the end. -/
def advance (program : Program) (c : Char) (after : Option Char) (offset : Nat) :
    List Thread → Front → Option Found → Front × Option Found
  | [], next, best => (next, best)
  | t :: ts, next, best =>
    match program[t.place]? with
    | some .accept => (next, some ⟨t.start, offset, t.marks⟩)
    | some (.take set) =>
      let next := if set.mem c then
          next.add program (some c) after (offset + 1) { t with place := t.place + 1 }
        else next
      advance program c after offset ts next best
    | _ => advance program c after offset ts next best

/-- The first thread that is at the end of the program. -/
def accepted (program : Program) (offset : Nat) : List Thread → Option Found
  | [] => none
  | t :: ts =>
    match program[t.place]? with
    | some .accept => some ⟨t.start, offset, t.marks⟩
    | _ => accepted program offset ts

/-- Goes on with a search before the given rest of the text. -/
def searchFrom (program : Program) (before : Option Char) (offset : Nat) (front : Front)
    (best : Option Found) : List Char → Option Found
  | [] =>
    let front := front.seeded program before none offset best
    (accepted program offset front.threads.reverse).or best
  | c :: cs =>
    let front := front.seeded program before (some c) offset best
    let (next, best) :=
      advance program c cs.head? offset front.threads.reverse (Front.empty program) best
    if best.isSome && next.threads.isEmpty then best
    else searchFrom program (some c) (offset + 1) next best cs

/-- The first match in a text that stands behind the character `before`. -/
def search (program : Program) (before : Option Char) (cs : List Char) : Option Found :=
  searchFrom program before 0 (Front.empty program) none cs

/-- Where the group of an index was last passed. -/
def Found.group? (f : Found) (index : Nat) : Option (Nat × Nat) := do
  let start ← f.marks.lookup (2 * index)
  let stop ← f.marks.lookup (2 * index + 1)
  return (start, stop)

/-! ## Where matches lie -/

/-- Every thread started at an offset up to `n`. -/
def StartBy (n : Nat) (ts : List Thread) : Prop := ∀ t ∈ ts, t.start ≤ n

/-- A match starts before it stops and stops at an offset up to `n`. -/
def Found.Within (n : Nat) (f : Found) : Prop := f.start ≤ f.stop ∧ f.stop ≤ n

theorem StartBy.cons {n : Nat} {t : Thread} {ts : List Thread} (ht : t.start ≤ n)
    (h : StartBy n ts) : StartBy n (t :: ts) := by
  intro u hu
  rcases List.mem_cons.1 hu with rfl | hu
  · exact ht
  · exact h u hu

theorem Found.Within.mono {m n : Nat} {f : Found} (hmn : m ≤ n) (h : f.Within m) : f.Within n :=
  ⟨h.1, Nat.le_trans h.2 hmn⟩

theorem Front.startBy_run (program : Program) (before after : Option Char) (offset n limit : Nat)
    (ts : List Thread) (front : Front) (hts : StartBy n ts) (hfront : StartBy n front.threads) :
    StartBy n (Front.run program before after offset limit ts front).threads := by
  induction limit generalizing ts front with
  | zero => simpa [Front.run] using hfront
  | succ limit ih =>
    cases ts with
    | nil => simpa [Front.run] using hfront
    | cons t ts =>
      have ht : t.start ≤ n := hts t (by simp)
      have hrest : StartBy n ts := fun u hu => hts u (by simp [hu])
      unfold Front.run
      split
      · exact ih ts front hrest hfront
      · split
        · split
          · exact ih _ _ (hrest.cons ht) hfront
          · exact ih _ _ hrest hfront
        · exact ih _ _ (hrest.cons ht) hfront
        · exact ih _ _ (StartBy.cons ht (StartBy.cons ht hrest)) hfront
        · exact ih _ _ (hrest.cons ht) hfront
        · exact ih _ _ hrest (hfront.cons ht)

theorem Front.startBy_add (program : Program) (before after : Option Char) (offset n : Nat)
    (front : Front) (t : Thread) (ht : t.start ≤ n) (hfront : StartBy n front.threads) :
    StartBy n (front.add program before after offset t).threads :=
  Front.startBy_run _ _ _ _ _ _ _ _ (StartBy.cons ht (by simp [StartBy])) hfront

theorem Front.startBy_seeded (program : Program) (before after : Option Char) (offset : Nat)
    (best : Option Found) (front : Front) (hfront : StartBy offset front.threads) :
    StartBy offset (front.seeded program before after offset best).threads.reverse := by
  intro t ht
  rw [List.mem_reverse] at ht
  unfold Front.seeded at ht
  split at ht
  · exact Front.startBy_add _ _ _ _ _ _ ⟨0, offset, []⟩ (Nat.le_refl _) hfront t ht
  · exact hfront t ht

theorem advance_within (program : Program) (c : Char) (after : Option Char) (offset : Nat)
    (ts : List Thread) (next : Front) (best : Option Found) (hts : StartBy offset ts)
    (hnext : StartBy (offset + 1) next.threads) (hbest : ∀ f ∈ best, f.Within offset) :
    StartBy (offset + 1) (advance program c after offset ts next best).1.threads ∧
      ∀ f ∈ (advance program c after offset ts next best).2, f.Within offset := by
  induction ts generalizing next best with
  | nil => exact ⟨hnext, hbest⟩
  | cons t ts ih =>
    have ht : t.start ≤ offset := hts t (by simp)
    have hrest : StartBy offset ts := fun u hu => hts u (by simp [hu])
    unfold advance
    split
    · refine ⟨hnext, fun f hf => ?_⟩
      cases Option.mem_some.1 hf
      exact ⟨ht, Nat.le_refl _⟩
    · refine ih _ _ hrest ?_ hbest
      split
      · exact Front.startBy_add _ _ _ _ _ _ _ (Nat.le_succ_of_le ht) hnext
      · exact hnext
    · exact ih _ _ hrest hnext hbest

theorem accepted_within (program : Program) (offset : Nat) (ts : List Thread)
    (hts : StartBy offset ts) : ∀ f ∈ accepted program offset ts, f.Within offset := by
  induction ts with
  | nil => simp [accepted]
  | cons t ts ih =>
    have ht : t.start ≤ offset := hts t (by simp)
    unfold accepted
    split
    · intro f hf
      cases Option.mem_some.1 hf
      exact ⟨ht, Nat.le_refl _⟩
    · exact ih fun u hu => hts u (by simp [hu])

theorem searchFrom_within (program : Program) (before : Option Char) (offset : Nat) (front : Front)
    (best : Option Found) (cs : List Char) (hfront : StartBy offset front.threads)
    (hbest : ∀ f ∈ best, f.Within offset) :
    ∀ f ∈ searchFrom program before offset front best cs, f.Within (offset + cs.length) := by
  induction cs generalizing before offset front best with
  | nil =>
    intro f hf
    unfold searchFrom at hf
    rcases Option.or_eq_some_iff.1 (Option.mem_def.1 hf) with h | h
    · exact accepted_within _ _ _ (Front.startBy_seeded _ _ _ _ _ _ hfront) f h
    · exact hbest f h.2
  | cons c cs ih =>
    intro f hf
    unfold searchFrom at hf
    have hadv := advance_within program c cs.head? offset _ (Front.empty program) best
      (Front.startBy_seeded program before (some c) offset best front hfront)
      (by simp [StartBy, Front.empty]) hbest
    dsimp only at hf
    split at hf
    · exact (hadv.2 f hf).mono (Nat.le_add_right _ _)
    · have hstep := ih (some c) (offset + 1) _ _ hadv.1
        (fun g hg => (hadv.2 g hg).mono (Nat.le_succ _)) f hf
      exact hstep.mono (by simp only [List.length_cons]; omega)

/-- A match lies inside the text, its start not behind its stop. -/
theorem search_within (program : Program) (before : Option Char) (cs : List Char) (f : Found)
    (h : search program before cs = some f) : f.start ≤ f.stop ∧ f.stop ≤ cs.length := by
  have hf := searchFrom_within program before 0 (Front.empty program) none cs
    (by simp [StartBy, Front.empty]) (by simp) f h
  simpa [Found.Within] using hf

end Translit.Pattern
