import Translit.Grammar.Constraints

/-!
# Rows of tokens that are alike

Two rows may agree around one index each, whatever stands further away and however far the indices
are from the ends. Windows that lie where they agree fit both or neither.

* `Alike` : two rows that agree around two indices; `alike_append` : a stretch that stands in both;
* `windowFits_ahead`, `windowFitsBefore_ahead`, `hold_eq` : windows and constraints.
-/

namespace Translit

/-- Two rows of tokens agree from `before` tokens before an index up to `room` tokens from it on. -/
structure Alike (tokens tokens' : Array String) (index index' before room : Nat) : Prop where
  before_le : before ≤ index
  before_le' : before ≤ index'
  room_le : index + room ≤ tokens.size
  room_le' : index' + room ≤ tokens'.size
  getElem?_eq : ∀ k, k < before + room → tokens[index - before + k]? = tokens'[index' - before + k]?

theorem alike_append (p p' stretch q q' : Array String) {before room : Nat}
    (h : before + room ≤ stretch.size) :
    Alike (p ++ stretch ++ q) (p' ++ stretch ++ q') (p.size + before) (p'.size + before) before
      room where
  before_le := by omega
  before_le' := by omega
  room_le := by
    rw [Array.size_append, Array.size_append]
    omega
  room_le' := by
    rw [Array.size_append, Array.size_append]
    omega
  getElem?_eq := by
    intro k hk
    have hinside (p q : Array String) :
        (p ++ stretch ++ q)[p.size + before - before + k]? = stretch[k]? := by
      rw [Nat.add_sub_cancel, Array.getElem?_append_left, Array.getElem?_append_right,
        Nat.add_sub_cancel_left]
      · omega
      · rw [Array.size_append]
        omega
    rw [hinside, hinside]

namespace Alike

variable {tokens tokens' : Array String} {index index' before room : Nat}

theorem extract_eq (h : Alike tokens tokens' index index' before room) {k count : Nat}
    (hk : k + count ≤ before + room) :
    (tokens.extract (index - before + k) (index - before + k + count)).toList =
      (tokens'.extract (index' - before + k) (index' - before + k + count)).toList := by
  obtain ⟨hle, hle', hroom, hroom', heq⟩ := h
  apply List.ext_getElem?
  intro i
  rw [Array.getElem?_toList, Array.getElem?_toList, Array.getElem?_extract, Array.getElem?_extract]
  by_cases hi : i < count
  · rw [if_pos (by omega), if_pos (by omega), Nat.add_assoc, Nat.add_assoc]
    exact heq (k + i) (by omega)
  · rw [if_neg (by omega), if_neg (by omega)]

theorem windowFits_eq (h : Alike tokens tokens' index index' before room)
    (fits : String → String → Bool) {k : Nat} {values : List String}
    (hk : k + values.length ≤ before + room) :
    windowFits fits tokens (index - before + k) values =
      windowFits fits tokens' (index' - before + k) values := by
  have hwindow := h.extract_eq hk
  obtain ⟨hle, hle', hroom, hroom', -⟩ := h
  unfold windowFits
  rw [hwindow, decide_eq_true (by omega), decide_eq_true (by omega)]

/-- A window from `ahead` tokens behind the index on. -/
theorem windowFits_ahead (h : Alike tokens tokens' index index' before room)
    (fits : String → String → Bool) {ahead : Nat} {values : List String}
    (hahead : ahead + values.length ≤ room) :
    windowFits fits tokens (index + ahead) values =
      windowFits fits tokens' (index' + ahead) values := by
  have hle := h.before_le
  have hle' := h.before_le'
  have hstart : index + ahead = index - before + (before + ahead) := by omega
  have hstart' : index' + ahead = index' - before + (before + ahead) := by omega
  rw [hstart, hstart']
  exact h.windowFits_eq fits (by omega)

/-- A window before `offset` tokens that end `ahead` tokens behind the index. -/
theorem windowFitsBefore_ahead (h : Alike tokens tokens' index index' before room)
    (fits : String → String → Bool) {ahead offset : Nat} {values : List String}
    (hahead : ahead ≤ room) (hoffset : offset + values.length ≤ before) :
    windowFitsBefore fits tokens (index + ahead) offset values =
      windowFitsBefore fits tokens' (index' + ahead) offset values := by
  have hle := h.before_le
  have hle' := h.before_le'
  have hstart : index + ahead - (offset + values.length) =
      index - before + (before + ahead - (offset + values.length)) := by omega
  have hstart' : index' + ahead - (offset + values.length) =
      index' - before + (before + ahead - (offset + values.length)) := by omega
  unfold windowFitsBefore
  rw [hstart, hstart', h.windowFits_eq fits (by omega), decide_eq_true (by omega),
    decide_eq_true (by omega)]

theorem all_window_eq {window : Option (List String)} {f f' : List String → Bool}
    (h : ∀ values, values.length = Constraints.width window → f values = f' values) :
    window.all f = window.all f' := by
  cases window with
  | none => rfl
  | some values => exact h values rfl

/-- Constraints are judged alike where the tokens agree as far as their windows reach. -/
theorem hold_eq (h : Alike tokens tokens' index index' before room)
    (hasClass : String → String → Bool) (c : Constraints) {ahead count : Nat}
    (hroom : ahead + (Constraints.width c.nextTokens + Constraints.width c.nextClasses) ≤ room)
    (hbefore :
      count + (Constraints.width c.prevTokens + Constraints.width c.prevClasses) ≤ before) :
    c.hold hasClass tokens (index + ahead) count =
      c.hold hasClass tokens' (index' + ahead) count := by
  unfold Constraints.hold
  congr 1
  · congr 1
    · congr 1
      · apply all_window_eq
        intro values hwidth
        exact h.windowFitsBefore_ahead _ (by omega) (by omega)
      · apply all_window_eq
        intro values hwidth
        exact h.windowFits_ahead _ (by omega)
    · apply all_window_eq
      intro values hwidth
      exact h.windowFitsBefore_ahead hasClass (by omega) (by omega)
  · apply all_window_eq
    intro values hwidth
    rw [Nat.add_assoc, Nat.add_assoc]
    exact h.windowFits_ahead hasClass (by omega)

end Alike

end Translit
