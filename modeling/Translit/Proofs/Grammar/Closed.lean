import Translit.Parse.Error
import Translit.Proofs.Grammar.Automaton

/-!
# Closed grammars

Nothing is checked when a grammar is loaded, so its tables may name what is not there. A grammar is
closed if they name nothing of the kind.

* `Grammar.HasDefect` : what a grammar must look like for a defect to be one of its own;
* `Grammar.Resolved` : no onmatch rule is missing; `Grammar.Closed` : nothing is;
* `closed_iff` : a grammar is closed if no defect is one of its own;
* `Closed.of_isClosed` : a check of it.
-/

namespace Translit

namespace Grammar

/-- The look-up table offers the onmatch rule between some two tokens. -/
def OffersOnmatch (g : Grammar) (id : OnmatchId) : Prop :=
  ∃ current previous ids, g.onmatchCandidates? current previous = some ids ∧ id ∈ ids

/-- The defect is one that the grammar has. -/
def HasDefect (g : Grammar) : Defect → Prop
  | .missingNode id => g.node? id = none ∧ (id = root ∨ ∃ parent, g.Lists parent id)
  | .acceptsNothing id => ∃ n, g.node? id = some n ∧ n.accepting = true ∧ n.rule = none
  | .acceptsUnknown id ruleId =>
    ∃ n, g.node? id = some n ∧ n.accepting = true ∧ n.rule = some ruleId ∧ g.rule? ruleId = none
  | .emptyRule ruleId => ∃ rule, g.rule? ruleId = some rule ∧ rule.tokens = []
  | .unknownOnmatch id => g.onmatchRule? id = none ∧ g.OffersOnmatch id
  -- a rule is looked up by number only where a node accepts it
  | .unknownRule _ => False
  | .stated _ => False

/-- The onmatch rules that the look-up table offers are there. -/
def Resolved (g : Grammar) : Prop := ∀ id, g.OffersOnmatch id → ∃ r, g.onmatchRule? id = some r

/-- All that the tables of a grammar name is there, and every rule consumes a token. -/
structure Closed (g : Grammar) : Prop where
  root : ∃ n, g.node? root = some n
  listed : ∀ parent child, g.Lists parent child → ∃ n, g.node? child = some n
  owner : ∀ id n, g.node? id = some n → n.accepting = true →
    ∃ ruleId rule, n.rule = some ruleId ∧ g.rule? ruleId = some rule
  consumes : ∀ ruleId rule, g.rule? ruleId = some rule → 1 ≤ rule.tokenCount
  onmatch : g.Resolved

variable {g : Grammar}

theorem Closed.not_hasDefect (h : g.Closed) (d : Defect) : ¬ g.HasDefect d := by
  cases d with
  | missingNode id =>
    rintro ⟨hnone, rfl | ⟨parent, hlists⟩⟩
    · obtain ⟨n, hn⟩ := h.root
      rw [hnone] at hn
      cases hn
    · obtain ⟨n, hn⟩ := h.listed parent id hlists
      rw [hnone] at hn
      cases hn
  | acceptsNothing id =>
    rintro ⟨n, hn, hacc, hnone⟩
    obtain ⟨ruleId, rule, hruleId, -⟩ := h.owner id n hn hacc
    rw [hnone] at hruleId
    cases hruleId
  | acceptsUnknown id ruleId =>
    rintro ⟨n, hn, hacc, hruleId, hnone⟩
    obtain ⟨ruleId', rule, hruleId', hrule⟩ := h.owner id n hn hacc
    obtain rfl : ruleId = ruleId' := Option.some.inj (hruleId.symm.trans hruleId')
    rw [hnone] at hrule
    cases hrule
  | emptyRule ruleId =>
    rintro ⟨rule, hrule, hempty⟩
    have hpos := h.consumes ruleId rule hrule
    rw [Rule.tokenCount, hempty] at hpos
    exact absurd hpos (by decide)
  | unknownOnmatch id =>
    rintro ⟨hnone, hoffers⟩
    obtain ⟨r, hr⟩ := h.onmatch id hoffers
    rw [hnone] at hr
    cases hr
  | unknownRule ruleId => exact id
  | stated reason => exact id

/-- A grammar is closed exactly if it has no defect. -/
theorem closed_iff : g.Closed ↔ ∀ d, ¬ g.HasDefect d := by
  refine ⟨Closed.not_hasDefect, fun h => ⟨?_, ?_, ?_, ?_, ?_⟩⟩
  · refine Option.ne_none_iff_exists'.1 fun hnone => ?_
    exact h (.missingNode root) ⟨hnone, Or.inl rfl⟩
  · intro parent child hlists
    refine Option.ne_none_iff_exists'.1 fun hnone => ?_
    exact h (.missingNode child) ⟨hnone, Or.inr ⟨parent, hlists⟩⟩
  · intro id n hn hacc
    cases hruleId : n.rule with
    | none => exact absurd ⟨n, hn, hacc, hruleId⟩ (h (.acceptsNothing id))
    | some ruleId =>
      cases hrule : g.rule? ruleId with
      | none => exact absurd ⟨n, hn, hacc, hruleId, hrule⟩ (h (.acceptsUnknown id ruleId))
      | some rule => exact ⟨ruleId, rule, rfl, hrule⟩
  · intro ruleId rule hrule
    refine Nat.pos_of_ne_zero fun hzero => ?_
    exact h (.emptyRule ruleId) ⟨rule, hrule, List.length_eq_zero_iff.1 hzero⟩
  · intro id hoffers
    refine Option.ne_none_iff_exists'.1 fun hnone => ?_
    exact h (.unknownOnmatch id) ⟨hnone, hoffers⟩

/-! ## A check -/

/-- A check that a grammar is closed, by the entries of its tables. -/
def isClosed (g : Grammar) : Bool :=
  (g.node? root).isSome &&
    (g.nodes.entries.all fun e =>
      (e.2.fallback.all fun id => (g.node? id).isSome) &&
      (e.2.children.entries.all fun c => c.2.all fun id => (g.node? id).isSome) &&
      (!e.2.accepting || (e.2.rule.bind g.rule?).isSome)) &&
    g.rules.toList.all (fun rule => !rule.tokens.isEmpty) &&
    g.onmatchLookup.entries.all fun e =>
      e.2.entries.all fun c => c.2.all fun id => (g.onmatchRule? id).isSome

/-- The entries of a grammar tell whether it is closed. -/
theorem Closed.of_isClosed (h : g.isClosed = true) : g.Closed := by
  simp only [isClosed, Bool.and_eq_true, List.all_eq_true] at h
  obtain ⟨⟨⟨hroot, hnodes⟩, hrules⟩, honmatch⟩ := h
  refine ⟨Option.isSome_iff_exists.1 hroot, ?_, ?_, ?_, ?_⟩
  · rintro parent child ⟨n, hn, hc | ⟨token, ids, hids, hc⟩⟩
    · exact Option.isSome_iff_exists.1 ((hnodes _ (Table.mem_of_get? hn)).1.1 child hc)
    · exact Option.isSome_iff_exists.1
        ((hnodes _ (Table.mem_of_get? hn)).1.2 _ (Table.mem_of_get? hids) child hc)
  · intro id n hn hacc
    have hrule := (hnodes _ (Table.mem_of_get? hn)).2
    dsimp only at hrule
    rw [hacc, Bool.not_true, Bool.false_or] at hrule
    obtain ⟨rule, hrule⟩ := Option.isSome_iff_exists.1 hrule
    obtain ⟨ruleId, hruleId, hrule⟩ := Option.bind_eq_some_iff.1 hrule
    exact ⟨ruleId, rule, hruleId, hrule⟩
  · intro ruleId rule hrule
    have hne := hrules rule (Array.mem_toList_iff.2 (Array.mem_of_getElem? hrule))
    refine List.length_pos_iff.2 fun hempty => ?_
    rw [hempty] at hne
    cases hne
  · rintro id ⟨current, previous, ids, hids, hid⟩
    obtain ⟨t, ht, hids⟩ := Option.bind_eq_some_iff.1 hids
    exact Option.isSome_iff_exists.1
      (honmatch _ (Table.mem_of_get? ht) _ (Table.mem_of_get? hids) id hid)

end Grammar

end Translit
