import Mathlib.Data.FinEnum
import Mathlib.Data.Fintype.Card
import Translit.Proofs.Grammar.Depth
import Translit.Proofs.Walk.Cap
import Translit.Proofs.Walk.Reading

/-!
# Walks that come to an end

The tokens before the last one are passed once each, however the nodes are linked under them. Only
at the last token, where the index stays, can a walk go on for ever; it does not if no node leads
back to itself under that token.

* `Grammar.LeadsUnder`, `Grammar.AcyclicUnder` : the links under one token, and that they have no
  cycle; `acyclicUnder_of_entries` : a check of it;
* `exists_visited` : the recursion below an entry is finite, by induction on the tokens that are
  left and then on the links under the last one;
* `exists_gives`, `exists_gives_of_shallow` : a walk comes to its end, in both modes and under every
  cap, and so it does wherever the automaton has a bounded depth.
-/

namespace Translit

namespace Grammar

/-- The first node lists the second one when it meets the token. -/
def LeadsUnder (g : Grammar) (token : String) (id child : NodeId) : Prop :=
  ∃ n, g.node? id = some n ∧ child ∈ n.successors token

/-- No node leads back to itself, by however many links, under the token alone. -/
def AcyclicUnder (g : Grammar) (token : String) : Prop :=
  ∀ id, ¬ Relation.TransGen (g.LeadsUnder token) id id

theorem AcyclicUnder.wellFounded {g : Grammar} {token : String} (h : g.AcyclicUnder token) :
    WellFounded (flip (g.LeadsUnder token)) := by
  have hwf : WellFounded (Relation.TransGen (flip (g.LeadsUnder token))) := by
    have : IsTrans NodeId (Relation.TransGen (flip (g.LeadsUnder token))) :=
      ⟨fun _ _ _ => Relation.TransGen.trans⟩
    have : Std.Irrefl (Relation.TransGen (flip (g.LeadsUnder token))) :=
      ⟨fun id hid => h id (Relation.transGen_swap.1 hid)⟩
    exact Finite.wellFounded_of_trans_of_irrefl _
  exact Subrelation.wf (fun hlink => .single hlink) hwf

/-- Links that only lead to greater numbers have no cycle. -/
theorem acyclicUnder_of_entries {g : Grammar} {token : String}
    (h : (g.nodes.entries.all fun e => (e.2.successors token).all (e.1 < ·)) = true) :
    g.AcyclicUnder token := by
  have hlt {id child : NodeId} (hlink : g.LeadsUnder token id child) : id < child := by
    obtain ⟨n, hn, hchild⟩ := hlink
    have hentry := List.all_eq_true.1 (List.all_eq_true.1 h _ (Table.mem_of_get? hn)) child hchild
    simpa using hentry
  intro id hcycle
  have hid : id < id := by
    refine Relation.TransGen.trans_induction_on (motive := fun {a b} _ => a < b) hcycle
      (fun hlink => hlt hlink) (fun _ _ hab hbc => ?_)
    exact UInt64.lt_trans hab hbc
  exact UInt64.lt_irrefl id hid

end Grammar

namespace Walk

open Grammar Reading

variable {w : Walk}

/-- Entries whose readings are finite have a finite reading in order. -/
theorem exists_inOrder_of_forall {es : List Entry}
    (hes : ∀ e ∈ es, e.index < w.tokens.size ∧ ∃ depth a, w.visited depth e = some a) :
    ∃ depth a, inOrder (w.visited depth) es = some a := by
  induction es with
  | nil => exact ⟨0, empty, rfl⟩
  | cons e es ih =>
    have hrest : ∀ c ∈ es, c.index < w.tokens.size := fun c hc => (hes c (by simp [hc])).1
    obtain ⟨hi, depth, a, ha⟩ := hes e (by simp)
    obtain ⟨depth', b, hb⟩ := ih fun c hc => hes c (by simp [hc])
    have ha' : w.visited (max depth depth' + 1) e = some a := visited_of_le hi ha (by omega)
    have hb' : inOrder (w.visited (max depth depth')) es = some b :=
      inOrder_mono (fun c hc _ hread => visited_of_le (hrest c hc) hread (by omega)) hb
    exact exists_inOrder_cons hrest ha' (Or.inr ⟨b, hb'⟩)

/-- An entry has a finite reading if those that it lists have. -/
theorem exists_visited_of_listed {e : Entry} (hi : e.index < w.tokens.size)
    (hlisted : ∀ n, w.grammar.node? e.node = some n →
      ∀ c ∈ w.listed e.node n (w.nextIndex e.index), ∃ depth a, w.visited depth c = some a) :
    ∃ depth a, w.visited depth e = some a := by
  cases hn : w.grammar.node? e.node with
  | none => exact ⟨1, _, visited_of_missing hn 0⟩
  | some n =>
    obtain ⟨depth, a, ha⟩ := exists_inOrder_of_forall fun c hc =>
      ⟨index_of_listed_lt (nextIndex_lt hi) c hc, hlisted n hn c hc⟩
    refine ⟨depth + 1, ?_⟩
    rw [visited_of_node hi hn]
    cases w.accepted e n with
    | error err => exact ⟨_, rfl⟩
    | ok o =>
      cases o with
      | some id => exact ⟨_, rfl⟩
      | none => exact ⟨a, ha⟩

/-- A walk comes to its end if the recursion is finite below all that the root lists. -/
theorem exists_gives_of_visited {index : Nat}
    (hvisited : index < w.tokens.size → ∀ n, w.grammar.node? root = some n →
      ∀ c ∈ w.listed root n index, ∃ depth a, w.visited depth c = some a) (mode : Mode) :
    ∃ r, w.Gives mode index r := by
  by_cases hi : index < w.tokens.size
  · have hread : ∃ depth a, w.grammar.reading w.tokens depth index = some a := by
      cases hn : w.grammar.node? root with
      | none =>
        refine ⟨0, .defect (.missingNode root), ?_⟩
        rw [reading, hn]
      | some n =>
        obtain ⟨depth, a, ha⟩ := exists_inOrder_of_forall fun c hc =>
          ⟨index_of_listed_lt hi c hc, hvisited hi n hn c hc⟩
        exact ⟨depth, a, by rw [reading_of_node hn, ha]⟩
    obtain ⟨depth, a, ha⟩ := hread
    exact exists_gives_of_uncapped (gives_of_reading (w := w.under 0) rfl hi ha mode)
  · exact ⟨.ok [], 0, fun steps _ => if_pos (Nat.not_lt.1 hi)⟩

/-! ## No cycle under the last token -/

section Acyclic

variable (hacyclic : w.grammar.AcyclicUnder (w.token (w.tokens.size - 1)))

include hacyclic

/-- At the last token each link leads to a node from which fewer links follow. -/
theorem exists_visited_last {e : Entry} (hsize : 0 < w.tokens.size)
    (he : e.index = w.tokens.size - 1) : ∃ depth a, w.visited depth e = some a := by
  obtain ⟨id, parent, index⟩ := e
  obtain rfl : index = w.tokens.size - 1 := he
  induction id using hacyclic.wellFounded.induction generalizing parent with
  | _ id ih =>
    have hi : w.tokens.size - 1 < w.tokens.size := by omega
    have hnext : w.nextIndex (w.tokens.size - 1) = w.tokens.size - 1 := by
      rw [nextIndex_eq_min hi]
      omega
    refine exists_visited_of_listed hi fun n hn c hc => ?_
    dsimp only at hc
    rw [hnext] at hc
    obtain ⟨child, hchild, rfl⟩ := List.mem_map.1 hc
    exact ih child ⟨n, hn, hchild⟩ id

/-- Below every entry the recursion is finite. -/
theorem exists_visited {e : Entry} (hi : e.index < w.tokens.size) :
    ∃ depth a, w.visited depth e = some a := by
  -- before the last token each link leads one token further, to whatever node
  obtain ⟨room, hroom⟩ : ∃ room, e.index + room = w.tokens.size - 1 :=
    ⟨w.tokens.size - 1 - e.index, by omega⟩
  induction room generalizing e with
  | zero => exact exists_visited_last hacyclic (by omega) hroom
  | succ room ih =>
    refine exists_visited_of_listed hi fun n hn c hc => ?_
    have hindex : c.index = e.index + 1 := by
      rw [(mem_listed hc).2.2, nextIndex_eq_min hi]
      omega
    exact ih (by omega) (by omega)

/-- A walk comes to its end at every index, in both modes and under every cap. -/
theorem exists_gives (mode : Mode) (index : Nat) : ∃ r, w.Gives mode index r :=
  exists_gives_of_visited
    (fun hi _ _ c hc => exists_visited hacyclic (index_of_listed_lt hi c hc)) mode

end Acyclic

/-! ## Bounded depth -/

section Shallow

variable {depth : Nat} (hshallow : w.grammar.Shallow depth)

include hshallow

/-- Below an entry there are as many levels as its path leaves. -/
theorem exists_visited_of_leads {e : Entry} {path : List NodeId}
    (hpath : w.grammar.Leads path e.node) (hi : e.index < w.tokens.size) :
    ∃ depth a, w.visited depth e = some a := by
  obtain ⟨room, hroom⟩ : ∃ room, path.length + room = depth :=
    ⟨depth - path.length, by have := hshallow.length_lt hpath; omega⟩
  induction room generalizing e path with
  | zero =>
    have hlt := hshallow.length_lt hpath
    omega
  | succ room ih =>
    refine exists_visited_of_listed hi fun n hn c hc => ?_
    have hlists := lists_of_mem_successors hn (mem_listed hc).1
    refine ih (hpath.step hlists) (index_of_listed_lt (nextIndex_lt hi) c hc) ?_
    rw [List.length_append, List.length_singleton]
    omega

theorem exists_gives_of_shallow (mode : Mode) (index : Nat) : ∃ r, w.Gives mode index r := by
  refine exists_gives_of_visited (fun hi n hn c hc => ?_) mode
  have hlists := lists_of_mem_successors hn (mem_listed hc).1
  exact exists_visited_of_leads hshallow (.root hlists) (index_of_listed_lt hi c hc)

end Shallow

end Walk

end Translit
