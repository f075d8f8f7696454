import Translit.Proofs.Token.Alike
import Translit.Proofs.Walk.Finite

/-!
# What a walk looks at

In an automaton of bounded depth a walk looks at a stretch of tokens around its index and at nothing
else. Two walks over rows that agree there go through the same steps, whatever stands further away
and however far the ends of the rows are.

* `Grammar.Sees` : how far the windows of the edges reach; `Sees.of_entries` : a check of it;
* `Entry.Mirrors`, `Step.Mirrors` : entries as deep below two indices, and steps of two walks whose
  entries are;
* `accepted_mirrors`, `listed_mirrors`, `step_mirrors`, `after_mirrors` : what mirrors stays so;
* `rules_alike`, `rules_local` : whole walks over two rows that agree.
-/

namespace Translit

/-- No edge asks for more than `before` tokens back from where a rule ends, those of the rule
included, or for more than `behind` tokens on. -/
structure Grammar.Sees (g : Grammar) (before behind : Nat) : Prop where
  before_le : ∀ id r parent child c, g.rule? id = some r → g.edge? parent child = some c →
    r.tokenCount + (Constraints.width c.prevTokens + Constraints.width c.prevClasses) ≤ before
  behind_le : ∀ parent child c, g.edge? parent child = some c →
    Constraints.width c.nextTokens + Constraints.width c.nextClasses ≤ behind

theorem Grammar.Sees.of_entries {g : Grammar} {before behind : Nat}
    (h : (g.edges.entries.all fun e => e.2.entries.all fun c =>
      (g.rules.toList.all fun r => r.tokenCount +
        (Constraints.width c.2.prevTokens + Constraints.width c.2.prevClasses) ≤ before) &&
      decide (Constraints.width c.2.nextTokens + Constraints.width c.2.nextClasses ≤ behind)) =
        true) : g.Sees before behind := by
  have hedge {parent child : NodeId} {c : Constraints} (hc : g.edge? parent child = some c) :
      (∀ r ∈ g.rules.toList, r.tokenCount +
        (Constraints.width c.prevTokens + Constraints.width c.prevClasses) ≤ before) ∧
      Constraints.width c.nextTokens + Constraints.width c.nextClasses ≤ behind := by
    obtain ⟨table, htable, hc⟩ := Option.bind_eq_some_iff.1 hc
    have hrow := List.all_eq_true.1 h _ (Table.mem_of_get? htable)
    have hentry := List.all_eq_true.1 hrow _ (Table.mem_of_get? hc)
    simpa only [Bool.and_eq_true, List.all_eq_true, decide_eq_true_eq] using hentry
  refine ⟨?_, ?_⟩
  · intro id r parent child c hr hc
    exact (hedge hc).1 r (Array.mem_toList_iff.2 (Array.mem_of_getElem? hr))
  · intro parent child c hc
    exact (hedge hc).2

namespace Walk

open Grammar

/-- The same walk over other tokens. -/
def onTokens (w : Walk) (tokens : Array String) : Walk := { w with tokens := tokens }

/-- The second entry is the first one, as deep below the second index as that is below the first. -/
def Entry.Mirrors (g : Grammar) (start start' : Nat) (e e' : Entry) : Prop :=
  ∃ path, g.Leads path e.node ∧ e.index = start + path.length ∧
    e' = { e with index := start' + path.length }

/-- Steps to the same end, or to states with entries that mirror each other. -/
inductive Step.Mirrors (g : Grammar) (start start' : Nat) : Step → Step → Prop
  | ended (r : Result) : Mirrors g start start' (.ended r) (.ended r)
  | further {pending pending' : List Entry} (found : List RuleId) :
    List.Forall₂ (Entry.Mirrors g start start') pending pending' →
    Mirrors g start start' (.further ⟨pending, found⟩) (.further ⟨pending', found⟩)

variable {w : Walk} {tokens' : Array String} {start start' : Nat}

theorem token_alike {before room k : Nat} (halike : Alike w.tokens tokens' start start' before room)
    (hk : k < room) : w.token (start + k) = (w.onTokens tokens').token (start' + k) := by
  have heq := halike.getElem?_eq (before + k) (by omega)
  have hle := halike.before_le
  have hle' := halike.before_le'
  rw [show start - before + (before + k) = start + k by omega,
    show start' - before + (before + k) = start' + k by omega] at heq
  unfold token
  rw [heq]
  rfl

/-- Lists of entries that mirror each other are as long, so a cap ends both walks or neither. -/
theorem push_mirrors {id : NodeId} {index index' : Nat} {pending pending' : List Entry}
    (hlisted : ∀ n, w.grammar.node? id = some n →
      List.Forall₂ (Entry.Mirrors w.grammar start start') (w.listed id n index)
        ((w.onTokens tokens').listed id n index'))
    (hpending : List.Forall₂ (Entry.Mirrors w.grammar start start') pending pending') :
    (∃ err, w.push id index pending = .error err ∧
      (w.onTokens tokens').push id index' pending' = .error err) ∨
    ∃ next next', w.push id index pending = .ok next ∧
      (w.onTokens tokens').push id index' pending' = .ok next' ∧
      List.Forall₂ (Entry.Mirrors w.grammar start start') next next' := by
  cases hn : w.grammar.node? id with
  | none =>
    have hn' : (w.onTokens tokens').grammar.node? id = none := hn
    exact Or.inl ⟨_, push_of_missing hn index pending, push_of_missing hn' index' pending'⟩
  | some n =>
    have hn' : (w.onTokens tokens').grammar.node? id = some n := hn
    have hnext := List.rel_append (hlisted n hn) hpending
    have hcap : (w.onTokens tokens').cap = w.cap := rfl
    rw [push_of_node hn, push_of_node hn', hcap, ← hnext.length_eq]
    split
    · exact Or.inl ⟨_, rfl, rfl⟩
    · exact Or.inr ⟨_, _, rfl, rfl, hnext⟩

section Alike

variable {depth before behind room : Nat} (hshallow : w.grammar.Shallow depth)
  (hsees : w.grammar.Sees before behind)
  (halike : Alike w.tokens tokens' start start' before room) (hroom : depth + behind ≤ room)

include hshallow hsees halike hroom

theorem accepted_mirrors {e e' : Entry} (h : e.Mirrors w.grammar start start' e') (n : Node) :
    (w.onTokens tokens').accepted e' n = w.accepted e n := by
  obtain ⟨path, hpath, hindex, rfl⟩ := h
  have hdepth := hshallow.length_lt hpath
  have hhold {id : RuleId} {r : Rule} (hr : w.grammar.rule? id = some r) :
      (w.grammar.edge? e.parent e.node).all
          (·.hold w.grammar.hasClass tokens' (start' + path.length) r.tokenCount) =
        (w.grammar.edge? e.parent e.node).all
          (·.hold w.grammar.hasClass w.tokens e.index r.tokenCount) := by
    cases hc : w.grammar.edge? e.parent e.node with
    | none => rfl
    | some c =>
      have hbefore := hsees.before_le id r _ _ c hr hc
      have hbehind := hsees.behind_le _ _ c hc
      have hreach : path.length +
          (Constraints.width c.nextTokens + Constraints.width c.nextClasses) ≤ room := by omega
      rw [hindex]
      exact (halike.hold_eq w.grammar.hasClass c hreach hbefore).symm
  have hgrammar : (w.onTokens tokens').grammar = w.grammar := rfl
  have htokens : (w.onTokens tokens').tokens = tokens' := rfl
  unfold accepted
  rw [hgrammar, htokens]
  cases n.rule with
  | none => rfl
  | some id =>
    cases hr : w.grammar.rule? id with
    | none => simp only [hr]
    | some r => simp only [hr, hhold hr]

omit hsees in
/-- A node that lists another is not so deep that the index behind it could be the last, and one
that lists none leads nowhere in either row. -/
theorem listed_mirrors {e e' : Entry} (h : e.Mirrors w.grammar start start' e') {n : Node}
    (hn : w.grammar.node? e.node = some n) :
    List.Forall₂ (Entry.Mirrors w.grammar start start') (w.listed e.node n (w.nextIndex e.index))
      ((w.onTokens tokens').listed e'.node n ((w.onTokens tokens').nextIndex e'.index)) := by
  obtain ⟨path, hpath, hindex, rfl⟩ := h
  by_cases hlists : ∃ child, w.grammar.Lists e.node child
  · obtain ⟨child, hchild⟩ := hlists
    have hdepth := hshallow.length_lt (hpath.step hchild)
    rw [List.length_append, List.length_singleton] at hdepth
    have hle := halike.room_le
    have hle' := halike.room_le'
    have hnext : w.nextIndex e.index = start + (path.length + 1) := by
      unfold nextIndex
      rw [if_pos (by omega)]
      omega
    have hnext' : (w.onTokens tokens').nextIndex (start' + path.length) =
        start' + (path.length + 1) := by
      have hlt : start' + path.length < (w.onTokens tokens').tokens.size - 1 := by
        show start' + path.length < tokens'.size - 1
        omega
      unfold nextIndex
      rw [if_pos hlt]
      omega
    dsimp only
    rw [hnext, hnext', listed, listed, ← token_alike halike (by omega), List.forall₂_map_left_iff,
      List.forall₂_map_right_iff, List.forall₂_same]
    intro child hchild
    have hlength : (path ++ [e.node]).length = path.length + 1 := by
      rw [List.length_append, List.length_singleton]
    refine ⟨path ++ [e.node], hpath.step (lists_of_mem_successors hn hchild), ?_, ?_⟩
    · rw [hlength]
    · rw [hlength]
  · have hnil (token : String) : n.successors token = [] := by
      rw [List.eq_nil_iff_forall_not_mem]
      intro child hchild
      exact hlists ⟨child, lists_of_mem_successors hn hchild⟩
    rw [listed, listed, hnil, hnil]
    exact .nil

theorem step_mirrors {pending pending' : List Entry} (mode : Mode) (found : List RuleId)
    (h : List.Forall₂ (Entry.Mirrors w.grammar start start') pending pending') :
    Step.Mirrors w.grammar start start' (w.step mode ⟨pending, found⟩)
      ((w.onTokens tokens').step mode ⟨pending', found⟩) := by
  cases h with
  | nil => exact .ended _
  | @cons e e' rest rest' hfirst hrest =>
    have hnode : e'.node = e.node := by
      obtain ⟨path, -, -, rfl⟩ := hfirst
      rfl
    cases hn : w.grammar.node? e.node with
    | none =>
      have hn' : (w.onTokens tokens').grammar.node? e'.node = none := by
        rw [hnode]
        exact hn
      rw [step_of_missing hn, step_of_missing hn', hnode]
      exact .ended _
    | some n =>
      have hn' : (w.onTokens tokens').grammar.node? e'.node = some n := by
        rw [hnode]
        exact hn
      have hsame := accepted_mirrors hshallow hsees halike hroom hfirst n
      cases hacc : w.accepted e n with
      | error err =>
        rw [step_of_error hn hacc, step_of_error hn' (hsame.trans hacc)]
        exact .ended _
      | ok o =>
        cases o with
        | some id =>
          rw [step_of_rule hn hacc, step_of_rule hn' (hsame.trans hacc)]
          cases mode with
          | first => exact .ended _
          | all => exact .further _ hrest
        | none =>
          have hlisted (m : Node) (hm : w.grammar.node? e.node = some m) :=
            listed_mirrors hshallow halike hroom hfirst hm
          rw [hnode] at hlisted
          rw [step_of_push hn hacc, step_of_push hn' (hsame.trans hacc), hnode]
          obtain ⟨err, hpush, hpush'⟩ | ⟨next, next', hpush, hpush', hnext⟩ :=
            push_mirrors hlisted hrest
          · rw [hpush, hpush']
            exact .ended _
          · rw [hpush, hpush']
            exact .further _ hnext

theorem after_mirrors (mode : Mode) (n : Nat) {pending pending' : List Entry}
    (found : List RuleId)
    (h : List.Forall₂ (Entry.Mirrors w.grammar start start') pending pending') :
    Step.Mirrors w.grammar start start' (w.after mode n ⟨pending, found⟩)
      ((w.onTokens tokens').after mode n ⟨pending', found⟩) := by
  induction n generalizing pending pending' found with
  | zero => exact .further _ h
  | succ n ih =>
    have hstep := step_mirrors hshallow hsees halike hroom mode found h
    rw [after, after]
    generalize w.step mode ⟨pending, found⟩ = x,
      (w.onTokens tokens').step mode ⟨pending', found⟩ = x' at hstep
    cases hstep with
    | ended r => exact .ended r
    | further found' hnext => exact ih found' hnext

/-- Walks over two rows that agree around their indices have the same result, with any number of
steps and under every cap. -/
theorem rules_alike (hpos : 0 < room) (mode : Mode) :
    w.rules mode start = (w.onTokens tokens').rules mode start' := by
  have hle := halike.room_le
  have hi : start < w.tokens.size := by omega
  have hi' : start' < (w.onTokens tokens').tokens.size := by
    have hle' := halike.room_le'
    show start' < tokens'.size
    omega
  have hlisted (n : Node) (hn : w.grammar.node? root = some n) :
      List.Forall₂ (Entry.Mirrors w.grammar start start') (w.listed root n start)
        ((w.onTokens tokens').listed root n start') := by
    have htoken := token_alike halike hpos
    rw [Nat.add_zero, Nat.add_zero] at htoken
    rw [listed, listed, ← htoken, List.forall₂_map_left_iff, List.forall₂_map_right_iff,
      List.forall₂_same]
    intro child hchild
    exact ⟨[], .root (lists_of_mem_successors hn hchild), rfl, rfl⟩
  obtain ⟨err, hpush, hpush'⟩ | ⟨next, next', hpush, hpush', hnext⟩ := push_mirrors hlisted .nil
  · rw [rules_of_push_error hi hpush, rules_of_push_error hi' hpush']
  · rw [rules_of_push hi hpush, rules_of_push hi' hpush', run, run,
      show (w.onTokens tokens').steps = w.steps from rfl]
    have hafter := after_mirrors hshallow hsees halike hroom mode w.steps [] hnext
    generalize w.after mode w.steps ⟨next, []⟩ = x,
      (w.onTokens tokens').after mode w.steps ⟨next', []⟩ = x' at hafter
    cases hafter with
    | ended r => rfl
    | further _ _ => rfl

end Alike

/-- **A match is decided by the tokens around it.** Where the automaton has a bounded depth, the
tokens `c` before an index and `t` from it on settle what a walk there gives, if `c` is as long as
the windows of the edges reach back and `t` as long as the depth and what they reach on; the walk
comes to its end, in both modes and under every cap. -/
theorem rules_local (g : Grammar) {depth before behind : Nat} (hshallow : g.Shallow depth)
    (hsees : g.Sees before behind) {c t : Array String} (hc : before ≤ c.size)
    (ht : depth + behind ≤ t.size) (hpos : 0 < t.size) (p p' q q' : Array String) (mode : Mode)
    (cap : Nat) :
    let walk (steps : Nat) : Walk := ⟨g, p ++ c ++ t ++ q, cap, steps⟩
    let walk' (steps : Nat) : Walk := ⟨g, p' ++ c ++ t ++ q', cap, steps⟩
    (∀ steps, (walk steps).rules mode (p ++ c).size = (walk' steps).rules mode (p' ++ c).size) ∧
    ∃ r n, ∀ steps, n ≤ steps → (walk steps).rules mode (p ++ c).size = some r ∧
      (walk' steps).rules mode (p' ++ c).size = some r := by
  intro walk walk'
  have halike : Alike (p ++ c ++ t ++ q) (p' ++ c ++ t ++ q') (p ++ c).size (p' ++ c).size c.size
      t.size := by
    have hsize : c.size + t.size ≤ (c ++ t).size := by rw [Array.size_append]
    have halike := alike_append p p' (c ++ t) q q' hsize
    rw [← Array.append_assoc, ← Array.append_assoc] at halike
    rw [Array.size_append, Array.size_append]
    exact halike
  have hsees' : g.Sees c.size behind :=
    ⟨fun id r parent child k hr hk => (hsees.before_le id r parent child k hr hk).trans hc,
      hsees.behind_le⟩
  have hsame (steps : Nat) :
      (walk steps).rules mode (p ++ c).size = (walk' steps).rules mode (p' ++ c).size :=
    rules_alike (w := walk steps) hshallow hsees' halike ht hpos mode
  obtain ⟨r, n, hr⟩ := exists_gives_of_shallow (w := walk 0) hshallow mode (p ++ c).size
  refine ⟨hsame, r, n, ?_⟩
  intro steps hle
  exact ⟨hr steps hle, (hsame steps).symm.trans (hr steps hle)⟩

/-- The rules `a` and, between `x` and `c`, `a b`. -/
def nestGrammar : Grammar :=
  .ofAutomaton
    [(0, .inner [("a", [1])] []), (1, .inner [("b", [2])] [3]), (2, .inner [] [4, 3]), (3, .leaf 0),
      (4, .leaf 1)]
    [(2, [(4, ⟨some ["x"], some ["c"], none, none⟩)])] [["a"], ["a", "b"]]

theorem shallow_nestGrammar : nestGrammar.Shallow 3 :=
  .of_height (fun id => if id = 0 then 3 else if id = 1 then 2 else if id = 2 then 1 else 0)
    (by decide) (by decide)

theorem sees_nestGrammar : nestGrammar.Sees 3 1 := .of_entries (by decide)

/-- Three tokens before the index and four from it on decide, at the ends of the row as inside. Two
entries wait where both rules are near, so a cap of one entry stops both walks. -/
theorem rules_local_nestGrammar :
    let row : Array String := #["b", "a", "x", "a", "b", "c", "d"]
    let row' : Array String := #["x", "b", "a", "x", "a", "b", "c", "d", "a"]
    nestGrammar.Shallow 3 ∧ nestGrammar.Sees 3 1 ∧ 3 ≤ #["b", "a", "x"].size ∧
      3 + 1 ≤ #["a", "b", "c", "d"].size ∧ 0 < #["a", "b", "c", "d"].size ∧
      (∀ cap steps, Walk.rules ⟨nestGrammar, row, cap, steps⟩ .all 3 =
        Walk.rules ⟨nestGrammar, row', cap, steps⟩ .all 4) ∧
      Walk.rules ⟨nestGrammar, row', 2, 9⟩ .all 4 = some (.ok [1, 0]) ∧
      Walk.rules ⟨nestGrammar, row', 1, 9⟩ .all 4 = some (.error (.stackLimit 2 1)) := by
  have hfound : Walk.rules ⟨nestGrammar, #["b", "a", "x", "a", "b", "c", "d"], 2, 9⟩ .all 3 =
      some (.ok [1, 0]) := rfl
  have hstopped : Walk.rules ⟨nestGrammar, #["b", "a", "x", "a", "b", "c", "d"], 1, 9⟩ .all 3 =
      some (.error (.stackLimit 2 1)) := rfl
  intro row row'
  have hlocal (cap steps : Nat) : Walk.rules ⟨nestGrammar, row, cap, steps⟩ .all 3 =
      Walk.rules ⟨nestGrammar, row', cap, steps⟩ .all 4 :=
    (rules_local nestGrammar shallow_nestGrammar sees_nestGrammar (c := #["b", "a", "x"])
      (t := #["a", "b", "c", "d"]) (by decide) (by decide) (by decide) #[] #["x"] #[] #["a"] .all
      cap).1 steps
  refine ⟨shallow_nestGrammar, sees_nestGrammar, by decide, by decide, by decide, hlocal, ?_, ?_⟩
  · exact (hlocal 2 9).symm.trans hfound
  · exact (hlocal 1 9).symm.trans hstopped

end Walk

end Translit
