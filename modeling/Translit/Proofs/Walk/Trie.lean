import Translit.Proofs.Walk.Reading

/-!
# Longest match

A compiled grammar is a trie of token rows: below every inner node comes at most one inner node for
a token, before the leaves that stand for the row itself. Lengths are compared nowhere; that the
longest row wins follows from the order in which a walk takes the nodes.

* `Grammar.CompiledTrie` : the shape of the automaton;
* `Grammar.chain` : the nodes that the tokens from an index on lead to;
* `Grammar.longestFirst` : the rules along a chain whose constraints hold, the longest rows first;
* `exists_inOrder_listed` : the recursion below a node of the trie;
* `exists_rule_of_head` : what the first of these rules stands for;
* `CompiledTrie.of_isTrie` : a check of the shape.
-/

namespace Translit

namespace Grammar

/-- A trie of token rows, where `word` is the row that leads to a node. -/
structure CompiledTrie (g : Grammar) (word : NodeId → List String) : Prop where
  root_inner : ∃ n, g.node? root = some n ∧ n.accepting = false ∧ n.fallback = []
  word_root : word root = []
  children : ∀ id n token, g.Reachable id → g.node? id = some n → n.accepting = false →
    n.children.get? token = none ∨ n.children.get? token = some n.fallback ∨
      ∃ m, n.children.get? token = some (m :: n.fallback) ∧ g.isInner m = true ∧
        word m = word id ++ [token]
  leaves : ∀ id n, g.Reachable id → g.node? id = some n → n.accepting = false →
    ∀ leaf ∈ n.fallback, ∃ a ruleId rule, g.node? leaf = some a ∧ a.accepting = true ∧ a.IsLeaf ∧
      a.rule = some ruleId ∧ g.rule? ruleId = some rule ∧ rule.tokens = word id

/-- The inner node among those that a node lists under a token. -/
def branch? (g : Grammar) (id : NodeId) (token : String) : Option NodeId :=
  ((g.node? id).bind (·.children.get? token)).bind (·.find? g.isInner)

/-- The inner nodes that tokens lead to one after another, as far as they lead. -/
def chain (g : Grammar) (id : NodeId) : List String → List NodeId
  | [] => []
  | token :: tokens =>
    match g.branch? id token with
    | none => []
    | some m => m :: g.chain m tokens

/-- The rules of the leaves of a node that hold before an index, behind `count` tokens. -/
def heldRules (g : Grammar) (tokens : Array String) (id : NodeId) (index count : Nat) :
    List RuleId :=
  (((g.node? id).map (·.fallback)).getD []).filterMap fun leaf =>
    if (g.edge? id leaf).all (·.hold g.hasClass tokens index count) then
      (g.node? leaf).bind (·.rule)
    else none

/-- The rules along a chain whose first node stands behind `count` tokens, up to an index; those of
the last node come first. -/
def longestFirst (g : Grammar) (tokens : Array String) :
    List NodeId → (index count : Nat) → List RuleId
  | [], _, _ => []
  | id :: ids, index, count =>
    g.longestFirst tokens ids (index + 1) (count + 1) ++ g.heldRules tokens id index count

/-! ## Branches and chains -/

namespace CompiledTrie

variable {g : Grammar} {word : NodeId → List String}

theorem not_isInner_leaf (h : g.CompiledTrie word) {id : NodeId} {n : Node}
    (hid : g.Reachable id) (hn : g.node? id = some n) (hacc : n.accepting = false) :
    ∀ leaf ∈ n.fallback, g.isInner leaf = false := by
  intro leaf hleaf
  obtain ⟨a, _, _, ha, haccept, _⟩ := h.leaves id n hid hn hacc leaf hleaf
  rw [isInner_of_node ha, haccept]
  rfl

/-- Under a token a node lists its leaves, behind its branch if it has one. -/
theorem successors_eq (h : g.CompiledTrie word) {id : NodeId} {n : Node} (hid : g.Reachable id)
    (hn : g.node? id = some n) (hacc : n.accepting = false) (token : String) :
    n.successors token = (g.branch? id token).toList ++ n.fallback ∧
      ∀ m, g.branch? id token = some m →
        g.Reachable m ∧ g.isInner m = true ∧ word m = word id ++ [token] := by
  have hleaves : n.fallback.find? g.isInner = none := by
    rw [List.find?_eq_none]
    intro leaf hleaf
    rw [h.not_isInner_leaf hid hn hacc leaf hleaf]
    exact Bool.false_ne_true
  rcases h.children id n token hid hn hacc with hc | hc | ⟨m, hc, hm, hword⟩
  · have hb : g.branch? id token = none := by simp [branch?, hn, hc]
    refine ⟨?_, fun m hm => ?_⟩
    · simp [hb, Node.successors, hc]
    · simp [hb] at hm
  · have hb : g.branch? id token = none := by simp [branch?, hn, hc, hleaves]
    refine ⟨?_, fun m hm => ?_⟩
    · simp [hb, Node.successors, hc]
    · simp [hb] at hm
  · have hb : g.branch? id token = some m := by simp [branch?, hn, hc, hm]
    refine ⟨?_, fun m' hm' => ?_⟩
    · simp [hb, Node.successors, hc]
    · obtain rfl : m = m' := Option.some.inj (hb.symm.trans hm')
      exact ⟨hid.step ⟨n, hn, Or.inr ⟨token, _, hc, by simp⟩⟩, hm, hword⟩

theorem ne_root_of_branch (h : g.CompiledTrie word) {id m : NodeId} {token : String}
    (hword : word m = word id ++ [token]) : m ≠ root := by
  rintro rfl
  rw [h.word_root] at hword
  simp at hword

/-- The nodes of a chain are those that its tokens spell. -/
theorem word_of_chain (h : g.CompiledTrie word) {tokens : List String} {id : NodeId}
    (hid : g.Reachable id) (hinner : g.isInner id = true) {k : Nat} {m : NodeId}
    (hm : (g.chain id tokens)[k]? = some m) :
    g.Reachable m ∧ g.isInner m = true ∧ word m = word id ++ tokens.take (k + 1) := by
  induction tokens generalizing id k with
  | nil => simp [chain] at hm
  | cons token tokens ih =>
    obtain ⟨n, hn, hacc⟩ := isInner_iff.1 hinner
    rw [chain] at hm
    cases hb : g.branch? id token with
    | none => simp [hb] at hm
    | some b =>
      obtain ⟨hreach, hbinner, hword⟩ := (h.successors_eq hid hn hacc token).2 b hb
      simp only [hb] at hm
      cases k with
      | zero =>
        obtain rfl : b = m := by simpa using hm
        exact ⟨hreach, hbinner, by simpa using hword⟩
      | succ k =>
        obtain ⟨h1, h2, h3⟩ := ih hreach hbinner (by simpa using hm)
        refine ⟨h1, h2, ?_⟩
        rw [h3, hword, List.append_assoc, List.take_succ_cons]
        rfl

end CompiledTrie

/-! ## The first of the longest -/

theorem mem_heldRules {g : Grammar} {tokens : Array String} {id : NodeId} {n : Node}
    (hn : g.node? id = some n) {index count : Nat} {ruleId : RuleId}
    (h : ruleId ∈ g.heldRules tokens id index count) :
    ∃ leaf ∈ n.fallback, (g.node? leaf).bind (·.rule) = some ruleId := by
  simp only [heldRules, hn, Option.map_some, Option.getD_some, List.mem_filterMap] at h
  obtain ⟨leaf, hleaf, h⟩ := h
  split at h
  · exact ⟨leaf, hleaf, h⟩
  · cases h

/-- One node further along a chain is one index and one token further. -/
theorem heldRules_succ (g : Grammar) (tokens : Array String) (id : NodeId) (index count k : Nat) :
    g.heldRules tokens id (index + (k + 1)) (count + (k + 1)) =
      g.heldRules tokens id (index + 1 + k) (count + 1 + k) := by
  rw [Nat.add_right_comm index 1 k, Nat.add_right_comm count 1 k]
  rfl

/-- Where no rule is found along a chain, none of its nodes holds one. -/
theorem heldRules_eq_nil {g : Grammar} {tokens : Array String} {ids : List NodeId}
    {index count : Nat} (h : g.longestFirst tokens ids index count = []) {k : Nat} {id : NodeId}
    (hk : ids[k]? = some id) : g.heldRules tokens id (index + k) (count + k) = [] := by
  induction ids generalizing index count k with
  | nil => simp at hk
  | cons id' ids ih =>
    rw [longestFirst, List.append_eq_nil_iff] at h
    cases k with
    | zero =>
      obtain rfl : id' = id := by simpa using hk
      exact h.2
    | succ k =>
      rw [heldRules_succ]
      exact ih h.1 (by simpa using hk)

/-- The first rule is held by some node of the chain, and no node behind that one holds any. -/
theorem head_longestFirst {g : Grammar} {tokens : Array String} {ids : List NodeId}
    {index count : Nat} {ruleId : RuleId}
    (h : (g.longestFirst tokens ids index count).head? = some ruleId) :
    ∃ k id, ids[k]? = some id ∧ ruleId ∈ g.heldRules tokens id (index + k) (count + k) ∧
      ∀ k' id', k < k' → ids[k']? = some id' →
        g.heldRules tokens id' (index + k') (count + k') = [] := by
  induction ids generalizing index count with
  | nil => simp [longestFirst] at h
  | cons id ids ih =>
    rw [longestFirst, List.head?_append] at h
    cases hhead : (g.longestFirst tokens ids (index + 1) (count + 1)).head? with
    | some ruleId' =>
      rw [hhead] at h
      obtain rfl : ruleId' = ruleId := by simpa using h
      obtain ⟨k, id', hk, hmem, hbehind⟩ := ih hhead
      refine ⟨k + 1, id', by simpa using hk, ?_, fun k' id'' hlt hk' => ?_⟩
      · rw [heldRules_succ]
        exact hmem
      · obtain ⟨j, rfl⟩ : ∃ j, k' = j + 1 := ⟨k' - 1, by omega⟩
        rw [heldRules_succ]
        exact hbehind j id'' (by omega) (by simpa using hk')
    | none =>
      rw [hhead] at h
      refine ⟨0, id, rfl, List.mem_of_head? (by simpa using h), fun k' id' hlt hk' => ?_⟩
      obtain ⟨j, rfl⟩ : ∃ j, k' = j + 1 := ⟨k' - 1, by omega⟩
      rw [heldRules_succ]
      exact heldRules_eq_nil (List.head?_eq_none_iff.1 hhead) (by simpa using hk')

end Grammar

namespace Reading

/-- Members that each come to at most one rule. -/
theorem inOrder_toList {α : Type} {read : α → Option Reading} {f : α → Option RuleId}
    {xs : List α} (h : ∀ x ∈ xs, read x = some ⟨(f x).toList, none⟩) :
    inOrder read xs = some ⟨xs.filterMap f, none⟩ := by
  induction xs with
  | nil => rfl
  | cons x xs ih =>
    have hrest := ih fun y hy => h y (List.mem_cons_of_mem x hy)
    refine inOrder_cons_eq_some.2 ⟨_, h x (by simp), Or.inr ⟨rfl, _, hrest, ?_⟩⟩
    cases hx : f x <;> simp [andThen, hx]

end Reading

namespace Walk

open Grammar Reading

variable {w : Walk} {word : NodeId → List String}

/-- A leaf comes to its rule if its edge holds, and to nothing otherwise. -/
theorem visited_leaf {e : Entry} {a : Node} {ruleId : RuleId} {rule : Rule}
    (hi : e.index < w.tokens.size) (ha : w.grammar.node? e.node = some a)
    (haccept : a.accepting = true) (hleaf : a.IsLeaf) (hruleId : a.rule = some ruleId)
    (hrule : w.grammar.rule? ruleId = some rule) :
    w.visited 1 e = some ⟨(if (w.grammar.edge? e.parent e.node).all
        (·.hold w.grammar.hasClass w.tokens e.index rule.tokenCount) then
      (w.grammar.node? e.node).bind (·.rule) else none).toList, none⟩ := by
  rw [visited_of_node hi ha]
  cases hhold : (w.grammar.edge? e.parent e.node).all
      (·.hold w.grammar.hasClass w.tokens e.index rule.tokenCount) with
  | true =>
    have hacc : w.accepted e a = .ok (some ruleId) :=
      accepted_eq_some_iff.2 ⟨haccept, hruleId, rule, hrule, hhold⟩
    simp [hacc, ha, hruleId, Reading.rule]
  | false =>
    have hacc : w.accepted e a = .ok none := by simp [accepted, haccept, hruleId, hrule, hhold]
    simp [hacc, listed, hleaf.successors, inOrder, Reading.empty]

/-- The leaves of a node come to the rules that they hold. -/
theorem inOrder_leaves (h : w.grammar.CompiledTrie word) {id : NodeId} {n : Node}
    (hid : w.grammar.Reachable id) (hn : w.grammar.node? id = some n) (hacc : n.accepting = false)
    {index : Nat} (hi : index < w.tokens.size) :
    inOrder (w.visited 1) (n.fallback.map (⟨·, id, index⟩)) =
      some ⟨w.grammar.heldRules w.tokens id index (word id).length, none⟩ := by
  rw [inOrder_map]
  simp only [heldRules, hn, Option.map_some, Option.getD_some]
  refine inOrder_toList fun leaf hleaf => ?_
  obtain ⟨a, ruleId, rule, ha, haccept, hnone, hruleId, hrule, hword⟩ :=
    h.leaves id n hid hn hacc leaf hleaf
  have hvisit := visited_leaf (w := w) (e := ⟨leaf, id, index⟩) hi ha haccept hnone hruleId hrule
  rw [Rule.tokenCount, hword] at hvisit
  exact hvisit

theorem drop_tokens {index : Nat} (hi : index < w.tokens.size) :
    w.tokens.toList.drop index = w.token index :: w.tokens.toList.drop (index + 1) := by
  have hlen : index < w.tokens.toList.length := by simpa using hi
  rw [List.drop_eq_getElem_cons hlen, token, Array.getElem?_eq_getElem hi]
  rfl

theorem extract_tokens (w : Walk) (index count : Nat) :
    (w.tokens.extract index (index + count)).toList =
      (w.tokens.toList.drop index).take count := by
  rw [Array.toList_extract, List.extract_eq_take_drop, Nat.add_sub_cancel_left]

section Last

variable (hlast : ∀ id, w.grammar.Reachable id → id ≠ root →
  w.grammar.branch? id (w.token (w.tokens.size - 1)) = none)

include hlast

/-- A branch is taken before the last token only. -/
theorem index_lt_of_branch {id m : NodeId} (hid : w.grammar.Reachable id) {index : Nat}
    (hi : index < w.tokens.size) (hroot : id = root → index + 1 < w.tokens.size)
    (hb : w.grammar.branch? id (w.token index) = some m) : index + 1 < w.tokens.size := by
  by_cases hr : id = root
  · exact hroot hr
  · refine Nat.lt_of_not_le fun hge => ?_
    have hend := hlast id hid hr
    rw [show w.tokens.size - 1 = index by omega, hb] at hend
    cases hend

variable (h : w.grammar.CompiledTrie word)

include h

theorem index_lt_of_chain {id : NodeId} (hid : w.grammar.Reachable id)
    (hinner : w.grammar.isInner id = true) {index : Nat} (hi : index < w.tokens.size)
    (hroot : id = root → index + 1 < w.tokens.size) {k : Nat} {m : NodeId} (hm : (w.grammar.chain id (w.tokens.toList.drop index))[k]? = some m) :
    index + k + 1 < w.tokens.size := by
  induction k generalizing id index with
  | zero =>
    rw [drop_tokens hi, chain] at hm
    cases hb : w.grammar.branch? id (w.token index) with
    | none => simp [hb] at hm
    | some b => exact index_lt_of_branch hlast hid hi hroot hb
  | succ k ih =>
    rw [drop_tokens hi, chain] at hm
    cases hb : w.grammar.branch? id (w.token index) with
    | none => simp [hb] at hm
    | some b =>
      obtain ⟨n, hn, hacc⟩ := isInner_iff.1 hinner
      obtain ⟨hreach, hbinner, hword⟩ := (h.successors_eq hid hn hacc _).2 b hb
      have hlt := index_lt_of_branch hlast hid hi hroot hb
      simp only [hb, List.getElem?_cons_succ] at hm
      have hk := ih hreach hbinner hlt (fun hr => absurd hr (h.ne_root_of_branch hword)) hm
      omega

/-- **Below a node of the trie** the recursion comes to the rules along the chain of its branches,
the longest rows first, and then to those of its own leaves. -/
theorem exists_inOrder_listed {id : NodeId} {n : Node} (hid : w.grammar.Reachable id)
    (hn : w.grammar.node? id = some n) (hacc : n.accepting = false) {index : Nat}
    (hi : index < w.tokens.size) (hroot : id = root → index + 1 < w.tokens.size) :
    ∃ depth, inOrder (w.visited depth) (w.listed id n index) =
      some ⟨w.grammar.longestFirst w.tokens
          (w.grammar.chain id (w.tokens.toList.drop index)) (index + 1) ((word id).length + 1) ++
        w.grammar.heldRules w.tokens id index (word id).length, none⟩ := by
  -- the induction is on the tokens left: a branch is taken one index further on
  obtain ⟨room, hroom⟩ : ∃ room, w.tokens.size = index + room := ⟨w.tokens.size - index, by omega⟩
  induction room generalizing id n index with
  | zero => omega
  | succ room ih =>
    obtain ⟨hsucc, hbranch⟩ := h.successors_eq hid hn hacc (w.token index)
    rw [drop_tokens hi, chain, listed, hsucc, List.map_append]
    cases hb : w.grammar.branch? id (w.token index) with
    | none => exact ⟨1, inOrder_leaves h hid hn hacc hi⟩
    | some m =>
      obtain ⟨hm, hinner, hword⟩ := hbranch m hb
      obtain ⟨nm, hnm, haccm⟩ := isInner_iff.1 hinner
      have hlt := index_lt_of_branch hlast hid hi hroot hb
      obtain ⟨depth, hdepth⟩ := ih hm hnm haccm hlt
        (fun hmroot => absurd hmroot (h.ne_root_of_branch hword)) (by omega)
      have hvisit : w.visited (depth + 1) ⟨m, id, index⟩ =
          inOrder (w.visited depth) (w.listed m nm (index + 1)) := by
        have hnext : w.nextIndex index = index + 1 := by
          rw [nextIndex_eq_min hi]
          omega
        rw [visited_of_node hi hnm, accepted_of_not_accepting haccm]
        dsimp only
        rw [hnext]
      have hleaves : inOrder (w.visited (depth + 1)) (n.fallback.map (⟨·, id, index⟩)) =
          some ⟨w.grammar.heldRules w.tokens id index (word id).length, none⟩ := by
        refine inOrder_mono (fun e he a hea => ?_) (inOrder_leaves h hid hn hacc hi)
        obtain ⟨_, _, rfl⟩ := List.mem_map.1 he
        exact visited_of_le hi hea (Nat.le_add_left 1 depth)
      refine ⟨depth + 1, ?_⟩
      refine inOrder_cons_eq_some.2 ⟨_, hvisit.trans hdepth, Or.inr ⟨rfl, _, hleaves, ?_⟩⟩
      simp only [longestFirst, andThen, hword, List.length_append, List.length_singleton]

/-- From the root the recursion comes to the rules along the chain of its branches. -/
theorem reading_trie {index : Nat} (hi : index + 1 < w.tokens.size) :
    ∃ depth, w.grammar.reading w.tokens depth index =
      some ⟨w.grammar.longestFirst w.tokens
        (w.grammar.chain root (w.tokens.toList.drop index)) (index + 1) 1, none⟩ := by
  obtain ⟨n, hn, hacc, hfallback⟩ := h.root_inner
  obtain ⟨depth, hdepth⟩ :=
    exists_inOrder_listed hlast h .root hn hacc (Nat.lt_of_succ_lt hi) (fun _ => hi)
  refine ⟨depth, ?_⟩
  rw [reading_of_node hn, hdepth, h.word_root]
  simp [heldRules, hn, hfallback]

/-- The nodes of a chain from the root stand for tokens of the list, behind which one is left. -/
theorem word_of_chain_root {index : Nat} (hi : index + 1 < w.tokens.size) {k : Nat} {id : NodeId}
    (hk : (w.grammar.chain root (w.tokens.toList.drop index))[k]? = some id) :
    w.grammar.Reachable id ∧ w.grammar.isInner id = true ∧ index + (k + 1) < w.tokens.size ∧
      word id = (w.tokens.extract index (index + (k + 1))).toList := by
  obtain ⟨n, hn, hacc, -⟩ := h.root_inner
  have hinner : w.grammar.isInner root = true := isInner_iff.2 ⟨n, hn, hacc⟩
  obtain ⟨hreach, hid, hword⟩ := h.word_of_chain .root hinner hk
  have hlt := index_lt_of_chain hlast h .root hinner (Nat.lt_of_succ_lt hi) (fun _ => hi) hk
  refine ⟨hreach, hid, hlt, ?_⟩
  rw [hword, h.word_root, extract_tokens, List.nil_append]

/-- The first rule along a chain stands for the tokens from the index on, and no node of the chain
behind the one that holds it holds any. -/
theorem exists_rule_of_head {index : Nat} (hi : index + 1 < w.tokens.size) {ruleId : RuleId}
    (hhead : (w.grammar.longestFirst w.tokens
      (w.grammar.chain root (w.tokens.toList.drop index)) (index + 1) 1).head? = some ruleId) :
    ∃ rule, w.grammar.rule? ruleId = some rule ∧
      rule.tokens = (w.tokens.extract index (index + rule.tokenCount)).toList ∧
      ∀ k id, rule.tokenCount ≤ k →
        (w.grammar.chain root (w.tokens.toList.drop index))[k]? = some id →
          w.grammar.heldRules w.tokens id (index + (k + 1)) (k + 1) = [] := by
  obtain ⟨k, id, hk, hmem, hbehind⟩ := head_longestFirst hhead
  obtain ⟨hreach, hid, hlt, hword⟩ := word_of_chain_root hlast h hi hk
  obtain ⟨n, hn, hacc⟩ := isInner_iff.1 hid
  obtain ⟨leaf, hleaf, hbind⟩ := mem_heldRules hn hmem
  obtain ⟨a, ruleId', rule, ha, -, -, hruleId, hrule, htokens⟩ :=
    h.leaves id n hreach hn hacc leaf hleaf
  obtain rfl : ruleId' = ruleId := by simpa [ha, hruleId] using hbind
  have hcount : rule.tokenCount = k + 1 := by
    have hlen := congrArg List.length (htokens.trans hword)
    rw [extract_tokens, List.length_take, List.length_drop, Array.length_toList] at hlen
    rw [Rule.tokenCount]
    omega
  refine ⟨rule, hrule, ?_, ?_⟩
  · rw [hcount, htokens, hword]
  · intro k' id' hle hk'
    have hnil := hbehind k' id' (by omega) hk'
    have hindex : index + 1 + k' = index + (k' + 1) := by omega
    rwa [hindex, Nat.add_comm 1 k'] at hnil

end Last

end Walk

namespace Grammar

/-- A node has at most one inner node under a token, before its leaves, and these stand for its
row. -/
def branchesRow (g : Grammar) (word : NodeId → List String) (id : NodeId) (n : Node) : Bool :=
  (n.children.entries.all fun c => c.2 == n.fallback || c.2.head?.any fun m =>
      c.2 == m :: n.fallback && g.isInner m && word m == word id ++ [c.1]) &&
    n.fallback.all fun leaf => (g.node? leaf).any fun a => a.accepting && a.isLeaf &&
      (a.rule.bind g.rule?).any (·.tokens == word id)

/-- A check that a grammar is a trie of its words. -/
def isTrie (g : Grammar) (word : NodeId → List String) : Bool :=
  (g.node? root).any (fun n => !n.accepting && n.fallback.isEmpty) && (word root).isEmpty &&
    g.nodes.entries.all fun e => e.2.accepting || g.branchesRow word e.1 e.2

/-- The entries of a grammar tell whether it is a trie. -/
theorem CompiledTrie.of_isTrie {g : Grammar} {word : NodeId → List String}
    (h : g.isTrie word = true) : g.CompiledTrie word := by
  simp only [isTrie, Bool.and_eq_true, Option.any_eq_true, List.isEmpty_iff, List.all_eq_true] at h
  obtain ⟨⟨⟨n, hn, hinner, hfallback⟩, hword⟩, hentries⟩ := h
  have hrows : ∀ {id n}, g.node? id = some n → n.accepting = false →
      g.branchesRow word id n = true := by
    intro id n hn hacc
    simpa [hacc] using hentries _ (Table.mem_of_get? hn)
  refine ⟨⟨n, hn, by simpa using hinner, hfallback⟩, hword, ?_, ?_⟩
  · intro id n token _ hn hacc
    have hchildren := List.all_eq_true.1 (Bool.and_eq_true_iff.1 (hrows hn hacc)).1
    cases hids : n.children.get? token with
    | none => exact Or.inl rfl
    | some ids =>
      have hc := hchildren _ (Table.mem_of_get? hids)
      simp only [Bool.or_eq_true, beq_iff_eq, Option.any_eq_true, Bool.and_eq_true] at hc
      rcases hc with hc | ⟨m, -, ⟨hc, hm⟩, hrow⟩
      · exact Or.inr (Or.inl (congrArg some hc))
      · exact Or.inr (Or.inr ⟨m, congrArg some hc, hm, hrow⟩)
  · intro id n _ hn hacc leaf hleaf
    have hleaves := List.all_eq_true.1 (Bool.and_eq_true_iff.1 (hrows hn hacc)).2 leaf hleaf
    simp only [Option.any_eq_true, Bool.and_eq_true, beq_iff_eq] at hleaves
    obtain ⟨a, ha, ⟨haccept, hnone⟩, rule, hbind, htokens⟩ := hleaves
    obtain ⟨ruleId, hruleId, hrule⟩ := Option.bind_eq_some_iff.1 hbind
    exact ⟨a, ruleId, rule, ha, haccept, Node.isLeaf_sound hnone, hruleId, hrule, htokens⟩

theorem branch?_eq_none_of_entries {g : Grammar} {token : String}
    (h : (g.nodes.entries.all fun e =>
      ((e.2.children.get? token).bind (·.find? g.isInner)).isNone) = true)
    (id : NodeId) : g.branch? id token = none := by
  rw [branch?]
  cases hn : g.node? id with
  | none => rfl
  | some n => exact Option.isNone_iff_eq_none.1 (List.all_eq_true.1 h _ (Table.mem_of_get? hn))

/-- The rows `a`, `a b` and, before `z`, `a b c`. -/
def rowGrammar : Grammar :=
  .ofAutomaton
    [(0, .inner [("a", [1])] []), (1, .inner [("b", [2, 5])] [5]), (2, .inner [("c", [3, 6])] [6]),
      (3, .inner [] [7]), (5, .leaf 0), (6, .leaf 1), (7, .leaf 2)]
    [(3, [(7, ⟨none, some ["z"], none, none⟩)])] [["a"], ["a", "b"], ["a", "b", "c"]]

/-- The rows that lead to the inner nodes of `rowGrammar`. -/
def rowOf (id : NodeId) : List String := ["a", "b", "c"].take id.toNat

theorem compiledTrie_rowGrammar : rowGrammar.CompiledTrie rowOf :=
  .of_isTrie (by decide)

end Grammar

namespace Walk

open Grammar

variable {w : Walk} {word : NodeId → List String}

/-- **The longest row wins.** Where only the root branches under the last token, a walk finds the
rules along the chain of an index from the longest row to the shortest, each once. The rule that
matches stands for the tokens from the index on, and no longer row of the chain has a rule that
holds. -/
theorem matchAll_longestFirst (hcap : w.cap = 0) (h : w.grammar.CompiledTrie word) {index : Nat}
    (hi : index + 1 < w.tokens.size)
    (hlast : ∀ id, w.grammar.Reachable id → id ≠ root →
      w.grammar.branch? id (w.token (w.tokens.size - 1)) = none) :
    let nodes := w.grammar.chain root (w.tokens.toList.drop index)
    let ids := w.grammar.longestFirst w.tokens nodes (index + 1) 1
    (∃ n, ∀ steps, n ≤ steps →
      Walk.matchAll { w with steps := steps } index = some (.ok ids.eraseDups) ∧
      Walk.matchAt { w with steps := steps } index = some (match ids.head? with
        | some id => .ok id
        | none => .error (.noMatch index (w.token index)))) ∧
    (∀ k id, nodes[k]? = some id → index + (k + 1) < w.tokens.size ∧
      word id = (w.tokens.extract index (index + (k + 1))).toList) ∧
    ∀ ruleId, ids.head? = some ruleId →
      ∃ rule, w.grammar.rule? ruleId = some rule ∧
        rule.tokens = (w.tokens.extract index (index + rule.tokenCount)).toList ∧
        ∀ k id, rule.tokenCount ≤ k → nodes[k]? = some id →
          w.grammar.heldRules w.tokens id (index + (k + 1)) (k + 1) = [] := by
  intro nodes ids
  refine ⟨?_, ?_, ?_⟩
  · have hsize : index < w.tokens.size := Nat.lt_of_succ_lt hi
    obtain ⟨depth, hread⟩ := reading_trie hlast h hi
    obtain ⟨n, hn⟩ := gives_of_reading hcap hsize hread .all
    obtain ⟨m, hm⟩ := (gives_of_reading hcap hsize hread .first).matchAt
    refine ⟨max n m, fun steps hle => ⟨hn steps (by omega), ?_⟩⟩
    rw [hm steps (by omega)]
    show some (w.firstRule index ((⟨ids, none⟩ : Reading).result .first)) = _
    cases ids <;> rfl
  · intro k id hk
    obtain ⟨-, -, hlt, hword⟩ := word_of_chain_root hlast h hi hk
    exact ⟨hlt, hword⟩
  · intro ruleId hhead
    exact exists_rule_of_head hlast h hi hhead

/-- Before the end `a b c` fails, and the two shorter rows are found. -/
theorem matchAll_longestFirst_rowGrammar :
    let w : Walk := ⟨rowGrammar, #[" ", "a", "b", "c", " "], 0, 0⟩
    w.cap = 0 ∧ rowGrammar.CompiledTrie rowOf ∧ 1 + 1 < w.tokens.size ∧
      (∀ id, rowGrammar.Reachable id → id ≠ root →
        rowGrammar.branch? id (w.token (w.tokens.size - 1)) = none) ∧
      ∃ n, ∀ steps, n ≤ steps →
        Walk.matchAll { w with steps := steps } 1 = some (.ok [1, 0]) ∧
        Walk.matchAt { w with steps := steps } 1 = some (.ok 1) := by
  intro w
  have hi : 1 + 1 < w.tokens.size := by decide
  have hlast : ∀ id, rowGrammar.Reachable id → id ≠ root →
      rowGrammar.branch? id (w.token (w.tokens.size - 1)) = none :=
    fun id _ _ => branch?_eq_none_of_entries (by decide) id
  have hids : rowGrammar.longestFirst w.tokens
      (rowGrammar.chain root (w.tokens.toList.drop 1)) (1 + 1) 1 = [1, 0] := by decide
  have h := (matchAll_longestFirst (w := w) rfl compiledTrie_rowGrammar hi hlast).1
  rw [hids] at h
  exact ⟨rfl, compiledTrie_rowGrammar, hi, hlast, h⟩

end Walk

end Translit
