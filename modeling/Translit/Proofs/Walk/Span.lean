import Translit.Proofs.Grammar.Automaton
import Translit.Proofs.Walk.Steps

/-!
# Where a match lies

A walk that is at the last token and moves on meets that token again. So the tokens that it meets
are those of the list up to its end, and then the last one without end; a rule may match tokens
that are not there, and one that ends with the list is judged one token early.

* `Walk.ahead` : the tokens that a walk meets from an index on;
* `Grammar.FitsAt` : a rule stands for tokens of the list, and an edge to it holds around them;
* `met_of_listed` : what a walk has met when it comes to an entry;
* `exists_ahead_of_matchAt` : the rule that matches stands for the tokens ahead;
* `fitsAt_iff_of_ahead` : when these are tokens of the list, and the edge was judged where they end;
* `lt_of_matchAt_of_rows`, `lt_of_matchAt_of_stopsUnder` : where the rule that matches ends before
  the last token: if no longer row ends with that token, or if no path goes on under it.
-/

namespace Translit

namespace Grammar

/-- An edge to the end of a rule holds around the `count` tokens before an index. -/
def HeldEdge (g : Grammar) (tokens : Array String) (ruleId : RuleId) (index count : Nat) : Prop :=
  ∃ parent leaf n, g.Lists parent leaf ∧ g.node? leaf = some n ∧ n.accepting = true ∧
    n.rule = some ruleId ∧ (g.edge? parent leaf).all (·.hold g.hasClass tokens index count) = true

/-- The tokens from an index on are those of a rule, and an edge to it holds around them. -/
structure FitsAt (g : Grammar) (tokens : Array String) (ruleId : RuleId) (rule : Rule)
    (index : Nat) : Prop where
  inside : index + rule.tokenCount ≤ tokens.size
  tokens_eq : (tokens.extract index (index + rule.tokenCount)).toList = rule.tokens
  held : g.HeldEdge tokens ruleId (index + rule.tokenCount) rule.tokenCount

/-- No path from the root goes on to an inner node under a token, but from the root itself. -/
def StopsUnder (g : Grammar) (token : String) : Prop :=
  ∀ path id n child, g.Leads path id → g.node? id = some n → child ∈ n.successors token →
    child ≠ root → g.isInner child = false

theorem stopsUnder_of_entries {g : Grammar} {token : String}
    (h : (g.nodes.entries.all fun e => (e.2.successors token).all (!g.isInner ·)) = true) :
    g.StopsUnder token := by
  intro path id n child _ hn hchild _
  have hentry := List.all_eq_true.1 (List.all_eq_true.1 h _ (Table.mem_of_get? hn)) child hchild
  simpa using hentry

/-- The rows `a`, a blank, and `a` with two blanks; the pattern finds `a`. -/
def blankTail : Grammar :=
  { ofAutomaton
      [(0, .inner [("a", [1]), (" ", [5])] []), (1, .inner [(" ", [2, 4])] [4]),
        (2, .inner [(" ", [3])] []), (3, .inner [] [6]), (4, .leaf 0), (5, .inner [] [7]),
        (6, .leaf 2), (7, .leaf 1)]
      [] [["a"], [" "], ["a", " ", " "]] with
    pattern := ⟨"a", 0, #[.take (.single 'a'), .accept]⟩ }

/-- The rows that lead to the inner nodes of `blankTail`. -/
def blankTailWord (id : NodeId) : List String :=
  if id = 5 then [" "] else ["a", " ", " "].take id.toNat

theorem spelled_blankTail : blankTail.Spelled blankTailWord :=
  .of_isSpelled (by decide)

theorem tokenCount_blankTail {rule : Rule} (h : blankTail.rule? 2 = some rule) :
    rule.tokenCount = 3 := by
  have hcount : (blankTail.rule? 2).map (·.tokenCount) = some 3 := by decide
  rw [h] at hcount
  exact Option.some.inj hcount

end Grammar

namespace Walk

open Grammar

/-! ## The tokens ahead -/

/-- So many tokens from an index on, as a walk meets them. -/
def ahead (w : Walk) (index count : Nat) : List String :=
  (List.range count).map fun k => w.token (min (index + k) (w.tokens.size - 1))

theorem length_ahead (w : Walk) (index count : Nat) : (w.ahead index count).length = count := by
  rw [ahead, List.length_map, List.length_range]

theorem ahead_succ (w : Walk) (index count : Nat) :
    w.ahead index (count + 1) =
      w.ahead index count ++ [w.token (min (index + count) (w.tokens.size - 1))] := by
  rw [ahead, List.range_succ, List.map_append]
  rfl

/-- Up to the end of the list the tokens ahead are those of the list. -/
theorem ahead_eq_extract {w : Walk} {index count : Nat} (h : index + count ≤ w.tokens.size) :
    w.ahead index count = (w.tokens.extract index (index + count)).toList := by
  apply List.ext_getElem
  · rw [length_ahead, Array.length_toList, Array.size_extract]
    omega
  · intro k hk hk'
    rw [length_ahead] at hk
    have hmin : min (index + k) (w.tokens.size - 1) = index + k := by omega
    have hlt : index + k < w.tokens.size := by omega
    simp [ahead, token, hmin, hlt]

/-! ## Spelled automata -/

/-- What a walk from `start` has met when it comes to an entry: the tokens ahead spell the node that
listed it, and with the next one they spell its own if no rule ends there. -/
def Met (w : Walk) (start : Nat) (e : Entry) : Prop :=
  w.grammar.Lists e.parent e.node ∧ ∃ k, e.index = min (start + k) (w.tokens.size - 1) ∧
    w.grammar.Spells (w.ahead start k) e.parent ∧
    (w.grammar.isInner e.node = true → w.grammar.Spells (w.ahead start (k + 1)) e.node)

variable {w : Walk} {word : NodeId → List String}

section Spelled

variable (h : w.grammar.Spelled word)

include h

/-- A node that the tokens ahead spell has entries listed that have met them. -/
theorem met_of_listed {start k : Nat} {id : NodeId} {n : Node}
    (hn : w.grammar.node? id = some n) (hspell : w.grammar.Spells (w.ahead start k) id)
    {c : Entry} (hc : c ∈ w.listed id n (min (start + k) (w.tokens.size - 1))) :
    w.Met start c := by
  obtain ⟨hmem, hparent, hindex⟩ := mem_listed hc
  rw [Met, hparent]
  refine ⟨lists_of_mem_successors hn hmem, k, hindex, hspell, fun hinner => ?_⟩
  have hkeyed := (h.keyed id n c.node hn hinner).1
  rcases Node.mem_successors_iff.1 hmem with ⟨ids, hids, hchild⟩ | ⟨-, hchild⟩
  · rw [ahead_succ]
    exact hspell.step hn hids hchild hinner
  · exact absurd hchild hkeyed

theorem Met.of_listed {start : Nat} {e : Entry} {n : Node} (he : w.Met start e)
    (hsize : start < w.tokens.size) (hn : w.grammar.node? e.node = some n)
    {c : Entry} (hc : c ∈ w.listed e.node n (w.nextIndex e.index)) : w.Met start c := by
  obtain ⟨-, k, hindex, -, hspell⟩ := he
  cases hacc : n.accepting with
  | true =>
    have hnone := (mem_listed hc).1
    rw [(h.leaf e.node n hn hacc).successors] at hnone
    cases hnone
  | false =>
    have hnext : w.nextIndex e.index = min (start + (k + 1)) (w.tokens.size - 1) := by
      rw [nextIndex_eq_min (by omega), hindex]
      omega
    rw [hnext] at hc
    exact met_of_listed h hn (hspell (isInner_iff.2 ⟨n, hn, hacc⟩)) hc

/-- The rule that matches stands for the tokens ahead; the edge to it was judged at the index behind
them, or at the last one if that comes first. -/
theorem exists_ahead_of_matchAt {start : Nat} {ruleId : RuleId} (hsize : start < w.tokens.size)
    (hmatch : w.matchAt start = some (.ok ruleId)) :
    ∃ rule, w.grammar.rule? ruleId = some rule ∧ rule.tokens = w.ahead start rule.tokenCount ∧
      w.grammar.HeldEdge w.tokens ruleId (min (start + rule.tokenCount) (w.tokens.size - 1))
        rule.tokenCount := by
  have hgiven : w.GivenBy (w.Met start) ruleId := by
    refine givenBy_of_matchAt (fun n hn c hc => ?_) (fun e n he hn _ c hc => ?_) hmatch
    · have hstart : min (start + 0) (w.tokens.size - 1) = start := by omega
      rw [← hstart] at hc
      exact met_of_listed h hn .root hc
    · exact he.of_listed h hsize hn hc
  obtain ⟨e, n, ⟨hlists, k, hindex, hspell, -⟩, hn, haccepted⟩ := hgiven
  obtain ⟨hacc, hruleId, rule, hrule, hheld⟩ := accepted_eq_some_iff.1 haccepted
  obtain ⟨ruleId', rule', hruleId', hrule', howner⟩ := h.owner e.node n hn hacc
  obtain rfl : ruleId' = ruleId := Option.some.inj (hruleId'.symm.trans hruleId)
  obtain rfl : rule' = rule := Option.some.inj (hrule'.symm.trans hrule)
  have htokens : rule'.tokens = w.ahead start k := by
    rw [(howner e.parent hlists).2, h.word_eq _ _ hspell]
  obtain rfl : k = rule'.tokenCount := by rw [Rule.tokenCount, htokens, length_ahead]
  rw [hindex] at hheld
  exact ⟨rule', hrule, htokens, e.parent, e.node, n, hlists, hn, hacc, hruleId, hheld⟩

/-- Where no row of two tokens or more ends with the last token, the rule that matches ends before
it. -/
theorem lt_of_matchAt_of_rows
    (hrows : ∀ ruleId rule, w.grammar.rule? ruleId = some rule → 2 ≤ rule.tokenCount →
      rule.tokens.getLast? ≠ some (w.token (w.tokens.size - 1)))
    {start : Nat} {ruleId : RuleId} (hsize : start + 1 < w.tokens.size)
    (hmatch : w.matchAt start = some (.ok ruleId)) {rule : Rule}
    (hrule : w.grammar.rule? ruleId = some rule) : start + rule.tokenCount < w.tokens.size := by
  obtain ⟨rule', hrule', htokens, -⟩ := exists_ahead_of_matchAt h (Nat.lt_of_succ_lt hsize) hmatch
  obtain rfl : rule' = rule := Option.some.inj (hrule'.symm.trans hrule)
  refine Nat.lt_of_not_le fun hge => ?_
  obtain ⟨k, hk⟩ : ∃ k, rule'.tokenCount = k + 1 := ⟨rule'.tokenCount - 1, by omega⟩
  apply hrows ruleId rule' hrule (by omega)
  have hlast : min (start + k) (w.tokens.size - 1) = w.tokens.size - 1 := by omega
  rw [htokens, hk, ahead_succ, hlast, List.getLast?_concat]

end Spelled

/-- A rule that stands for the tokens ahead fits if they end before the last index, or if they end
with the list and an edge to the rule holds there. -/
theorem fitsAt_iff_of_ahead {start : Nat} {ruleId : RuleId} {rule : Rule}
    (htokens : rule.tokens = w.ahead start rule.tokenCount)
    (hheld : w.grammar.HeldEdge w.tokens ruleId
      (min (start + rule.tokenCount) (w.tokens.size - 1)) rule.tokenCount) :
    w.grammar.FitsAt w.tokens ruleId rule start ↔
      start + rule.tokenCount < w.tokens.size ∨
        (start + rule.tokenCount = w.tokens.size ∧
          w.grammar.HeldEdge w.tokens ruleId w.tokens.size rule.tokenCount) := by
  constructor
  · intro hfits
    rcases Nat.lt_or_eq_of_le hfits.inside with hlt | heq
    · exact Or.inl hlt
    · have hend := hfits.held
      rw [heq] at hend
      exact Or.inr ⟨heq, hend⟩
  · intro hends
    have hle : start + rule.tokenCount ≤ w.tokens.size := by omega
    refine ⟨hle, ?_, ?_⟩
    · rw [← ahead_eq_extract hle, ← htokens]
    · rcases hends with hlt | ⟨heq, hend⟩
      · have hmin : min (start + rule.tokenCount) (w.tokens.size - 1) = start + rule.tokenCount := by
          omega
        rwa [hmin] at hheld
      · rw [heq]
        exact hend

/-- **Where the rule that matches lies.** It stands for the tokens ahead, and the edge to it was
judged at the last index at most. It fits the list exactly if its tokens end before the last index,
or if they end with the list and an edge to it holds there too. -/
theorem matchAt_fitsAt_iff (h : w.grammar.Spelled word) {start : Nat} {ruleId : RuleId}
    (hsize : start < w.tokens.size) (hmatch : w.matchAt start = some (.ok ruleId)) :
    ∃ rule, w.grammar.rule? ruleId = some rule ∧ rule.tokens = w.ahead start rule.tokenCount ∧
      w.grammar.HeldEdge w.tokens ruleId (min (start + rule.tokenCount) (w.tokens.size - 1))
        rule.tokenCount ∧
      (w.grammar.FitsAt w.tokens ruleId rule start ↔
        start + rule.tokenCount < w.tokens.size ∨
          (start + rule.tokenCount = w.tokens.size ∧
            w.grammar.HeldEdge w.tokens ruleId w.tokens.size rule.tokenCount)) := by
  obtain ⟨rule, hrule, htokens, hheld⟩ := exists_ahead_of_matchAt h hsize hmatch
  exact ⟨rule, hrule, htokens, hheld, fitsAt_iff_of_ahead htokens hheld⟩

/-- A walk of `blankTail`. -/
def blankWalk (tokens : Array String) : Walk := ⟨blankTail, tokens, 0, 16⟩

/-- Where two blanks follow, the row with two blanks fits. -/
theorem matchAt_fitsAt_iff_blankWalk :
    blankTail.Spelled blankTailWord ∧ 1 < (blankWalk #[" ", "a", " ", " ", " "]).tokens.size ∧
      (blankWalk #[" ", "a", " ", " ", " "]).matchAt 1 = some (.ok 2) ∧
      ∃ rule, blankTail.rule? 2 = some rule ∧
        blankTail.FitsAt #[" ", "a", " ", " ", " "] 2 rule 1 := by
  have hsize : 1 < (blankWalk #[" ", "a", " ", " ", " "]).tokens.size := by decide
  have hmatch : (blankWalk #[" ", "a", " ", " ", " "]).matchAt 1 = some (.ok 2) := rfl
  obtain ⟨rule, hrule, -, -, hiff⟩ := matchAt_fitsAt_iff spelled_blankTail hsize hmatch
  have hlt : 1 + rule.tokenCount < (blankWalk #[" ", "a", " ", " ", " "]).tokens.size := by
    rw [tokenCount_blankTail hrule]
    decide
  exact ⟨spelled_blankTail, hsize, hmatch, rule, hrule, hiff.2 (Or.inl hlt)⟩

/-- Where one blank is left, the row with two blanks matches and does not fit. -/
theorem exists_match_not_fitsAt :
    blankTail.Spelled blankTailWord ∧ 1 < (blankWalk #[" ", "a", " "]).tokens.size ∧
      (blankWalk #[" ", "a", " "]).matchAt 1 = some (.ok 2) ∧
      ∀ rule, blankTail.rule? 2 = some rule → ¬ blankTail.FitsAt #[" ", "a", " "] 2 rule 1 := by
  refine ⟨spelled_blankTail, by decide, rfl, fun rule hrule hfits => ?_⟩
  have hinside : 1 + rule.tokenCount ≤ 3 := hfits.inside
  rw [tokenCount_blankTail hrule] at hinside
  omega

/-! ## Paced automata -/

/-- How far a walk from `start` is at an entry: as many tokens on as the path has inner nodes, and
not at the last one if the node is inner. -/
def Advanced (w : Walk) (start : Nat) (e : Entry) : Prop :=
  ∃ path, w.grammar.Leads path e.node ∧ start + w.grammar.innerCount path ≤ e.index ∧
    e.index < w.tokens.size ∧
    (e.index + 1 = w.tokens.size → ¬ (e.node ≠ root ∧ w.grammar.isInner e.node = true))

theorem advanced_of_root {start : Nat} {n : Node} (hn : w.grammar.node? root = some n)
    (hsize : start + 1 < w.tokens.size) {c : Entry} (hc : c ∈ w.listed root n start) :
    w.Advanced start c := by
  obtain ⟨hmem, -, hindex⟩ := mem_listed hc
  refine ⟨[], .root (lists_of_mem_successors hn hmem), ?_, ?_, ?_⟩
  · rw [hindex]
    exact Nat.le_refl start
  · omega
  · omega

/-- A node that is not at the last token goes one further; one that is has not counted. -/
theorem Advanced.of_listed {start : Nat} {e : Entry} {n : Node} (he : w.Advanced start e)
    (hstops : w.grammar.StopsUnder (w.token (w.tokens.size - 1)))
    (hn : w.grammar.node? e.node = some n) {c : Entry}
    (hc : c ∈ w.listed e.node n (w.nextIndex e.index)) : w.Advanced start c := by
  obtain ⟨path, hpath, hle, hsize, hlast⟩ := he
  obtain ⟨hmem, -, hindex⟩ := mem_listed hc
  rw [nextIndex_eq_min hsize] at hmem hindex
  refine ⟨path ++ [e.node], hpath.step (lists_of_mem_successors hn hmem), ?_, by omega, ?_⟩
  · rw [innerCount_concat]
    split
    · next hinner =>
      -- an inner node is not at the last token, so the index moves on with the count
      have hne : e.index + 1 ≠ w.tokens.size := fun hend => hlast hend hinner
      omega
    · omega
  · rintro hend ⟨hne, hinner⟩
    have hlastIndex : min (e.index + 1) (w.tokens.size - 1) = w.tokens.size - 1 := by omega
    rw [hlastIndex] at hmem
    rw [hstops path e.node n c.node hpath hn hmem hne] at hinner
    cases hinner

/-- Where no path goes on under the last token, the rule that matches ends before it. -/
theorem lt_of_matchAt_of_stopsUnder (hpaced : w.grammar.Paced)
    (hstops : w.grammar.StopsUnder (w.token (w.tokens.size - 1))) {start : Nat} {ruleId : RuleId}
    (hsize : start + 1 < w.tokens.size) (hmatch : w.matchAt start = some (.ok ruleId))
    {rule : Rule} (hrule : w.grammar.rule? ruleId = some rule) :
    start + rule.tokenCount < w.tokens.size := by
  have hgiven : w.GivenBy (w.Advanced start) ruleId := by
    refine givenBy_of_matchAt (fun n hn c hc => ?_) (fun e n he hn _ c hc => ?_) hmatch
    · exact advanced_of_root hn hsize hc
    · exact he.of_listed hstops hn hc
  obtain ⟨e, n, ⟨path, hpath, hle, hlt, -⟩, hn, haccepted⟩ := hgiven
  obtain ⟨hacc, hruleId, -⟩ := accepted_eq_some_iff.1 haccepted
  have hcount := (hpaced path e.node n ruleId rule hpath hn hacc hruleId hrule).1
  omega

end Walk

end Translit
