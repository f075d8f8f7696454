import Translit.Grammar.Load
import Translit.Proofs.Grammar.Closed

/-!
# The skeleton of a grammar

What a parse does with its tokens hangs on the automaton, its constraints, the classes of tokens and
how many tokens the rules consume. What the rules write and cost, which tokens and what context they
were made from, and the onmatch rules are left out of the skeleton.

* `Grammar.SameSkeleton`, `Grammar.SameTexts` : two grammars that differ in no more than what is
  left out, and two that write the same texts too;
* `Document.SameSkeleton`, `Document.SameTexts` : the same for documents;
* `loadWith_eq_ok` : what a document that loads is made of;
  `sameSkeleton_of_load` : documents of one skeleton load to grammars of one skeleton.
-/

namespace Translit

/-- The grammars differ in no more than what their rules write, cost and were made from, and in
their onmatch rules. -/
structure Grammar.SameSkeleton (g g' : Grammar) : Prop where
  nodes : g.nodes = g'.nodes
  edges : g.edges = g'.edges
  pattern : g.pattern = g'.pattern
  classes : g.classes = g'.classes
  whitespace : g.whitespace = g'.whitespace
  tokenCount : ∀ id, (g.rule? id).map Rule.tokenCount = (g'.rule? id).map Rule.tokenCount

/-- The grammars write the same texts: those of their rules and those between two tokens. -/
structure Grammar.SameTexts (g g' : Grammar) : Prop where
  production : ∀ id, (g.rule? id).map (·.production) = (g'.rule? id).map (·.production)
  onmatchRules : g.onmatchRules = g'.onmatchRules
  onmatchLookup : g.onmatchLookup = g'.onmatchLookup

namespace Document

/-- The documents differ in no more than, rule by rule, the production, the cost, the context and
the texts of as many tokens, and in their onmatch rules and the table of these. -/
structure SameSkeleton (d d' : Document) : Prop where
  graph : d.graph = d'.graph
  pattern : d.pattern = d'.pattern
  classes : d.classes = d'.classes
  whitespace : d.whitespace = d'.whitespace
  tokenCounts : d.rules.map Rule.tokenCount = d'.rules.map Rule.tokenCount

/-- The documents have the same productions and the same onmatch rules. -/
structure SameTexts (d d' : Document) : Prop where
  productions : d.rules.map (·.production) = d'.rules.map (·.production)
  onmatchRules : d.onmatchRules = d'.onmatchRules
  onmatchLookup : d.onmatchLookup = d'.onmatchLookup

/-- Each onmatch rule that the look-up table names is one of the document's. -/
def Resolved (d : Document) : Prop :=
  ∀ current ∈ d.onmatchLookup.entries, ∀ previous ∈ current.2.entries, ∀ id ∈ previous.2,
    id.toNat < d.onmatchRules.length

end Document

namespace Grammar

variable {compile : String → Option Pattern} {d d' : Document} {g g' : Grammar}

/-- A document that loads has a pattern that compiles and keys that are numbers. -/
theorem loadWith_eq_ok (h : loadWith compile d = .ok g) :
    ∃ pattern nodes edges, compile d.pattern = some pattern ∧
      loadNodes d.graph.nodes = .ok nodes ∧ loadEdges d.graph.edges = .ok edges ∧
      g = ⟨nodes, edges, d.rules.toArray, d.onmatchRules.toArray, d.onmatchLookup, pattern,
        d.classes.mapValues classSet, d.whitespace⟩ := by
  unfold loadWith at h
  cases hpattern : compile d.pattern with
  | none =>
    rw [hpattern] at h
    cases h
  | some pattern =>
    rw [hpattern] at h
    cases hnodes : loadNodes d.graph.nodes with
    | error err =>
      rw [hnodes] at h
      cases h
    | ok nodes =>
      rw [hnodes] at h
      cases hedges : loadEdges d.graph.edges with
      | error err =>
        rw [hedges] at h
        cases h
      | ok edges =>
        rw [hedges] at h
        exact ⟨pattern, nodes, edges, rfl, rfl, rfl, (Except.ok.inj h).symm⟩

theorem map_rule? (hg : g.rules = d.rules.toArray) {α : Type} (f : Rule → α) (id : RuleId) :
    (g.rule? id).map f = (d.rules.map f)[id.toNat]? := by
  rw [rule?, hg, List.getElem?_toArray, List.getElem?_map]

theorem resolved_of_load (hd : d.Resolved) (h : loadWith compile d = .ok g) : g.Resolved := by
  obtain ⟨pattern, nodes, edges, -, -, -, rfl⟩ := loadWith_eq_ok h
  rintro id ⟨current, previous, ids, hids, hid⟩
  obtain ⟨t, ht, hids⟩ := Option.bind_eq_some_iff.1 hids
  have hlt := hd _ (Table.mem_of_get? ht) _ (Table.mem_of_get? hids) id hid
  exact ⟨d.onmatchRules[id.toNat], by simp [onmatchRule?, hlt]⟩

/-- Documents of one skeleton load to grammars of one skeleton. -/
theorem sameSkeleton_of_load (h : d.SameSkeleton d') (hg : loadWith compile d = .ok g)
    (hg' : loadWith compile d' = .ok g') : g.SameSkeleton g' := by
  obtain ⟨pattern, nodes, edges, hpattern, hnodes, hedges, rfl⟩ := loadWith_eq_ok hg
  obtain ⟨pattern', nodes', edges', hpattern', hnodes', hedges', rfl⟩ := loadWith_eq_ok hg'
  rw [h.pattern, hpattern'] at hpattern
  rw [h.graph, hnodes'] at hnodes
  rw [h.graph, hedges'] at hedges
  cases hpattern
  cases hnodes
  cases hedges
  refine ⟨rfl, rfl, rfl, ?_, h.whitespace, fun id => ?_⟩
  · dsimp only
    rw [h.classes]
  · rw [map_rule? rfl, map_rule? rfl, h.tokenCounts]

theorem sameTexts_of_load (h : d.SameTexts d') (hg : loadWith compile d = .ok g)
    (hg' : loadWith compile d' = .ok g') : g.SameTexts g' := by
  obtain ⟨pattern, nodes, edges, -, -, -, rfl⟩ := loadWith_eq_ok hg
  obtain ⟨pattern', nodes', edges', -, -, -, rfl⟩ := loadWith_eq_ok hg'
  refine ⟨fun id => ?_, ?_, h.onmatchLookup⟩
  · rw [map_rule? rfl, map_rule? rfl, h.productions]
  · dsimp only
    rw [h.onmatchRules]

end Grammar

end Translit
