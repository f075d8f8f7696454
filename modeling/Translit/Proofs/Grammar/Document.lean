import Translit.Grammar.Document.Printer
import Translit.Grammar.Document.Reader
import Translit.Proofs.Json.Numeral
import Translit.Proofs.Json.Value

/-!
# Written documents

A document that is written reads back as it was: nodes, edges, constraints, rules, lookups and
classes, with what is absent kept apart from what is empty. Only a cost may come back changed,
where the reader of numbers does not find the double that the numeral was written for.

* `Restores` : a reader gives back what a writer wrote; lists, tables, options and records keep it;
* `ofJson?_toJson` : the value that a document is written as denotes it, up to the costs;
* `read?_write` : so does the text, and the costs come back where they are written short.
-/

namespace Translit

namespace Json

/-! ## Readers and writers -/

/-- What is written reads back. -/
def Restores {α : Type} (read? : Json → Option α) (write : α → Json) : Prop :=
  ∀ a, read? (write a) = some a

section
variable {α β : Type} {read? : Json → Option α} {write : α → Json}

theorem mapM_map_eq_some {γ δ : Type} {f : β → Option γ} {g : δ → β} {k : δ → γ} {as : List δ}
    (h : ∀ a ∈ as, f (g a) = some (k a)) : (as.map g).mapM f = some (as.map k) := by
  induction as with
  | nil => rfl
  | cons a as ih =>
    rw [List.map_cons, List.mapM_cons, h a List.mem_cons_self,
      ih fun b hb => h b (List.mem_cons_of_mem a hb)]
    rfl

theorem mapM_eq_some_self_iff {f : α → Option α} {as : List α} :
    as.mapM f = some as ↔ ∀ a ∈ as, f a = some a := by
  constructor
  · intro h
    induction as with
    | nil => nofun
    | cons a as ih =>
      rw [List.mapM_cons] at h
      obtain ⟨b, hb, h⟩ := Option.bind_eq_some_iff.1 h
      obtain ⟨bs, hbs, h⟩ := Option.bind_eq_some_iff.1 h
      obtain ⟨rfl, rfl⟩ := List.cons.inj (Option.some.inj h)
      exact List.forall_mem_cons.2 ⟨hb, ih hbs⟩
  · intro h
    have hmap := mapM_map_eq_some (g := id) (k := id) h
    rwa [List.map_id] at hmap

theorem restores_text : Restores asText? text := fun _ => rfl

theorem restores_word : Restores asWord? fun id : UInt64 => nat id.toNat := by
  intro id
  change (if id.toNat < UInt64.size then some (UInt64.ofNat id.toNat) else none) = some id
  rw [if_pos id.toNat_lt, UInt64.ofNat_toNat]

theorem Restores.list (h : Restores read? write) :
    Restores (asList? read?) fun as => array (as.map write) := by
  intro as
  change (as.map write).mapM read? = some as
  rw [mapM_map_eq_some (k := id) fun a _ => h a, List.map_id]

theorem restores_texts : Restores (asList? asText?) texts := restores_text.list

theorem Restores.table (h : Restores read? write) :
    Restores (asTable? read?) (Document.ofTable write) := by
  intro t
  have hentries : (t.entries.map fun e => (some e.1, write e.2)).mapM
      (fun m : Option String × Json => do return (← m.1, ← read? m.2)) = some t.entries := by
    refine (mapM_map_eq_some (k := id) ?_).trans (congrArg some (List.map_id _))
    rintro ⟨key, a⟩ -
    simp only [h a, Option.bind_eq_bind, Option.bind_some, Option.pure_def, id_eq]
  change (do let entries ← _; return Table.ofList entries) = _
  rw [hentries]
  exact congrArg some t.ofList_entries

theorem Restores.option (h : Restores read? write) (hnull : ∀ a, write a ≠ .null) :
    Restores (asOption? read?) (Document.ofOption write) := by
  intro o
  cases o with
  | none => rfl
  | some a =>
    change asOption? read? (write a) = some (some a)
    unfold asOption?
    split
    · next heq => exact absurd heq (hnull a)
    · rw [h a, Option.map_some]

/-- A field that is left out where it is absent. -/
theorem Restores.optional (h : Restores read? write) (hnull : ∀ a, write a ≠ .null)
    (o : Option α) : optional? read? (o.map write) = some o := by
  cases o with
  | none => rfl
  | some a => exact h.option hnull (some a)

end

/-! ## Records -/

/-- The members of a record whose absent fields are left out. -/
def present (fields : List (String × Option Json)) : List (Option String × Json) :=
  fields.filterMap fun f => f.2.map (some f.1, ·)

theorem filter_present_of_notMem {fields : List (String × Option Json)} {name : String}
    (h : name ∉ fields.map Prod.fst) : (present fields).filter (·.1 = some name) = [] := by
  rw [List.filter_eq_nil_iff]
  intro m hm heq
  obtain ⟨f, hf, hm⟩ := List.mem_filterMap.1 hm
  obtain ⟨v, -, rfl⟩ := Option.map_eq_some_iff.1 hm
  obtain rfl : f.1 = name := by simpa using heq
  exact h (List.mem_map_of_mem hf)

theorem filter_present {fields : List (String × Option Json)}
    (hnodup : (fields.map Prod.fst).Nodup) {f : String × Option Json} (hf : f ∈ fields) :
    (present fields).filter (·.1 = some f.1) = (f.2.map (some f.1, ·)).toList := by
  induction fields with
  | nil => cases hf
  | cons g gs ih =>
    obtain ⟨hnot, hnodup⟩ := List.nodup_cons.1 hnodup
    have hcons : present (g :: gs) = (g.2.map (some g.1, ·)).toList ++ present gs := by
      obtain ⟨name, value⟩ := g
      cases value with
      | none => rfl
      | some v => rfl
    rw [hcons, List.filter_append]
    rcases List.mem_cons.1 hf with rfl | hf
    · rw [filter_present_of_notMem hnot, List.append_nil, List.filter_eq_self]
      intro m hm
      obtain ⟨v, -, rfl⟩ := Option.map_eq_some_iff.1 (Option.mem_toList.1 hm)
      exact decide_eq_true rfl
    · have hne : g.1 ≠ f.1 := fun heq => hnot (heq ▸ List.mem_map_of_mem hf)
      have hfirst : (g.2.map (some g.1, ·)).toList.filter (·.1 = some f.1) = [] := by
        rw [List.filter_eq_nil_iff]
        intro m hm heq
        obtain ⟨v, -, rfl⟩ := Option.map_eq_some_iff.1 (Option.mem_toList.1 hm)
        exact hne (by simpa using heq)
      rw [hfirst, ih hnodup hf]
      rfl

/-- Of a record each field is found again, present or absent. -/
theorem fields?_present (fields : List (String × Option Json))
    (hnodup : (fields.map Prod.fst).Nodup) :
    fields? (fields.map Prod.fst) (.object (present fields)) = some (fields.map Prod.snd) := by
  have hkeys : (present fields).all (·.1.isSome) = true := by
    rw [List.all_eq_true]
    intro m hm
    obtain ⟨f, -, hm⟩ := List.mem_filterMap.1 hm
    obtain ⟨v, -, rfl⟩ := Option.map_eq_some_iff.1 hm
    rfl
  rw [fields?, if_pos hkeys]
  apply mapM_map_eq_some
  rintro ⟨name, value⟩ hf
  rw [member?, filter_present hnodup hf]
  cases value with
  | none => rfl
  | some v => rfl

end Json

namespace Document

open Json (Restores present fields? fields?_present asBool? asText? asWord? asBinary64? asList?
  asTable? asOption? orElse? optional? required? restores_texts restores_word)

/-! ## Parts of a document -/

theorem ofField_append_present {α : Type} (name : String) (write : α → Json) (o : Option α)
    (fields : List (String × Option Json)) :
    ofField name write o ++ present fields = present ((name, o.map write) :: fields) := by
  cases o with
  | none => rfl
  | some a => rfl

theorem ofField_eq_present {α : Type} (name : String) (write : α → Json) (o : Option α) :
    ofField name write o = present [(name, o.map write)] := by
  have h := ofField_append_present name write o []
  rw [present, List.filterMap_nil, List.append_nil] at h
  exact h

theorem restores_ids : Restores (asList? asWord?) ofIds := restores_word.list

theorem restores_node : Restores Node.ofJson? Node.toJson := by
  intro n
  have hwritten : n.toJson = .object (present [("accepting", some (.bool n.accepting)),
      ("rule_key", n.rule.map fun id : RuleId => .nat id.toNat),
      ("ordered_children", some (ofTable ofIds n.orderedChildren))]) := by
    rw [Node.toJson, ofField_eq_present]
    cases n.rule <;> rfl
  have hfields : fields? ["accepting", "rule_key", "ordered_children"] n.toJson =
      some [some (.bool n.accepting), n.rule.map fun id : RuleId => .nat id.toNat,
        some (ofTable ofIds n.orderedChildren)] := by
    rw [hwritten]
    exact fields?_present _ (by simp)
  have hrule : optional? asWord? (n.rule.map fun id : RuleId => .nat id.toNat) = some n.rule :=
    restores_word.optional nofun n.rule
  have hchildren := restores_ids.table n.orderedChildren
  rw [Node.ofJson?, hfields]
  simp only [Option.bind_eq_bind, Option.bind_some, Option.pure_def, orElse?, asBool?, hrule,
    hchildren]

theorem restores_constraints : Restores constraints? ofConstraints := by
  intro c
  have hwritten : ofConstraints c = .object (present [
      ("prev_tokens", c.prevTokens.map Json.texts), ("next_tokens", c.nextTokens.map Json.texts),
      ("prev_classes", c.prevClasses.map Json.texts),
      ("next_classes", c.nextClasses.map Json.texts)]) := by
    rw [ofConstraints, ofField_eq_present "next_classes", List.append_assoc, List.append_assoc,
      ofField_append_present, ofField_append_present, ofField_append_present]
  have hfields : fields? ["prev_tokens", "next_tokens", "prev_classes", "next_classes"]
      (ofConstraints c) = some [c.prevTokens.map Json.texts, c.nextTokens.map Json.texts,
        c.prevClasses.map Json.texts, c.nextClasses.map Json.texts] := by
    rw [hwritten]
    exact fields?_present _ (by simp)
  have hwindow (w : Option (List String)) : optional? texts? (w.map Json.texts) = some w :=
    restores_texts.optional nofun w
  rw [constraints?, hfields]
  simp only [Option.bind_eq_bind, Option.bind_some, Option.pure_def, hwindow]

theorem restores_edge : Restores Edge.ofJson? Edge.toJson := by
  intro e
  have hfields : fields? ["constraints"] e.toJson = some [e.constraints.map ofConstraints] := by
    rw [Edge.toJson, ofField_eq_present]
    exact fields?_present _ (by simp)
  have hconstraints : optional? constraints? (e.constraints.map ofConstraints) =
      some e.constraints :=
    restores_constraints.optional nofun e.constraints
  rw [Edge.ofJson?, hfields]
  simp only [Option.bind_eq_bind, Option.bind_some, Option.pure_def, hconstraints]

theorem restores_graph : Restores Graph.ofJson? Graph.toJson := by
  intro g
  have hfields : fields? ["node", "edge"] g.toJson =
      some [some (ofTable Node.toJson g.nodes), some (ofTable (ofTable Edge.toJson) g.edges)] :=
    fields?_present [("node", some _), ("edge", some _)] (by simp)
  have hnodes := restores_node.table g.nodes
  have hedges := restores_edge.table.table g.edges
  rw [Graph.ofJson?, hfields]
  simp only [Option.bind_eq_bind, Option.bind_some, Option.pure_def, orElse?, hnodes, hedges]

theorem restores_onmatchRule : Restores onmatchRule? ofOnmatchRule := by
  intro r
  have hprev := restores_texts r.prevClasses
  have hnext := restores_texts r.nextClasses
  simp only [onmatchRule?, ofOnmatchRule, texts?, hprev, hnext, Json.text, asText?,
    Option.bind_eq_bind, Option.bind_some, Option.pure_def]

theorem restores_whitespace : Restores whitespace? ofWhitespace := fun _ => rfl

/-- A rule reads back with the double that its cost is read as. -/
theorem rule?_ofRule (r : Rule) :
    rule? (ofRule r) =
      (Json.Numeral.ofBinary64 r.cost).toBinary64?.map fun cost => { r with cost } := by
  have hcontext (w : Option (List String)) :
      asOption? texts? (ofOption Json.texts w) = some w :=
    restores_texts.option nofun w
  have htokens : texts? (Json.texts r.tokens) = some r.tokens := restores_texts r.tokens
  simp only [rule?, ofRule, hcontext, htokens, Json.text, asText?, asBinary64?,
    Option.bind_eq_bind, Option.bind_some, Option.pure_def]
  cases (Json.Numeral.ofBinary64 r.cost).toBinary64? with
  | none => rfl
  | some cost => rfl

/-! ## Documents -/

/-- What a document is written as denotes it, up to the costs of its rules. -/
theorem ofJson?_toJson (d : Document) :
    ofJson? d.toJson =
      (d.rules.mapM fun r => rule? (ofRule r)).map fun rules => { d with rules } := by
  have hfields : fields? ["_graph", "_rules", "_onmatch_rules", "_onmatch_rules_lookup",
      "_tokenizer_pattern", "_tokens", "_whitespace"] d.toJson =
      some [some d.graph.toJson, some (.array (d.rules.map ofRule)),
        some (.array (d.onmatchRules.map ofOnmatchRule)),
        some (ofTable (ofTable ofIds) d.onmatchLookup), some (.text d.pattern),
        some (ofTable Json.texts d.classes), some (ofWhitespace d.whitespace)] :=
    fields?_present [("_graph", some _), ("_rules", some _), ("_onmatch_rules", some _),
      ("_onmatch_rules_lookup", some _), ("_tokenizer_pattern", some _), ("_tokens", some _),
      ("_whitespace", some _)] (by simp)
  have hgraph := restores_graph d.graph
  have honmatch := restores_onmatchRule.list d.onmatchRules
  have hlookup := restores_ids.table.table d.onmatchLookup
  have hclasses : asTable? texts? (ofTable Json.texts d.classes) = some d.classes :=
    restores_texts.table d.classes
  have hwhitespace := restores_whitespace d.whitespace
  have hrules : asList? rule? (.array (d.rules.map ofRule)) =
      d.rules.mapM fun r => rule? (ofRule r) :=
    List.mapM_map
  rw [ofJson?, hfields]
  simp only [Option.bind_eq_bind, Option.bind_some, Option.pure_def, required?, orElse?, hgraph,
    hrules, honmatch, hlookup, hclasses, hwhitespace, Json.text, asText?]
  cases d.rules.mapM fun r => rule? (ofRule r) with
  | none => rfl
  | some rules => rfl

/-- A rule reads back as it was just if its cost does. -/
theorem rule?_ofRule_eq_some_iff (r : Rule) :
    rule? (ofRule r) = some r ↔
      (Json.Numeral.ofBinary64 r.cost).toBinary64? = some r.cost := by
  rw [rule?_ofRule, Option.map_eq_some_iff]
  constructor
  · rintro ⟨cost, hcost, hr⟩
    rw [hcost, ← congrArg Rule.cost hr]
  · intro hcost
    exact ⟨r.cost, hcost, rfl⟩

/-- **A document that is written reads back as it was**, if each of its costs does: if the reader
of numbers finds, in the numeral that is written for it, the same double. It does so wherever the
numeral is short. -/
theorem read?_write (d : Document) :
    (read? d.write = some d ↔
      ∀ r ∈ d.rules, (Json.Numeral.ofBinary64 r.cost).toBinary64? = some r.cost) ∧
    ((∀ r ∈ d.rules, (Json.Numeral.ofBinary64 r.cost).IsShort) → read? d.write = some d) := by
  have hread : read? d.write = ofJson? d.toJson := by
    rw [read?, write, Json.write, String.toList_ofList, Json.read?_render, Option.bind_some]
  have hrules : (∀ r ∈ d.rules, rule? (ofRule r) = some r) ↔
      ∀ r ∈ d.rules, (Json.Numeral.ofBinary64 r.cost).toBinary64? = some r.cost :=
    forall₂_congr fun r _ => rule?_ofRule_eq_some_iff r
  have hiff : read? d.write = some d ↔
      ∀ r ∈ d.rules, (Json.Numeral.ofBinary64 r.cost).toBinary64? = some r.cost := by
    rw [hread, ofJson?_toJson, ← hrules, ← Json.mapM_eq_some_self_iff, Option.map_eq_some_iff]
    constructor
    · rintro ⟨rules, hmap, hd⟩
      rw [hmap, ← congrArg Document.rules hd]
    · intro hmap
      exact ⟨d.rules, hmap, rfl⟩
  refine ⟨hiff, ?_⟩
  intro hshort
  exact hiff.2 fun r hr => Json.Numeral.toBinary64?_ofBinary64 (hshort r hr)

/-- A document with fields absent, empty and present, the greatest identifier, and rules whose
costs are `-1.5`, `0.1`, `0.0` and `5e-324`, the least double. -/
def costDocument : Document where
  graph := {
    nodes := .ofList [("0", ⟨false, none, .ofList [("a", [1]), (fallbackKey, [])]⟩),
      ("1", ⟨true, some 18446744073709551615, .empty⟩)]
    edges := .ofList [("0", .ofList [("1", ⟨some ⟨some [], none, some ["vowel"], none⟩⟩),
      ("2", ⟨none⟩)])] }
  rules := [
    ⟨"A", none, none, ["a"], none, none, ⟨true, 0x3FF8000000000000, by decide⟩⟩,
    ⟨"\u0431", some [], some ["\""], ["b"], none, some ["vowel"],
      ⟨false, 0x3FB999999999999A, by decide⟩⟩,
    ⟨"", none, some [], [], some ["\n"], none, .zero⟩,
    ⟨"C", none, none, ["c"], none, none, ⟨false, 1, by decide⟩⟩]
  onmatchRules := [⟨["vowel"], [], "-"⟩]
  onmatchLookup := .ofList [("vowel", .ofList [("vowel", [0, 0])])]
  pattern := "a|b"
  classes := .ofList [("a", ["vowel"]), ("b", [])]
  whitespace := ⟨" ", "blank", true⟩

/-- The document is read back with all four costs. The numerals of the first three are short, so
they come back without the fourth by the second half alone. -/
theorem read?_write_costDocument :
    let d := { costDocument with rules := costDocument.rules.take 3 }
    (∀ r ∈ costDocument.rules, (Json.Numeral.ofBinary64 r.cost).toBinary64? = some r.cost) ∧
    read? costDocument.write = some costDocument ∧
    (∀ r ∈ d.rules, (Json.Numeral.ofBinary64 r.cost).IsShort) ∧ read? d.write = some d := by
  intro d
  have hcosts : ∀ r ∈ costDocument.rules,
      (Json.Numeral.ofBinary64 r.cost).toBinary64? = some r.cost := by
    decide +kernel
  have hshort : ∀ r ∈ d.rules, (Json.Numeral.ofBinary64 r.cost).IsShort := by decide +kernel
  exact ⟨hcosts, (read?_write costDocument).1.2 hcosts, hshort, (read?_write d).2 hshort⟩

end Document

end Translit
