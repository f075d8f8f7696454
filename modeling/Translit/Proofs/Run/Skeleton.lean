import Mathlib
import Translit.Proofs.Run.Limits
import Translit.Proofs.Walk.Skeleton

/-!
# Parses with grammars of one skeleton

Which rules a parse applies, and where, is settled by the skeleton of its grammar. The texts that
rules and onmatch rules write settle the output, and nothing else of them is looked at.

* `Parallel` : results that are related, or the same error, or none;
* `runFrom_parallel`, `parseWithTrace_parallel` : runs and parses in lock-step, from what their
  steps have in common;
* `nextStep_parallel` : what the steps of grammars of one skeleton have in common.
-/

namespace Translit

/-- Results that are in a relation, or the same error, or none. -/
inductive Parallel {α β : Type} (S : α → β → Prop) :
    Option (Except ParseError α) → Option (Except ParseError β) → Prop
  | none : Parallel S none none
  | error (err : ParseError) : Parallel S (some (.error err)) (some (.error err))
  | ok {a : α} {b : β} : S a b → Parallel S (some (.ok a)) (some (.ok b))

theorem Parallel.map_eq {α β γ : Type} {S : α → β → Prop} {x : Option (Except ParseError α)}
    {y : Option (Except ParseError β)} (h : Parallel S x y) {f : α → γ} {f' : β → γ}
    (hf : ∀ a b, S a b → f a = f' b) : x.map (·.map f) = y.map (·.map f') := by
  cases h with
  | none => rfl
  | error err => rfl
  | ok hab => exact congrArg (fun c => some (Except.ok c)) (hf _ _ hab)

/-- The context without what it tells of onmatch rules. -/
def Context.withoutOnmatch (c : Context) : Context :=
  { c with steps := c.steps.map fun m => { m with onmatch := none } }

theorem Context.withoutOnmatch_record (c : Context) (m : RuleMatch) (count : Nat) :
    (c.record m count).withoutOnmatch =
      c.withoutOnmatch.record { m with onmatch := none } count := by
  simp [withoutOnmatch, record]

namespace Grammar

variable {g g' : Grammar} {limits : Limits}

/-! ## Runs in lock-step -/

section LockStep

variable {R : Context → String → Context → String → Prop}
  (hsame : ∀ c out c' out', R c out c' out' →
    c'.sequence = c.sequence ∧ c'.position = c.position)
  (hnext : ∀ c out c' out', R c out c' out' →
    Parallel
      (fun x x' => R (c.record x.1 x.2.tokenCount)
        (out ++ g.onmatchText x.1.onmatch ++ x.2.production) (c'.record x'.1 x'.2.tokenCount)
        (out' ++ g'.onmatchText x'.1.onmatch ++ x'.2.production))
      (g.nextStep limits c.sequence.tokens c.position)
      (g'.nextStep limits c.sequence.tokens c.position))

include hsame hnext

/-- Runs whose steps keep a relation of contexts and texts end with it, with the same error, or both
not at all. -/
theorem runFrom_parallel {c c' : Context} {out out' : String} (h : R c out c' out') :
    Parallel (fun p p' : Parsed => R p.context p.output p'.context p'.output)
      ((g.runFrom limits c out).map fun (c, r) => r.map fun output => ⟨output, c⟩)
      ((g'.runFrom limits c' out').map fun (c, r) => r.map fun output => ⟨output, c⟩) := by
  -- each step leaves fewer tokens before the last one
  obtain ⟨room, hroom⟩ : ∃ room, c.stop - c.position = room := ⟨_, rfl⟩
  induction room using Nat.strong_induction_on generalizing c c' out out' with
  | _ room ih =>
    obtain ⟨hsequence, hposition⟩ := hsame c out c' out' h
    have hstop : c'.stop = c.stop := by rw [Context.stop, Context.stop, hsequence]
    have hstep := hnext c out c' out' h
    rw [runFrom_eq (g := g) c out, runFrom_eq (g := g') c' out', hsequence, hposition, hstop]
    by_cases hlt : c.position < c.stop
    · rw [if_pos hlt, if_pos hlt]
      have hprogress (m : RuleMatch) (rule : Rule)
          (hm : g.nextStep limits c.sequence.tokens c.position = some (.ok (m, rule))) :
          m.index = c.position ∧ 0 < rule.tokenCount := nextStep_progress hm
      generalize g.nextStep limits c.sequence.tokens c.position = x,
        g'.nextStep limits c.sequence.tokens c.position = x' at hstep hprogress
      cases hstep with
      | none => exact .none
      | error err => exact .error err
      | @ok a b hab =>
        obtain ⟨m, rule⟩ := a
        obtain ⟨hindex, hpos⟩ := hprogress m rule rfl
        refine ih _ ?_ hab rfl
        simp only [Context.record, Context.stop] at *
        omega
    · rw [if_neg hlt, if_neg hlt]
      exact .ok h

/-- The same for parses of one input. -/
theorem parseWithTrace_parallel {input : String} (htokenize : g'.tokenize input = g.tokenize input)
    (h : R (.ofSequence (g.tokenize input)) "" (.ofSequence (g.tokenize input)) "") :
    Parallel (fun p p' : Parsed => R p.context p.output p'.context p'.output)
      (g.parseWithTrace limits input) (g'.parseWithTrace limits input) := by
  by_cases hsize : limits.TooLarge input
  · rw [parseWithTrace_of_tooLarge hsize, parseWithTrace_of_tooLarge hsize]
    exact .error _
  · by_cases hs : limits.Refuses (g.tokenize input)
    · rw [parseWithTrace_of_refuses hsize hs,
        parseWithTrace_of_refuses hsize (by rwa [htokenize]), htokenize]
      exact .error _
    · rw [parseWithTrace_of_run hsize hs, parseWithTrace_of_run hsize (by rwa [htokenize]),
        htokenize]
      exact runFrom_parallel hsame hnext h

end LockStep

/-! ## Steps of grammars of one skeleton -/

theorem hasClass_of_sameSkeleton (h : g.SameSkeleton g') : g'.hasClass = g.hasClass := by
  funext token tokenClass
  rw [hasClass, hasClass, classesOf?, classesOf?, h.classes]

theorem tokenize_of_sameSkeleton (h : g.SameSkeleton g') (input : String) :
    g'.tokenize input = g.tokenize input := by
  have hblank : g'.isBlank = g.isBlank := by
    funext token
    rw [isBlank, isBlank, hasClass_of_sameSkeleton h, h.whitespace]
  simp only [tokenize, h.pattern, h.whitespace, hblank]

/-- Steps with one rule, where both searches for an onmatch rule fail alike or not at all. -/
theorem nextStep_parallel (h : g.SameSkeleton g') {tokens : Array String} {index : Nat}
    {S : RuleMatch × Rule → RuleMatch × Rule → Prop}
    (honmatch : Parallel
      (fun o o' => ∀ id r r', g.rule? id = some r → g'.rule? id = some r' →
        r'.tokenCount = r.tokenCount → S (⟨index, id, o⟩, r) (⟨index, id, o'⟩, r'))
      (some (g.onmatchAt tokens index)) (some (g'.onmatchAt tokens index))) :
    Parallel S (g.nextStep limits tokens index) (g'.nextStep limits tokens index) := by
  have hmatch : (g'.walk limits tokens).matchAt index = (g.walk limits tokens).matchAt index :=
    Walk.matchAt_onGrammar (w := g.walk limits tokens) h index
  unfold nextStep
  rw [hmatch]
  cases (g.walk limits tokens).matchAt index with
  | none => exact .none
  | some r =>
    cases r with
    | error err => exact .error err
    | ok id =>
      show Parallel S (some (g.stepWith tokens index id)) (some (g'.stepWith tokens index id))
      have hcount := h.tokenCount id
      unfold stepWith
      cases hr : g.rule? id with
      | none =>
        rw [hr, Option.map_none, eq_comm, Option.map_eq_none_iff] at hcount
        rw [hcount]
        exact .error _
      | some r =>
        rw [hr, Option.map_some, eq_comm, Option.map_eq_some_iff] at hcount
        obtain ⟨r', hr', hcount⟩ := hcount
        rw [hr']
        dsimp only
        rw [hcount]
        by_cases hzero : r.tokenCount = 0
        · rw [if_pos hzero, if_pos hzero]
          exact .error _
        · rw [if_neg hzero, if_neg hzero]
          generalize g.onmatchAt tokens index = x, g'.onmatchAt tokens index = x' at honmatch
          cases honmatch with
          | error err => exact .error err
          | ok ho => exact .ok (ho id r r' hr hr' hcount)

theorem exists_onmatchAt (h : g.Resolved) (tokens : Array String) (index : Nat) :
    ∃ o, g.onmatchAt tokens index = .ok o := by
  cases honmatch : g.onmatchAt tokens index with
  | ok o => exact ⟨o, rfl⟩
  | error err =>
    obtain ⟨current, previous, ids, id, hids, hid, hnone, -⟩ := onmatchAt_eq_error honmatch
    obtain ⟨r, hr⟩ := h id ⟨current, previous, ids, hids, hid⟩
    rw [hnone] at hr
    cases hr

/-- Where no onmatch rule is missing, a parse takes the same rules at the same tokens. -/
theorem trace_of_sameSkeleton (h : g.SameSkeleton g') (hg : g.Resolved) (hg' : g'.Resolved)
    (limits : Limits) (input : String) :
    (g.parseWithTrace limits input).map (·.map (·.context.withoutOnmatch)) =
      (g'.parseWithTrace limits input).map (·.map (·.context.withoutOnmatch)) := by
  let R (c : Context) (_ : String) (c' : Context) (_ : String) : Prop :=
    c.withoutOnmatch = c'.withoutOnmatch
  have hsame (c : Context) (out : String) (c' : Context) (out' : String) (hR : R c out c' out') :
      c'.sequence = c.sequence ∧ c'.position = c.position := by
    have hsequence := congrArg Context.sequence hR
    have hposition := congrArg Context.position hR
    exact ⟨hsequence.symm, hposition.symm⟩
  refine (parseWithTrace_parallel (R := R) hsame (fun c out c' out' hR => ?_)
    (tokenize_of_sameSkeleton h input) rfl).map_eq (fun p p' hp => hp)
  obtain ⟨o, ho⟩ := exists_onmatchAt hg c.sequence.tokens c.position
  obtain ⟨o', ho'⟩ := exists_onmatchAt hg' c.sequence.tokens c.position
  refine nextStep_parallel h ?_
  rw [ho, ho']
  refine .ok fun id r r' _ _ hcount => ?_
  show (c.record _ _).withoutOnmatch = (c'.record _ _).withoutOnmatch
  rw [Context.withoutOnmatch_record, Context.withoutOnmatch_record, show c.withoutOnmatch = _ from hR,
    hcount]

/-! ## Steps that write the same -/

theorem onmatchRule?_of_sameTexts (h : g.SameTexts g') : g'.onmatchRule? = g.onmatchRule? := by
  funext id
  rw [onmatchRule?, onmatchRule?, h.onmatchRules]

section SameTexts

variable (h : g.SameSkeleton g') (htexts : g.SameTexts g')

include h htexts

theorem onmatchAt_of_sameTexts (tokens : Array String) (index : Nat) :
    g'.onmatchAt tokens index = g.onmatchAt tokens index := by
  have hfits : g'.onmatchFits = g.onmatchFits := by
    funext tokens index r
    simp only [onmatchFits, hasClass_of_sameSkeleton h]
  have hfirst (ids : List OnmatchId) :
      g'.firstOnmatch tokens index ids = g.firstOnmatch tokens index ids := by
    induction ids with
    | nil => rfl
    | cons id ids ih =>
      rw [firstOnmatch, firstOnmatch, onmatchRule?_of_sameTexts htexts, hfits, ih]
  simp only [onmatchAt, onmatchCandidates?, htexts.onmatchLookup, hfirst]

/-- Where the texts are the same too, so is the whole parse. -/
theorem parseWithTrace_of_sameTexts (limits : Limits) (input : String) :
    g.parseWithTrace limits input = g'.parseWithTrace limits input := by
  let R (c : Context) (out : String) (c' : Context) (out' : String) : Prop := c = c' ∧ out = out'
  have hsame (c : Context) (out : String) (c' : Context) (out' : String) (hR : R c out c' out') :
      c'.sequence = c.sequence ∧ c'.position = c.position := by
    obtain ⟨rfl, -⟩ := hR
    exact ⟨rfl, rfl⟩
  have hparallel : Parallel (fun p p' : Parsed => R p.context p.output p'.context p'.output)
      (g.parseWithTrace limits input) (g'.parseWithTrace limits input) := by
    refine parseWithTrace_parallel (R := R) hsame ?_ (tokenize_of_sameSkeleton h input) ⟨rfl, rfl⟩
    rintro c out _ _ ⟨rfl, rfl⟩
    refine nextStep_parallel h ?_
    rw [onmatchAt_of_sameTexts h htexts]
    cases g.onmatchAt c.sequence.tokens c.position with
    | error err => exact .error err
    | ok o =>
      refine .ok fun id r r' hr hr' hcount => ?_
      have hproduction : some r.production = some r'.production := by
        simpa [hr, hr'] using htexts.production id
      have honmatch : g'.onmatchText o = g.onmatchText o := by
        rw [onmatchText, onmatchText, onmatchRule?_of_sameTexts htexts]
      refine ⟨?_, ?_⟩
      · rw [hcount]
      · rw [honmatch, Option.some.inj hproduction]
  generalize g.parseWithTrace limits input = x, g'.parseWithTrace limits input = x' at hparallel
  cases hparallel with
  | none => rfl
  | error err => rfl
  | @ok p p' hp =>
    obtain ⟨output, c⟩ := p
    obtain ⟨rfl, rfl⟩ := hp
    rfl

end SameTexts

/-! ## Documents of one skeleton -/

/-- **What decides the trace.** Take documents that load, however patterns are compiled, and differ
in no more than, rule by rule, production, cost, context and the texts of as many tokens, and in
their onmatch rules. Walks and matches are the same. If no onmatch rule is missing, parses end with
the same error or with the same context but for the onmatch rules in it. With equal productions and
equal onmatch rules parses are the same altogether. -/
theorem trace_of_load {compile : String → Option Pattern} {d d' : Document}
    (h : d.SameSkeleton d') {g g' : Grammar} (hg : loadWith compile d = .ok g)
    (hg' : loadWith compile d' = .ok g') :
    (∀ tokens cap steps mode index,
      Walk.rules ⟨g, tokens, cap, steps⟩ mode index =
        Walk.rules ⟨g', tokens, cap, steps⟩ mode index ∧
      Walk.matchAt ⟨g, tokens, cap, steps⟩ index = Walk.matchAt ⟨g', tokens, cap, steps⟩ index ∧
      Walk.matchAll ⟨g, tokens, cap, steps⟩ index =
        Walk.matchAll ⟨g', tokens, cap, steps⟩ index) ∧
    (d.Resolved → d'.Resolved → ∀ limits input,
      (g.parseWithTrace limits input).map (·.map (·.context.withoutOnmatch)) =
        (g'.parseWithTrace limits input).map (·.map (·.context.withoutOnmatch))) ∧
    (d.SameTexts d' → ∀ limits input,
      g.parseWithTrace limits input = g'.parseWithTrace limits input) := by
  have hskeleton : g.SameSkeleton g' := sameSkeleton_of_load h hg hg'
  refine ⟨?_, ?_, ?_⟩
  · intro tokens cap steps mode index
    have hrules (mode : Mode) : Walk.rules ⟨g, tokens, cap, steps⟩ mode index =
        Walk.rules ⟨g', tokens, cap, steps⟩ mode index :=
      (Walk.rules_onGrammar (w := ⟨g, tokens, cap, steps⟩) hskeleton mode index).symm
    have hmatch := Walk.matchAt_onGrammar (w := ⟨g, tokens, cap, steps⟩) hskeleton index
    exact ⟨hrules mode, hmatch.symm, hrules .all⟩
  · intro hd hd' limits input
    exact trace_of_sameSkeleton hskeleton (resolved_of_load hd hg) (resolved_of_load hd' hg') limits
      input
  · intro htexts limits input
    exact parseWithTrace_of_sameTexts hskeleton (sameTexts_of_load htexts hg hg') limits input

/-- A document with one rule, for `a`, and the onmatch rules that may stand between two of them. -/
def letterDocument (rule : Rule) (onmatchRules : List OnmatchRule) (candidates : List OnmatchId) :
    Document where
  graph := ⟨.ofList [("0", ⟨false, none, .ofList [("a", [1])]⟩),
    ("1", ⟨false, none, .ofList [(Document.fallbackKey, [2])]⟩), ("2", ⟨true, some 0, .empty⟩)],
    .empty⟩
  rules := [rule]
  onmatchRules := onmatchRules
  onmatchLookup := .ofList [("a", .ofList [("a", candidates)])]
  pattern := "a"
  classes := .ofList [("a", ["letter"])]
  whitespace := ⟨" ", "blank", true⟩

theorem exists_load_letterDocument (rule : Rule) (onmatchRules : List OnmatchRule)
    (candidates : List OnmatchId) :
    ∃ g, load (letterDocument rule onmatchRules candidates) = .ok g := by
  refine ⟨⟨.ofList [(0, .inner [("a", [1])] []), (1, .inner [] [2]), (2, .leaf 0)], .empty,
    #[rule], onmatchRules.toArray, .ofList [("a", .ofList [("a", candidates)])],
    ⟨"a", 0, #[.take (.single 'a'), .accept]⟩, .ofList [("a", ["letter"])], ⟨" ", "blank", true⟩⟩,
    ?_⟩
  cbv

/-- One document writes `A` for `a`, one `B` with a hyphen between two of them, and one `A` again,
at another cost and made from another token. All take the same rules, and the first and the last
write the same. -/
theorem trace_of_load_letterDocument :
    let a := letterDocument ⟨"A", none, none, ["a"], none, none, .zero⟩ [] []
    let b := letterDocument ⟨"B", some [], none, ["b"], none, some ["letter"], .zero⟩
      [⟨["letter"], ["letter"], "-"⟩] [0]
    let a' := letterDocument ⟨"A", none, some ["x"], ["y"], none, none, ⟨true, 1, by decide⟩⟩ [] []
    ∃ ga gb ga', load a = .ok ga ∧ load b = .ok gb ∧ load a' = .ok ga' ∧
      a.SameSkeleton b ∧ a.Resolved ∧ b.Resolved ∧ ¬ a.SameTexts b ∧
      Walk.matchAll ⟨ga, #["a"], 1, 9⟩ 0 = Walk.matchAll ⟨gb, #["a"], 1, 9⟩ 0 ∧
      (ga.parseWithTrace .default "aa").map (·.map (·.context.withoutOnmatch)) =
        (gb.parseWithTrace .default "aa").map (·.map (·.context.withoutOnmatch)) ∧
      a.SameSkeleton a' ∧ a.SameTexts a' ∧
      ga.parseWithTrace .default "aa" = ga'.parseWithTrace .default "aa" := by
  intro a b a'
  obtain ⟨ga, hga⟩ := exists_load_letterDocument ⟨"A", none, none, ["a"], none, none, .zero⟩ [] []
  obtain ⟨gb, hgb⟩ := exists_load_letterDocument
    ⟨"B", some [], none, ["b"], none, some ["letter"], .zero⟩ [⟨["letter"], ["letter"], "-"⟩] [0]
  obtain ⟨ga', hga'⟩ := exists_load_letterDocument
    ⟨"A", none, some ["x"], ["y"], none, none, ⟨true, 1, by decide⟩⟩ [] []
  have hskeleton : a.SameSkeleton b := ⟨rfl, rfl, rfl, rfl, rfl⟩
  have hskeleton' : a.SameSkeleton a' := ⟨rfl, rfl, rfl, rfl, rfl⟩
  have htexts : a.SameTexts a' := ⟨rfl, rfl, rfl⟩
  have hresolved : a.Resolved := by
    simp [a, Document.Resolved, letterDocument, Table.ofList, Table.insert, Table.insertEntry,
      Table.empty]
  have hresolved' : b.Resolved := by
    simp [b, Document.Resolved, letterDocument, Table.ofList, Table.insert, Table.insertEntry,
      Table.empty]
  obtain ⟨hwalks, htraces, -⟩ := trace_of_load hskeleton hga hgb
  obtain ⟨-, -, hsame⟩ := trace_of_load hskeleton' hga hga'
  refine ⟨ga, gb, ga', hga, hgb, hga', hskeleton, hresolved, hresolved', ?_, ?_, ?_, hskeleton',
    htexts, hsame htexts .default "aa"⟩
  · rintro ⟨hproductions, -, -⟩
    exact absurd hproductions (by decide)
  · exact (hwalks #["a"] 1 9 .all 0).2.2
  · exact htraces hresolved hresolved' .default "aa"

end Grammar

end Translit
