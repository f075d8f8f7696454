import Mathlib.Data.Nat.Digits.Defs
import Translit.Grammar.Load
import Translit.Proofs.Table
import Translit.Proofs.Text.Order

/-!
# The keys of a document

A document names its nodes by texts, and several texts may denote one number: `1`, `01` and `+1` do.
The keys of a table stand in the order of their bytes.

* `NodeId.Denotes` : which keys denote which number; `NodeId.ofKey?_eq_some_iff` : these are the
  keys that are read as the number;
* `KeyLt` : the order of keys by their bytes; `Table.keyLt_entries` : tables keep it;
* `Last` : the last of all that have a property;
* `Document.Graph.keys`, `Document.Graph.links` : the keys of nodes and ends of edges, and the
  edges, in the order in which they are read; `Document.Graph.linkLt_links` : so do the edges.
-/

namespace Translit

/-! ## Numbers -/

namespace Number

theorem isDigit_iff {c : Char} : c.isDigit = true ↔ 48 ≤ c.toNat ∧ c.toNat < 58 := by
  rw [Char.isDigit, Bool.and_eq_true, decide_eq_true_iff, decide_eq_true_iff]
  show 48 ≤ c.toNat ∧ c.toNat ≤ 57 ↔ _
  omega

theorem isDigit_of_mapM {cs : List Char} {ds : List Digit} (h : cs.mapM Digit.ofChar? = some ds) :
    ∀ c ∈ cs, c.isDigit = true := by
  induction cs generalizing ds with
  | nil => exact List.forall_mem_nil _
  | cons c cs ih =>
    rw [List.mapM_cons] at h
    obtain ⟨d, hd, h⟩ := Option.bind_eq_some_iff.1 h
    obtain ⟨ds, hds, -⟩ := Option.bind_eq_some_iff.1 h
    refine List.forall_mem_cons.2 ⟨?_, ih hds⟩
    by_contra hc
    rw [Digit.ofChar?, dif_neg fun hrange => hc (isDigit_iff.2 hrange)] at hd
    cases hd

theorem exists_mapM_ofChar? {cs : List Char} (h : ∀ c ∈ cs, c.isDigit = true) :
    ∃ ds, cs.mapM Digit.ofChar? = some ds ∧ ds.map (·.val) = cs.map (·.toNat - 48) := by
  induction cs with
  | nil => exact ⟨[], rfl, rfl⟩
  | cons c cs ih =>
    obtain ⟨hc, hcs⟩ := List.forall_mem_cons.1 h
    have hrange := isDigit_iff.1 hc
    have hdigit : Digit.ofChar? c = some ⟨c.toNat - 48, by omega⟩ := dif_pos hrange
    obtain ⟨ds, hds, hmap⟩ := ih hcs
    refine ⟨⟨c.toNat - 48, by omega⟩ :: ds, ?_, congrArg (_ :: ·) hmap⟩
    rw [List.mapM_cons, hdigit, hds]
    rfl

/-- The number that a row of digits denotes, in base ten. -/
theorem value_eq_ofDigits (ds : List Digit) :
    value ds = Nat.ofDigits 10 (ds.reverse.map (·.val)) := by
  induction ds using List.reverseRecOn with
  | nil => rfl
  | append_singleton ds d ih =>
    rw [value_concat, List.reverse_append, List.reverse_singleton, List.singleton_append,
      List.map_cons, Nat.ofDigits_cons, ih]
    omega

end Number

namespace NodeId

/-- The key is digits, behind a plus sign or not, and they are those of the number in base ten. -/
def Denotes (key : String) (id : NodeId) : Prop :=
  ∃ sign digits, key.toList = sign ++ digits ∧ (sign = [] ∨ sign = ['+']) ∧ digits ≠ [] ∧
    (∀ c ∈ digits, c.isDigit = true) ∧
    Nat.ofDigits 10 (digits.reverse.map (·.toNat - 48)) = id.toNat

/-- The digits that are read as the number. -/
theorem ofDigits?_eq_some_iff {cs : List Char} {id : NodeId} :
    ofDigits? cs = some id ↔ cs ≠ [] ∧ (∀ c ∈ cs, c.isDigit = true) ∧
      Nat.ofDigits 10 (cs.reverse.map (·.toNat - 48)) = id.toNat := by
  by_cases hall : ∀ c ∈ cs, c.isDigit = true
  · obtain ⟨ds, hds, hmap⟩ := Number.exists_mapM_ofChar? hall
    have hnil : ds = [] ↔ cs = [] := by
      rw [← List.map_eq_nil_iff, hmap, List.map_eq_nil_iff]
    have hvalue : Number.value ds = Nat.ofDigits 10 (cs.reverse.map (·.toNat - 48)) := by
      rw [Number.value_eq_ofDigits, List.map_reverse, hmap, List.map_reverse]
    have hread : ofDigits? cs = if ds ≠ [] ∧ Number.value ds < UInt64.size then
        some (UInt64.ofNat (Number.value ds)) else none := by
      rw [ofDigits?, hds]
      rfl
    rw [hread, ← hvalue, Option.ite_none_right_eq_some, ne_eq, ne_eq, hnil, Option.some.injEq]
    constructor
    · rintro ⟨⟨hne, hlt⟩, rfl⟩
      exact ⟨hne, hall, (UInt64.toNat_ofNat_of_lt' hlt).symm⟩
    · rintro ⟨hne, -, hid⟩
      rw [hid, UInt64.ofNat_toNat]
      exact ⟨⟨hne, id.toNat_lt⟩, rfl⟩
  · constructor
    · intro h
      obtain ⟨ds, hds, -⟩ := Option.bind_eq_some_iff.1 h
      exact absurd (Number.isDigit_of_mapM hds) hall
    · rintro ⟨-, h, -⟩
      exact absurd h hall

theorem ofKey?_eq_some_iff {key : String} {id : NodeId} :
    ofKey? key = some id ↔ Denotes key id := by
  unfold ofKey? Denotes
  split
  · next cs hkey =>
    rw [ofDigits?_eq_some_iff]
    constructor
    · rintro ⟨hne, hall, hid⟩
      exact ⟨['+'], cs, hkey, .inr rfl, hne, hall, hid⟩
    · rintro ⟨sign, digits, hsplit, rfl | rfl, hne, hall, hid⟩
      · rw [hkey, List.nil_append] at hsplit
        exact absurd (hall '+' (hsplit ▸ List.mem_cons_self)) (by decide)
      · rw [hkey] at hsplit
        obtain rfl := (List.cons.inj hsplit).2
        exact ⟨hne, hall, hid⟩
  · next hkey =>
    rw [ofDigits?_eq_some_iff]
    constructor
    · rintro ⟨hne, hall, hid⟩
      exact ⟨[], key.toList, rfl, .inl rfl, hne, hall, hid⟩
    · rintro ⟨sign, digits, hsplit, rfl | rfl, hne, hall, hid⟩
      · rw [List.nil_append] at hsplit
        rw [hsplit]
        exact ⟨hne, hall, hid⟩
      · exact absurd hsplit (hkey digits)

theorem isNone_ofKey?_iff {key : String} :
    (ofKey? key).isNone = true ↔ ∀ id, ¬ Denotes key id := by
  simp only [Option.isNone_iff_eq_none, Option.eq_none_iff_forall_ne_some, ne_eq,
    ofKey?_eq_some_iff]

end NodeId

/-! ## The order of keys -/

/-- The one key comes before the other in the order of their bytes. -/
def KeyLt (a b : String) : Prop := Text.utf8 a.toList < Text.utf8 b.toList

theorem keyLt_iff {a b : String} : KeyLt a b ↔ compare a b = .lt := by
  rw [compare_lt_iff_lt, String.lt_iff_toList_lt]
  exact Text.utf8_lt_utf8_iff

/-- The entries of a table stand in the order of their keys. -/
theorem Table.keyLt_entries {α : Type} (t : Table String α) :
    t.entries.Pairwise fun a b => KeyLt a.1 b.1 :=
  t.ascending.imp keyLt_iff.2

theorem Table.keyLt_keys {α : Type} (t : Table String α) : t.keys.Pairwise KeyLt :=
  List.pairwise_map.2 t.keyLt_entries

/-- One that has the property, and of all that have it the last. -/
structure Last {α : Type} (lt : α → α → Prop) (p : α → Prop) (a : α) : Prop where
  holds : p a
  last : ∀ b, p b → b = a ∨ lt b a

/-- The constraints of an edge, none of any kind if it is without. -/
def Document.Edge.demand (e : Document.Edge) : Constraints := e.constraints.getD .empty

namespace Document.Graph

/-- The keys of nodes, then for each key of a parent this key and those of its children. -/
def keys (g : Graph) : List String :=
  g.nodes.keys ++ g.edges.entries.flatMap fun e => e.1 :: e.2.keys

/-- The edge between two keys. -/
def edge? (g : Graph) (ends : String × String) : Option Edge :=
  (g.edges.get? ends.1).bind (·.get? ends.2)

/-- The edges of one parent with the keys of their ends. -/
def linksFrom (parent : String) (targets : Table String Edge) : List ((String × String) × Edge) :=
  targets.entries.map fun e => ((parent, e.1), e.2)

/-- The edges with the keys of their ends. -/
def links (g : Graph) : List ((String × String) × Edge) :=
  g.edges.entries.flatMap fun e => linksFrom e.1 e.2

theorem mem_links_iff {g : Graph} {ends : String × String} {e : Edge} :
    (ends, e) ∈ g.links ↔ g.edge? ends = some e := by
  rw [edge?, Option.bind_eq_some_iff]
  simp only [links, linksFrom, List.mem_flatMap, List.mem_map, Table.get?_eq_some_iff]
  constructor
  · rintro ⟨targets, htargets, target, htarget, ⟨⟩⟩
    exact ⟨targets.2, htargets, htarget⟩
  · rintro ⟨targets, htargets, htarget⟩
    exact ⟨(ends.1, targets), htargets, (ends.2, e), htarget, rfl⟩

/-- The edges stand in the order of their parents' keys, and with one parent in that of the
children's keys. -/
theorem linkLt_links (g : Graph) :
    g.links.Pairwise fun a b => Prod.Lex KeyLt KeyLt a.1 b.1 := by
  apply List.pairwise_flatMap.2
  constructor
  · intro e _
    exact List.pairwise_map.2 (e.2.keyLt_entries.imp (Prod.Lex.right e.1))
  · refine g.edges.keyLt_entries.imp ?_
    intro e e' hlt a ha b hb
    obtain ⟨f, -, rfl⟩ := List.mem_map.1 ha
    obtain ⟨f', -, rfl⟩ := List.mem_map.1 hb
    exact Prod.Lex.left f.1 f'.1 hlt

end Document.Graph

end Translit
