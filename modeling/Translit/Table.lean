/-!
# Ordered tables

A `Table κ α` is a finite map whose entries stand in strictly ascending key order, so two tables
with the same look-ups are the same value and every listing has one order.

* `get?_insert` : a look-up after an insertion;
* `mem_of_get?` : what is found is an entry;
* `get?_ofList_append` : of equal keys the last one listed wins;
* `ofList_entries` : a table is what its own entries build.
-/

namespace Translit

/-- A finite map: its entries in strictly ascending key order. -/
structure Table (κ α : Type) [Ord κ] where
  entries : List (κ × α)
  ascending : entries.Pairwise (fun a b => compare a.1 b.1 = .lt)

namespace Table

section Operations

variable {κ α : Type} [Ord κ]

instance [DecidableEq κ] [DecidableEq α] : DecidableEq (Table κ α) := fun s t =>
  decidable_of_iff (s.entries = t.entries) <| by
    cases s; cases t; simp

/-- The table without entries. -/
def empty : Table κ α := ⟨[], .nil⟩

instance : EmptyCollection (Table κ α) := ⟨empty⟩
instance : Inhabited (Table κ α) := ⟨empty⟩

/-- Puts an entry at its place in an ascending list, over an entry of the same key. -/
def insertEntry (k : κ) (v : α) : List (κ × α) → List (κ × α)
  | [] => [(k, v)]
  | e :: es =>
    match compare k e.1 with
    | .lt => (k, v) :: e :: es
    | .eq => (k, v) :: es
    | .gt => e :: insertEntry k v es

/-- The value at the first entry of a key. -/
def lookup (k : κ) : List (κ × α) → Option α
  | [] => none
  | e :: es => if compare k e.1 = .eq then some e.2 else lookup k es

/-- The value under a key. -/
def get? (t : Table κ α) (k : κ) : Option α := lookup k t.entries

/-- The keys in ascending order. -/
def keys (t : Table κ α) : List κ := t.entries.map (·.1)

/-- The number of entries. -/
def size (t : Table κ α) : Nat := t.entries.length

/-- The table with every value replaced by its image. -/
def mapValues {β : Type} (f : α → β) (t : Table κ α) : Table κ β where
  entries := t.entries.map fun e => (e.1, f e.2)
  ascending := List.pairwise_map.2 t.ascending

@[simp] theorem get?_empty (j : κ) : (empty : Table κ α).get? j = none := rfl

/-- The table of the entries that pass a test. -/
def filter (keep : κ → α → Bool) (t : Table κ α) : Table κ α where
  entries := t.entries.filter fun e => keep e.1 e.2
  ascending := t.ascending.filter _

theorem eq_of_entries {s t : Table κ α} (h : s.entries = t.entries) : s = t := by
  cases s; cases t; cases h; rfl

theorem mem_insertEntry {k : κ} {v : α} {e : κ × α} {es : List (κ × α)}
    (h : e ∈ insertEntry k v es) : e = (k, v) ∨ e ∈ es := by
  induction es with
  | nil => simpa [insertEntry] using h
  | cons d ds ih =>
    unfold insertEntry at h
    split at h <;> grind

end Operations

section Lawful

variable {κ α : Type} [Ord κ] [Std.TransOrd κ] [Std.LawfulEqOrd κ]

theorem pairwise_insertEntry (k : κ) (v : α) {es : List (κ × α)}
    (h : es.Pairwise (fun a b => compare a.1 b.1 = .lt)) :
    (insertEntry k v es).Pairwise (fun a b => compare a.1 b.1 = .lt) := by
  induction es with
  | nil => simp [insertEntry]
  | cons d ds ih =>
    rw [List.pairwise_cons] at h
    unfold insertEntry
    split
    · next hlt =>
      refine List.pairwise_cons.2 ⟨fun e he => ?_, List.pairwise_cons.2 h⟩
      rcases List.mem_cons.1 he with rfl | he
      · exact hlt
      · exact Std.TransCmp.lt_trans hlt (h.1 e he)
    · next heq =>
      have hk : k = d.1 := Std.LawfulEqCmp.eq_of_compare heq
      exact List.pairwise_cons.2 ⟨fun e he => hk ▸ h.1 e he, h.2⟩
    · next hgt =>
      refine List.pairwise_cons.2 ⟨fun e he => ?_, ih h.2⟩
      rcases mem_insertEntry he with rfl | he
      · exact Std.OrientedCmp.gt_iff_lt.1 hgt
      · exact h.1 e he

theorem lookup_insertEntry (k j : κ) (v : α) (es : List (κ × α)) :
    lookup j (insertEntry k v es) = if compare j k = .eq then some v else lookup j es := by
  induction es with
  | nil => simp [insertEntry, lookup]
  | cons d ds ih =>
    unfold insertEntry
    split
    · simp [lookup]
    · next heq =>
      have hk : k = d.1 := Std.LawfulEqCmp.eq_of_compare heq
      by_cases hj : compare j k = .eq <;> simp [lookup, ← hk, hj]
    · next hgt =>
      by_cases hd : compare j d.1 = .eq
      · have hj : j = d.1 := Std.LawfulEqCmp.eq_of_compare hd
        have hne : compare j k ≠ .eq := fun he => by
          rw [hj, Std.OrientedCmp.eq_comm] at he
          simp [he] at hgt
        simp [lookup, hd, hne]
      · simp [lookup, hd, ih]

/-- The table with a value put under a key, over the one that was there. -/
def insert (t : Table κ α) (k : κ) (v : α) : Table κ α :=
  ⟨insertEntry k v t.entries, pairwise_insertEntry k v t.ascending⟩

/-- The table of a list of entries; of equal keys the last wins. -/
def ofList (es : List (κ × α)) : Table κ α :=
  es.foldl (fun t e => t.insert e.1 e.2) empty

theorem get?_insert (t : Table κ α) (k j : κ) (v : α) :
    (t.insert k v).get? j = if compare j k = .eq then some v else t.get? j :=
  lookup_insertEntry k j v t.entries

theorem ofList_append (es : List (κ × α)) (k : κ) (v : α) :
    ofList (es ++ [(k, v)]) = (ofList es).insert k v := by
  simp [ofList]

omit [Std.TransOrd κ] in
theorem mem_of_lookup {k : κ} {v : α} {es : List (κ × α)} (h : lookup k es = some v) :
    (k, v) ∈ es := by
  induction es with
  | nil => cases h
  | cons e es ih =>
    rw [lookup] at h
    split at h
    · next heq =>
      rw [Std.LawfulEqCmp.eq_of_compare heq, ← Option.some.inj h]
      exact List.mem_cons_self
    · exact List.mem_cons_of_mem e (ih h)

omit [Std.TransOrd κ] in
/-- What is found under a key is an entry. -/
theorem mem_of_get? {t : Table κ α} {k : κ} {v : α} (h : t.get? k = some v) : (k, v) ∈ t.entries :=
  mem_of_lookup h

/-- Of equal keys the last one listed wins. -/
theorem get?_ofList_append (es : List (κ × α)) (k j : κ) (v : α) :
    (ofList (es ++ [(k, v)])).get? j = if compare j k = .eq then some v else (ofList es).get? j := by
  rw [ofList_append, get?_insert]

omit [Std.LawfulEqOrd κ] in
theorem insertEntry_of_all_lt (k : κ) (v : α) (es : List (κ × α))
    (h : ∀ e ∈ es, compare e.1 k = .lt) : insertEntry k v es = es ++ [(k, v)] := by
  induction es with
  | nil => rfl
  | cons d ds ih =>
    have hd : compare k d.1 = .gt := Std.OrientedCmp.gt_iff_lt.2 (h d (by simp))
    simp [insertEntry, hd, ih fun e he => h e (by simp [he])]

/-- A table is what its own entries build. -/
theorem ofList_entries (t : Table κ α) : ofList t.entries = t := by
  have key : ∀ (es : List (κ × α)) (s : Table κ α),
      (s.entries ++ es).Pairwise (fun a b => compare a.1 b.1 = .lt) →
      (es.foldl (fun t e => t.insert e.1 e.2) s).entries = s.entries ++ es := by
    intro es
    induction es with
    | nil => simp
    | cons d ds ih =>
      intro s h
      have hs : (s.insert d.1 d.2).entries = s.entries ++ [d] := by
        rw [List.pairwise_append] at h
        exact insertEntry_of_all_lt d.1 d.2 s.entries fun e he => h.2.2 e he d (by simp)
      rw [List.foldl_cons, ih, hs, List.append_assoc, List.singleton_append]
      rwa [hs, List.append_assoc, List.singleton_append]
  exact eq_of_entries (key t.entries empty (by simpa [empty] using t.ascending))

end Lawful

end Table

end Translit
