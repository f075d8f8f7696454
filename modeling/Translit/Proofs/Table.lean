import Mathlib.Data.List.Basic
import Mathlib.Data.List.Induction
import Mathlib.Logic.Function.Basic
import Translit.Table

/-!
# What is found in a table

* `get?_eq_some_iff` : what is found is the entries, for no two of them have one key;
* `get?_mapValues`, `get?_filter`, `get?_insert_eq_ite` : tables with other values, with fewer
  entries, and with one more;
* `flatMap_keys`, `filter_flatMap` : what comes of all entries, by their keys, and of the entry of
  one key among them;
* `mergeSort_of_perm` : the keys, in whatever order they are listed, sorted;
* `rename` : a table under other keys; `get?_rename` : what is found in it.
-/

namespace Translit.Table

variable {κ α β : Type} [Ord κ]

theorem lookup_map (F : α → β) (k : κ) (es : List (κ × α)) :
    lookup k (es.map fun e => (e.1, F e.2)) = (lookup k es).map F := by
  induction es with
  | nil => rfl
  | cons e es ih =>
    rw [List.map_cons, lookup, lookup, ih]
    by_cases hk : compare k e.1 = .eq <;> simp [hk]

theorem get?_mapValues (F : α → β) (t : Table κ α) (k : κ) :
    (t.mapValues F).get? k = (t.get? k).map F :=
  lookup_map F k t.entries

variable [Std.LawfulEqOrd κ]

theorem lookup_of_mem {k : κ} {v : α} {es : List (κ × α)}
    (hes : es.Pairwise fun a b => compare a.1 b.1 = .lt) (h : (k, v) ∈ es) :
    lookup k es = some v := by
  induction es with
  | nil => cases h
  | cons e es ih =>
    rw [List.pairwise_cons] at hes
    unfold lookup
    rcases List.mem_cons.1 h with rfl | h
    · exact if_pos Std.ReflCmp.compare_self
    · have hlt : compare e.1 k = .lt := hes.1 _ h
      have hself : compare e.1 e.1 = .eq := Std.ReflCmp.compare_self
      have hne : compare k e.1 ≠ .eq := by
        intro heq
        rw [Std.LawfulEqCmp.eq_of_compare heq, hself] at hlt
        cases hlt
      rw [if_neg hne]
      exact ih hes.2 h

/-- What is found under a key is the entry of the key. -/
theorem get?_eq_some_iff {t : Table κ α} {k : κ} {v : α} :
    t.get? k = some v ↔ (k, v) ∈ t.entries :=
  ⟨mem_of_get?, lookup_of_mem t.ascending⟩

/-- What comes of each entry, by the keys in their order. -/
theorem flatMap_keys (t : Table κ α) (f : κ → α → List β) :
    (t.keys.flatMap fun k => (t.get? k).elim [] (f k)) = t.entries.flatMap fun e => f e.1 e.2 := by
  rw [keys, List.flatMap_map]
  apply List.flatMap_congr
  intro e he
  rw [get?_eq_some_iff.2 he]
  rfl

theorem get?_filter (keep : κ → α → Bool) (t : Table κ α) (k : κ) :
    (t.filter keep).get? k = (t.get? k).filter (keep k) := by
  apply Option.ext
  intro v
  rw [get?_eq_some_iff, Option.filter_eq_some_iff, get?_eq_some_iff]
  show (k, v) ∈ t.entries.filter _ ↔ _
  rw [List.mem_filter]

/-- What the entries give under one key is what the entry of that key gives. -/
theorem filter_flatMap (t : Table κ α) (f : κ × α → List β) (p : β → Bool) (k : κ)
    (hkey : ∀ e, ∀ b ∈ f e, p b = true ↔ e.1 = k) :
    (t.entries.flatMap f).filter p = (t.get? k).elim [] fun v => f (k, v) := by
  obtain ⟨es, hes⟩ := t
  show (es.flatMap f).filter p = (lookup k es).elim [] fun v => f (k, v)
  induction es with
  | nil => rfl
  | cons e es ih =>
    obtain ⟨hlt, hes⟩ := List.pairwise_cons.1 hes
    rw [List.flatMap_cons, List.filter_append, lookup]
    by_cases h : compare k e.1 = .eq
    · obtain rfl : k = e.1 := Std.LawfulEqCmp.eq_of_compare h
      have hself : (f e).filter p = f e := List.filter_eq_self.2 fun b hb => (hkey e b hb).2 rfl
      have hrest : (es.flatMap f).filter p = [] := by
        apply List.filter_eq_nil_iff.2
        intro b hb hp
        obtain ⟨e', he', hb⟩ := List.mem_flatMap.1 hb
        have heq := hlt e' he'
        rw [(hkey e' b hb).1 hp, h] at heq
        cases heq
      rw [hself, hrest, if_pos h, List.append_nil]
      rfl
    · have hnone : (f e).filter p = [] := by
        apply List.filter_eq_nil_iff.2
        intro b hb hp
        apply h
        rw [(hkey e b hb).1 hp]
        exact Std.ReflCmp.compare_self
      rw [hnone, if_neg h, List.nil_append]
      exact ih hes

variable [Std.TransOrd κ]

/-- In whatever order the keys are listed, once they are sorted they are the keys in their order. -/
theorem mergeSort_of_perm {t : Table κ α} {ks : List κ} (h : ks.Perm t.keys) :
    ks.mergeSort (fun j k => (compare j k).isLE) = t.keys := by
  have hkeys : t.keys.Pairwise fun j k => (compare j k).isLE = true := by
    refine List.pairwise_map.2 (t.ascending.imp ?_)
    intro e e' hlt
    rw [hlt]
    rfl
  have hsorted : (ks.mergeSort fun j k => (compare j k).isLE).Pairwise
      fun j k => (compare j k).isLE = true := by
    apply List.pairwise_mergeSort
    · intro i j k hij hjk
      exact Std.TransCmp.isLE_trans hij hjk
    · intro j k
      cases hjk : compare j k with
      | gt =>
        rw [Std.OrientedCmp.gt_iff_lt.1 hjk]
        rfl
      | lt => rfl
      | eq => rfl
  refine ((List.mergeSort_perm ks _).trans h).eq_of_pairwise ?_ hsorted hkeys
  intro j k _ _ hjk hkj
  exact Std.LawfulEqCmp.eq_of_compare (Std.OrientedCmp.isLE_antisymm hjk hkj)

theorem get?_insert_eq_ite [DecidableEq κ] (t : Table κ α) (k j : κ) (v : α) :
    (t.insert k v).get? j = if k = j then some v else t.get? j := by
  rw [get?_insert]
  by_cases h : k = j
  · subst h
    rw [if_pos rfl, if_pos Std.ReflCmp.compare_self]
  · have hne : compare j k ≠ .eq := fun heq => h (Std.LawfulEqCmp.eq_of_compare heq).symm
    rw [if_neg h, if_neg hne]

/-- The table with its keys renamed and its values replaced by their images. -/
def rename (f : κ → κ) (F : α → β) (t : Table κ α) : Table κ β :=
  .ofList (t.entries.map fun e => (f e.1, F e.2))

/-- Under the new name of a key stands the image of what stood under the old one. -/
theorem get?_rename {f : κ → κ} (hf : Function.Injective f) (F : α → β) (t : Table κ α) (k : κ) :
    (t.rename f F).get? (f k) = (t.get? k).map F := by
  classical
  have key (es : List (κ × α)) :
      (ofList (es.map fun e => (f e.1, F e.2))).get? (f k) = ((ofList es).get? k).map F := by
    induction es using List.reverseRecOn with
    | nil => rfl
    | append_singleton es e ih =>
      obtain ⟨j, v⟩ := e
      rw [List.map_append, List.map_singleton, ofList_append, ofList_append, get?_insert_eq_ite,
        get?_insert_eq_ite, ih]
      by_cases hj : j = k
      · rw [if_pos hj, if_pos (congrArg f hj)]
        rfl
      · have hne : f j ≠ f k := fun h => hj (hf h)
        rw [if_neg hj, if_neg hne]
  rw [rename, key, ofList_entries]

end Translit.Table
