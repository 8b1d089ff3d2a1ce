import Mathlib.Data.List.Dedup

/-!
# Ordered multimaps with a consuming iterator

A map from keys to **lists** of values, the values of one key kept in the order in which they were
appended, together with the iterator such maps are taken apart by: every value is yielded once,
grouped by key, and only the first value of a group carries the key (`Multimap.intoIter_eq`). The
order *between* groups is not fixed by the interface, and nothing below depends on it.

The interface is a class carrying its own laws. `AssocList` is one implementation, so that the laws
are known to be consistent and runs can be evaluated.

The two facts a client of the iterator needs are kept apart:

* `getAll_foldl_append`: appending a list of pairs appends exactly those pairs;
* `filterMap_named_intoIter`: what survives when the key-less items are skipped is the head of every
  group and nothing else.

Everything else is said in terms of the values of a key (`getAll`), which determine a map for all
its clients. Building a map from a list of pairs and reading it back is the filter of the list by
the key (`valuesFor`), so messages that are built from literal lists are analysed by simplification.
-/

universe u v w

/-- The items the consuming iterator yields for one key: the first value under the key, every
further value without it. -/
def groupItems {K : Type v} {V : Type w} (k : K) : List V → List (Option K × V)
  | [] => []
  | x :: xs => (some k, x) :: xs.map fun y ↦ (none, y)

/-- An ordered multimap: for each key, the list of its values in insertion order. -/
class Multimap (M : Type u) (K : outParam (Type v)) (V : outParam (Type w))
    [DecidableEq K] where
  /-- The map without entries. -/
  empty : M
  /-- Add a value after the values the key already has. -/
  append : M → K → V → M
  /-- Make a value the only value of a key. -/
  insert : M → K → V → M
  /-- Drop every value of a key. -/
  remove : M → K → M
  /-- The values of a key, in insertion order. -/
  getAll : M → K → List V
  /-- The keys that have a value, in the iterator's order. -/
  keys : M → List K
  /-- The consuming iterator. -/
  intoIter : M → List (Option K × V)
  getAll_empty : ∀ k, getAll empty k = []
  getAll_append : ∀ m k x k',
    getAll (append m k x) k' = if k' = k then getAll m k' ++ [x] else getAll m k'
  getAll_insert : ∀ m k x k',
    getAll (insert m k x) k' = if k' = k then [x] else getAll m k'
  getAll_remove : ∀ m k k',
    getAll (remove m k) k' = if k' = k then [] else getAll m k'
  keys_nodup : ∀ m, (keys m).Nodup
  mem_keys : ∀ m k, k ∈ keys m ↔ getAll m k ≠ []
  /-- Every value is yielded once, grouped by key, the key on the first of its group only. -/
  intoIter_eq : ∀ m, intoIter m = (keys m).flatMap fun k ↦ groupItems k (getAll m k)

namespace Multimap

variable {M : Type u} {K : Type v} {V : Type w} [DecidableEq K] [Multimap M K V]

attribute [simp] getAll_empty getAll_append getAll_insert getAll_remove

/-- The first value of a key. -/
def get (m : M) (k : K) : Option V :=
  (getAll m k).head?

/-- A key with at least one value. -/
def containsKey (m : M) (k : K) : Bool :=
  (getAll m k) ≠ []

/-- The values a list of pairs holds for a key, in list order. -/
def valuesFor (k : K) (items : List (K × V)) : List V :=
  items.filterMap fun p ↦ if p.1 = k then some p.2 else none

@[simp]
theorem valuesFor_nil (k : K) : valuesFor k ([] : List (K × V)) = [] :=
  rfl

theorem valuesFor_cons (k : K) (p : K × V) (items : List (K × V)) :
    valuesFor k (p :: items) = (if p.1 = k then [p.2] else []) ++ valuesFor k items := by
  by_cases h : p.1 = k <;> simp [valuesFor, h]

/-- An optional pair under another key holds no value of a key. -/
theorem valuesFor_map_toList_of_ne {k k' : K} (h : k' ≠ k) (value : Option V) :
    valuesFor k (value.map fun v ↦ (k', v)).toList = [] := by
  rcases value with - | v
  · rfl
  · simp [valuesFor_cons, h]

theorem valuesFor_append (k : K) (xs ys : List (K × V)) :
    valuesFor k (xs ++ ys) = valuesFor k xs ++ valuesFor k ys :=
  List.filterMap_append

/-- Appending pairs one by one appends, for every key, exactly its values among them. -/
theorem getAll_foldl_append (m : M) (items : List (K × V)) (k : K) :
    getAll (items.foldl (fun m p ↦ append m p.1 p.2) m) k = getAll m k ++ valuesFor k items := by
  induction items generalizing m with
  | nil => simp
  | cons p items ih =>
    rw [List.foldl_cons, ih, getAll_append, valuesFor_cons]
    by_cases h : k = p.1
    · rw [if_pos h, if_pos h.symm, List.append_assoc]
    · rw [if_neg h, if_neg (Ne.symm h), List.nil_append]

/-- A value that is appended only under a condition. -/
theorem getAll_ite_append (c : Prop) [Decidable c] (m : M) (k : K) (x : V) (k' : K) :
    getAll (if c then append m k x else m) k' =
      getAll m k' ++ if k' = k ∧ c then [x] else [] := by
  by_cases hc : c
  · rw [if_pos hc, getAll_append]
    by_cases hk : k' = k
    · rw [if_pos hk, if_pos ⟨hk, hc⟩]
    · rw [if_neg hk, if_neg fun h ↦ hk h.1, List.append_nil]
  · rw [if_neg hc, if_neg fun h ↦ hc h.2, List.append_nil]

/-- A value that is set only under a condition. -/
theorem getAll_ite_insert (c : Prop) [Decidable c] (m : M) (k : K) (x : V) (k' : K) :
    getAll (if c then insert m k x else m) k' = if k' = k ∧ c then [x] else getAll m k' := by
  by_cases hc : c
  · simp only [hc, if_true, and_true, getAll_insert]
  · rw [if_neg hc, if_neg fun h ↦ hc h.2]

/-- A value that is set only if there is one. -/
theorem getAll_elim_insert (value : Option V) (m : M) (k k' : K) :
    getAll (value.elim m (insert m k)) k' =
      if k' = k then (value.map fun v ↦ [v]).getD (getAll m k') else getAll m k' := by
  rcases value with - | v
  · exact (ite_self _).symm
  · exact getAll_insert m k v k'

/-- The pairs of a map, as the borrowing iterator visits them: the values of one key one after
another, each with the key. -/
def iter (m : M) : List (K × V) :=
  (keys m).flatMap fun k ↦ (getAll m k).map fun x ↦ (k, x)

/-- Two maps with the same keys in the same order and the same values iterate alike. -/
theorem iter_congr {m m' : M} (hkeys : keys m = keys m')
    (h : ∀ k ∈ keys m, getAll m k = getAll m' k) : iter m = iter m' := by
  rw [iter, iter, ← hkeys]
  exact List.flatMap_congr fun k hk ↦ by rw [h k hk]

/-- The map with one value. -/
theorem keys_insert_empty (k : K) (x : V) : keys (insert (empty : M) k x) = [k] := by
  have hmem : ∀ k', k' ∈ keys (insert (empty : M) k x) ↔ k' = k := fun k' ↦ by
    rw [mem_keys, getAll_insert, getAll_empty]
    by_cases hk : k' = k
    · simp [hk]
    · simp [hk]
  have hnodup := keys_nodup (insert (empty : M) k x)
  rcases hkeys : keys (insert (empty : M) k x) with - | ⟨k₁, ks⟩
  · exact absurd ((hmem k).2 rfl) (by rw [hkeys]; exact List.not_mem_nil)
  · rw [hkeys] at hmem hnodup
    obtain rfl := (hmem k₁).1 List.mem_cons_self
    rcases ks with - | ⟨k₂, ks⟩
    · rfl
    · obtain rfl := (hmem k₂).1 (List.mem_cons_of_mem _ List.mem_cons_self)
      exact absurd List.mem_cons_self (List.nodup_cons.1 hnodup).1

theorem iter_insert_empty (k : K) (x : V) : iter (insert (empty : M) k x) = [(k, x)] := by
  rw [iter, keys_insert_empty, List.flatMap_singleton, getAll_insert, if_pos rfl]
  rfl

/-! ### The consuming iterator -/

/-- The items of an iteration that carry their key. -/
def named (items : List (Option K × V)) : List (K × V) :=
  items.filterMap fun p ↦ p.1.map fun k ↦ (k, p.2)

omit [DecidableEq K] in
theorem named_groupItems (k : K) (xs : List V) :
    named (groupItems k xs) = (xs.head?.map fun x ↦ (k, x)).toList := by
  cases xs with
  | nil => rfl
  | cons x xs => simp [named, groupItems]

/-- Skipping the key-less items keeps the head of every group. -/
theorem filterMap_named_intoIter (m : M) :
    named (intoIter m) =
      (keys m).flatMap fun k ↦ ((getAll m k).head?.map fun x ↦ (k, x)).toList := by
  rw [intoIter_eq, named, List.filterMap_flatMap]
  exact List.flatMap_congr fun k _ ↦ named_groupItems k _

theorem valuesFor_flatMap_head (m : M) (k : K) {ks : List K} (hks : ks.Nodup) :
    valuesFor k (ks.flatMap fun k ↦ ((getAll m k).head?.map fun x ↦ (k, x)).toList) =
      if k ∈ ks then (getAll m k).take 1 else [] := by
  induction ks with
  | nil => rfl
  | cons j ks ih =>
    obtain ⟨hj, hnd⟩ := List.nodup_cons.1 hks
    rw [List.flatMap_cons, valuesFor_append, ih hnd]
    by_cases hkj : k = j
    · subst hkj
      rw [if_neg hj, if_pos List.mem_cons_self, List.append_nil]
      cases getAll m k with
      | nil => rfl
      | cons x xs => simp [valuesFor]
    · have hhead : valuesFor k ((getAll m j).head?.map fun x ↦ (j, x)).toList = [] := by
        cases getAll m j with
        | nil => rfl
        | cons x xs => simp [valuesFor, Ne.symm hkj]
      simp [hhead, hkj]

/-- Read back by key, the items that carry a key are the **first** value of that key alone. -/
theorem valuesFor_named_intoIter (m : M) (k : K) :
    valuesFor k (named (intoIter m)) = (getAll m k).take 1 := by
  rw [filterMap_named_intoIter, valuesFor_flatMap_head m k (keys_nodup m)]
  split
  · rfl
  · rename_i hk
    have hnil : getAll m k = [] := by
      by_contra hne
      exact hk ((mem_keys m k).2 hne)
    rw [hnil]
    rfl

end Multimap

/-! ### An implementation -/

/-- An association list read as a multimap: values in list order. -/
structure AssocList (K : Type v) (V : Type w) where
  /-- The pairs, oldest first. -/
  entries : List (K × V)
  deriving DecidableEq, Repr

namespace AssocList

variable {K : Type v} {V : Type w} [DecidableEq K]

/-- The values of a key. -/
def values (m : AssocList K V) (k : K) : List V :=
  Multimap.valuesFor k m.entries

/-- The pairs of every other key. -/
def without (m : AssocList K V) (k : K) : List (K × V) :=
  m.entries.filter fun p ↦ p.1 ≠ k

theorem valuesFor_without (m : AssocList K V) (k k' : K) :
    Multimap.valuesFor k' (m.without k) = if k' = k then [] else m.values k' := by
  obtain ⟨entries⟩ := m
  induction entries with
  | nil => simp [without, values]
  | cons p entries ih =>
    simp only [without, values] at ih ⊢
    by_cases hp : p.1 = k
    · rw [List.filter_cons_of_neg (by simpa using hp), ih, Multimap.valuesFor_cons]
      by_cases hk : k' = k
      · rw [if_pos hk, if_pos hk]
      · rw [if_neg hk, if_neg hk, if_neg (fun h ↦ hk (h.symm.trans hp)), List.nil_append]
    · rw [List.filter_cons_of_pos (by simpa using hp), Multimap.valuesFor_cons, ih,
        Multimap.valuesFor_cons]
      by_cases hk : k' = k
      · rw [if_pos hk, if_pos hk, if_neg (fun h ↦ hp (h.trans hk)), List.nil_append]
      · rw [if_neg hk, if_neg hk]

theorem mem_keys_iff (m : AssocList K V) (k : K) :
    k ∈ (m.entries.map Prod.fst).dedup ↔ m.values k ≠ [] := by
  simp [List.mem_dedup, values, Multimap.valuesFor, List.filterMap_eq_nil_iff]

instance : Multimap (AssocList K V) K V where
  empty := ⟨[]⟩
  append m k x := ⟨m.entries ++ [(k, x)]⟩
  insert m k x := ⟨m.without k ++ [(k, x)]⟩
  remove m k := ⟨m.without k⟩
  getAll := values
  keys m := (m.entries.map Prod.fst).dedup
  intoIter m := (m.entries.map Prod.fst).dedup.flatMap fun k ↦ groupItems k (m.values k)
  getAll_empty _ := rfl
  getAll_append m k x k' := by
    simp only [values, Multimap.valuesFor_append, Multimap.valuesFor_cons,
      Multimap.valuesFor_nil, List.append_nil, eq_comm (a := k)]
    split <;> simp
  getAll_insert m k x k' := by
    simp only [values, Multimap.valuesFor_append, valuesFor_without, Multimap.valuesFor_cons,
      Multimap.valuesFor_nil, List.append_nil, eq_comm (a := k)]
    split <;> simp
  getAll_remove m k k' := valuesFor_without m k k'
  keys_nodup _ := List.nodup_dedup _
  mem_keys := mem_keys_iff
  intoIter_eq _ := rfl

end AssocList
