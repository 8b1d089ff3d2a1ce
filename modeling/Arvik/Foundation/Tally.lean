import Mathlib.Algebra.BigOperators.Group.List.Basic
import Mathlib.Algebra.Order.Group.Multiset
import Mathlib.Data.Nat.Cast.Basic

/-!
# Tallies

A tally keeps a total for each key that an amount was added under. Items *account* for a tally if
the total under each key is the sum of what the items contribute to it; an item contributes an
amount under one key, or nothing.

The rules say what keeps an account: an item is added (`Accounts.concat`), or an item is replaced
(`Accounts.set` and what follows it). `Accounts.total_eq_countP` and `Accounts.total_eq_under` read
an account where items count once each, and where they leave samples.

The use is an invariant of a system whose steps post to a registry: the registry is a tally, the
items are the requests that were ever taken on, and each step replaces one of them and posts one
amount or none. The amounts are of any commutative monoid, so counters, sums and multisets of
samples have the same rules; a gauge, which is also counted down, needs a group and has a rule of
its own (`Accounts.set_withdraw`).
-/

/-- Totals by key. -/
structure Tally (K M : Type*) where
  /-- The total under a key; a key has one from the first amount on, be it zero. -/
  find : K → Option M

namespace Tally

variable {K M ι α : Type*} [DecidableEq K]

/-- No key has a total. -/
def empty : Tally K M where
  find _ := none

section Totals

variable [AddCommMonoid M]

/-- The total under a key; zero if it has none. -/
def total (t : Tally K M) (k : K) : M :=
  (t.find k).getD 0

/-- Add an amount under a key. -/
def add (t : Tally K M) (k : K) (m : M) : Tally K M where
  find := Function.update t.find k (some (t.total k + m))

/-- Add the amount of an entry, if there is one. -/
def post (t : Tally K M) (entry : Option (K × M)) : Tally K M :=
  match entry with
  | some p => t.add p.1 p.2
  | none => t

/-- What an entry contributes to the total under a key. -/
def contribution (entry : Option (K × M)) (k : K) : M :=
  match entry with
  | some p => if p.1 = k then p.2 else 0
  | none => 0

@[simp]
theorem contribution_none (k : K) : contribution (none : Option (K × M)) k = 0 :=
  rfl

theorem find_add_self (t : Tally K M) (k : K) (m : M) :
    (t.add k m).find k = some (t.total k + m) :=
  Function.update_self ..

theorem find_add_of_ne (t : Tally K M) {k k' : K} (h : k' ≠ k) (m : M) :
    (t.add k m).find k' = t.find k' :=
  Function.update_of_ne h ..

@[simp]
theorem total_add (t : Tally K M) (k : K) (m : M) (k' : K) :
    (t.add k m).total k' = t.total k' + contribution (some (k, m)) k' := by
  rw [contribution]
  split
  · next h =>
    obtain rfl : k = k' := h
    rw [total, find_add_self, Option.getD_some]
  · next h => rw [total, find_add_of_ne t (Ne.symm h), add_zero, total]

@[simp]
theorem total_post (t : Tally K M) (o : Option (K × M)) (k : K) :
    (t.post o).total k = t.total k + contribution o k := by
  rcases o with - | p
  · exact (add_zero _).symm
  · exact total_add ..

/-- Only the key an amount is added under is new. -/
theorem isSome_find_add_iff {t : Tally K M} {k k' : K} {m : M} :
    ((t.add k m).find k').isSome ↔ k' = k ∨ (t.find k').isSome := by
  by_cases h : k' = k
  · rw [h, find_add_self]
    exact iff_of_true rfl (.inl rfl)
  · rw [find_add_of_ne t h]
    exact (or_iff_right h).symm

/-! ### Accounts -/

/-- The total under each key is the sum of what the items contribute. -/
def Accounts (t : Tally K M) (entry : ι → Option (K × M)) (items : List ι) : Prop :=
  ∀ k, t.total k = (items.map fun x ↦ contribution (entry x) k).sum

variable {t t' : Tally K M} {entry : ι → Option (K × M)} {items : List ι} {x x' : ι} {i : ℕ}

theorem accounts_nil : (empty : Tally K M).Accounts entry [] :=
  fun _ ↦ rfl

/-- An item is added, and what it contributes. -/
theorem Accounts.concat (h : t.Accounts entry items)
    (hstep : ∀ k, t'.total k = t.total k + contribution (entry x) k) :
    t'.Accounts entry (items ++ [x]) := by
  intro k
  rw [hstep, h k, List.map_append, List.sum_append, List.map_singleton, List.sum_singleton]

/-- An item is replaced, and what it contributes with it. -/
theorem Accounts.set [IsRightCancelAdd M] (h : t.Accounts entry items) (hx : items[i]? = some x)
    (hstep : ∀ k, t'.total k + contribution (entry x) k =
      t.total k + contribution (entry x') k) : t'.Accounts entry (items.set i x') := by
  intro k
  obtain ⟨hi, hget⟩ := List.getElem?_eq_some_iff.1 hx
  have hsplit : items = items.take i ++ x :: items.drop (i + 1) := by
    rw [← hget, List.getElem_cons_drop, List.take_append_drop]
  refine add_right_cancel (b := contribution (entry x) k) ?_
  rw [hstep, h k, List.set_eq_take_append_cons_drop, if_pos hi]
  nth_rewrite 1 [hsplit]
  simp only [List.map_append, List.sum_append, List.map_cons, List.sum_cons]
  ac_rfl

/-- An item is replaced by one that contributes the same, or that contributes what was posted when
it contributed nothing before. -/
theorem Accounts.set_post [IsRightCancelAdd M] (h : t.Accounts entry items)
    (hx : items[i]? = some x) {o : Option (K × M)}
    (ho : entry x = none ∧ entry x' = o ∨ entry x' = entry x ∧ o = none) :
    (t.post o).Accounts entry (items.set i x') := by
  refine h.set hx fun k ↦ ?_
  rcases ho with ⟨hnone, rfl⟩ | ⟨heq, rfl⟩
  · rw [total_post, hnone, contribution_none, add_zero]
  · rw [total_post, heq, contribution_none, add_zero]

/-- An item is replaced by one that contributes the same. -/
theorem Accounts.set_same [IsRightCancelAdd M] (h : t.Accounts entry items)
    (hx : items[i]? = some x) (heq : entry x' = entry x) : t.Accounts entry (items.set i x') :=
  h.set hx fun k ↦ by rw [heq]

/-- An item that contributed nothing is replaced by one that contributes what was added. -/
theorem Accounts.set_add [IsRightCancelAdd M] (h : t.Accounts entry items)
    (hx : items[i]? = some x) {k : K} {m : M} (hnone : entry x = none)
    (hentry : entry x' = some (k, m)) : (t.add k m).Accounts entry (items.set i x') :=
  h.set hx fun k' ↦ by rw [total_add, hnone, hentry, contribution_none, add_zero]

end Totals

/-- An item is replaced by one that contributes nothing, and its amount is taken back. -/
theorem Accounts.set_withdraw [AddCommGroup M] {t : Tally K M} {entry : ι → Option (K × M)}
    {items : List ι} {x x' : ι} {i : ℕ} (h : t.Accounts entry items) (hx : items[i]? = some x)
    {k : K} {m : M} (hentry : entry x = some (k, m)) (hnone : entry x' = none) :
    (t.add k (-m)).Accounts entry (items.set i x') := by
  refine h.set hx fun k' ↦ ?_
  rw [total_add, hentry, hnone, contribution_none, add_zero, add_assoc, contribution, contribution]
  split
  · rw [neg_add_cancel, add_zero]
  · rw [add_zero, add_zero]

/-! ### Reading an account -/

/-- Items that count once each, under a key of their own. -/
def once [One M] (key : ι → Option K) (x : ι) : Option (K × M) :=
  (key x).map fun k ↦ (k, 1)

/-- Items that leave one sample each, under a key of their own. -/
def sampled (sample : ι → Option (K × α)) (x : ι) : Option (K × Multiset α) :=
  (sample x).map fun p ↦ (p.1, {p.2})

/-- The samples under a key. -/
def under (sample : ι → Option (K × α)) (items : List ι) (k : K) : List α :=
  items.filterMap fun x ↦ (sample x).bind fun p ↦ if p.1 = k then some p.2 else none

/-- **The total is the number of items that count under the key.** Each of them contributes one, so
the sum is a count. -/
theorem Accounts.total_eq_countP [AddCommMonoidWithOne M] {t : Tally K M} {key : ι → Option K}
    {items : List ι} (h : t.Accounts (once key) items) (k : K) :
    t.total k = (items.countP fun x ↦ key x = some k : ℕ) := by
  rw [h k]
  clear h
  induction items with
  | nil => exact Nat.cast_zero.symm
  | cons x items ih =>
    rw [List.map_cons, List.sum_cons, ih, List.countP_cons, Nat.cast_add, add_comm, once]
    congr 1
    rcases key x with - | k'
    · simp
    · by_cases hk : k' = k
      · simp [contribution, hk]
      · simp [contribution, hk]

/-- **The total consists of the samples under the key.** As a multiset it has forgotten their order,
but not how often each value came. -/
theorem Accounts.total_eq_under {t : Tally K (Multiset α)} {sample : ι → Option (K × α)}
    {items : List ι} (h : t.Accounts (sampled sample) items) (k : K) :
    t.total k = under sample items k := by
  rw [h k]
  clear h
  induction items with
  | nil => rfl
  | cons x items ih =>
    rw [List.map_cons, List.sum_cons, ih, sampled, under, under, List.filterMap_cons]
    rcases sample x with - | p
    · exact zero_add _
    · by_cases hk : p.1 = k
      · simp [contribution, hk]
      · simp [contribution, hk]

end Tally
