import Mathlib.Data.List.Basic

/-!
# Growable buffers

A buffer that is allocated with a capacity and extended slice by slice. A slice that does not fit
makes it allocate again; how much room is made then is a parameter (`grow`), since allocators
promise nothing about it. The buffer counts its reallocations, so that "the capacity was enough" can
be said of a run: a writer whose slices add up to at most the capacity never reallocates
(`extendAll_of_le`).
-/

/-- A buffer with the room it has and the number of times it was allocated again. -/
structure GrowBuffer (α : Type*) where
  items : List α
  capacity : ℕ
  reallocations : ℕ := 0

namespace GrowBuffer

variable {α : Type*}

/-- An empty buffer with some room. -/
def withCapacity (capacity : ℕ) : GrowBuffer α where
  items := []
  capacity := capacity

/-- Append a slice. `grow` is the capacity given to a buffer that has to hold a number of items. -/
def extend (grow : ℕ → ℕ) (self : GrowBuffer α) (slice : List α) : GrowBuffer α :=
  let length := self.items.length + slice.length
  if length ≤ self.capacity then { self with items := self.items ++ slice }
  else ⟨self.items ++ slice, grow length, self.reallocations + 1⟩

/-- Append slices in order. -/
def extendAll (grow : ℕ → ℕ) (self : GrowBuffer α) (slices : List (List α)) : GrowBuffer α :=
  slices.foldl (extend grow) self

variable (grow : ℕ → ℕ)

theorem extend_of_le {self : GrowBuffer α} {slice : List α}
    (h : self.items.length + slice.length ≤ self.capacity) :
    self.extend grow slice = { self with items := self.items ++ slice } :=
  if_pos h

/-- **Slices that fit together** are appended without allocating again. The policy for growing is
not asked as long as the capacity suffices, so any policy will do. -/
theorem extendAll_of_le {self : GrowBuffer α} {slices : List (List α)}
    (h : self.items.length + slices.flatten.length ≤ self.capacity) :
    self.extendAll grow slices = { self with items := self.items ++ slices.flatten } := by
  induction slices generalizing self with
  | nil =>
    rw [List.flatten_nil, List.append_nil]
    rfl
  | cons slice slices ih =>
    rw [List.flatten_cons, List.length_append, ← Nat.add_assoc] at h
    have hslice : self.items.length + slice.length ≤ self.capacity :=
      Nat.le_trans (Nat.le_add_right _ _) h
    show (self.extend grow slice).extendAll grow slices = _
    rw [extend_of_le grow hslice, ih (by rwa [List.length_append]), List.flatten_cons,
      List.append_assoc]

end GrowBuffer
