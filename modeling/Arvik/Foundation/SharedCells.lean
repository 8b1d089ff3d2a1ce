import Mathlib.Data.List.Count
import Mathlib.Logic.Function.Basic

/-!
# Shared cells

Reference-counted cells that are changed in place by their only owner, and copied first by any
other. The cells are `Counted` if the count of each is the number of handles that are held. As long
as they are, a change through one handle is not seen through another one
(`contents_makeMut_of_mem`).

The handles that are held are a list, not a set: one cell may be held several times, and its count
is the number of times it is in the list. So every operation is a statement about one list in front
of and behind it (`Counted.alloc`, `Counted.retain`, `Counted.release`, `Counted.makeMut`), and who
holds which handle is left to the user of the library. Nothing is said of cells without a handle:
they may be reused, and hold anything.
-/

/-- Cells by their addresses: what is in them, and how often they are owned. -/
structure SharedCells (α : Type) where
  contents : ℕ → α
  owners : ℕ → ℕ
  /-- The first address that is free. -/
  next : ℕ

namespace SharedCells

variable {α : Type}

/-- No cells. -/
def empty [Inhabited α] : SharedCells α where
  contents _ := default
  owners _ := 0
  next := 0

/-- A new cell, and its address. -/
def alloc (cells : SharedCells α) (value : α) : SharedCells α × ℕ :=
  ({ contents := Function.update cells.contents cells.next value
     owners := Function.update cells.owners cells.next 1
     next := cells.next + 1 }, cells.next)

/-- Another handle on a cell. -/
def retain (cells : SharedCells α) (handle : ℕ) : SharedCells α :=
  { cells with owners := Function.update cells.owners handle (cells.owners handle + 1) }

/-- A handle is given up. -/
def release (cells : SharedCells α) (handle : ℕ) : SharedCells α :=
  { cells with owners := Function.update cells.owners handle (cells.owners handle - 1) }

/-- Change a cell through a handle: in place if there is no other one, and else in a copy, which the
handle then stands for. -/
def makeMut (cells : SharedCells α) (handle : ℕ) (f : α → α) : SharedCells α × ℕ :=
  if cells.owners handle = 1 then
    ({ cells with contents := Function.update cells.contents handle (f (cells.contents handle)) },
      handle)
  else (cells.release handle).alloc (f (cells.contents handle))

/-- The counts are those of the handles that are held. -/
structure Counted (cells : SharedCells α) (handles : List ℕ) : Prop where
  owners : ∀ handle, cells.owners handle = handles.count handle
  lt_next : ∀ handle ∈ handles, handle < cells.next

variable {cells : SharedCells α} {handles : List ℕ} {handle : ℕ}

theorem Counted.perm {handles' : List ℕ} (h : cells.Counted handles)
    (hperm : handles.Perm handles') : cells.Counted handles' where
  owners handle := (h.owners handle).trans (hperm.count_eq handle)
  lt_next handle hhandle := h.lt_next handle (hperm.mem_iff.2 hhandle)

theorem counted_empty [Inhabited α] : (empty : SharedCells α).Counted [] where
  owners _ := rfl
  lt_next _ h := absurd h List.not_mem_nil

theorem Counted.next_not_mem (h : cells.Counted handles) : cells.next ∉ handles :=
  fun hmem ↦ Nat.lt_irrefl _ (h.lt_next _ hmem)

theorem Counted.alloc (h : cells.Counted handles) (value : α) :
    (cells.alloc value).1.Counted ((cells.alloc value).2 :: handles) where
  owners handle := by
    show Function.update cells.owners cells.next 1 handle = (cells.next :: handles).count handle
    rw [List.count_cons, Function.update_apply, ← h.owners]
    by_cases hhandle : handle = cells.next
    · have hzero : cells.owners cells.next = 0 :=
        (h.owners _).trans (List.count_eq_zero.2 h.next_not_mem)
      rw [hhandle, hzero]
      simp
    · rw [if_neg hhandle, if_neg (by simpa using Ne.symm hhandle), Nat.add_zero]
  lt_next handle hhandle := by
    rcases List.mem_cons.1 hhandle with rfl | hhandle
    · exact Nat.lt_succ_self _
    · exact Nat.lt_succ_of_lt (h.lt_next handle hhandle)

@[simp]
theorem contents_alloc_self (cells : SharedCells α) (value : α) :
    (cells.alloc value).1.contents (cells.alloc value).2 = value :=
  Function.update_self _ _ _

theorem contents_alloc_of_mem (h : cells.Counted handles) (hmem : handle ∈ handles) (value : α) :
    (cells.alloc value).1.contents handle = cells.contents handle := by
  have hne : handle ≠ cells.next := by
    rintro rfl
    exact h.next_not_mem hmem
  exact Function.update_of_ne hne _ _

theorem Counted.retain (h : cells.Counted handles) (hmem : handle ∈ handles) :
    (cells.retain handle).Counted (handle :: handles) where
  owners other := by
    show Function.update cells.owners handle (cells.owners handle + 1) other = _
    rw [List.count_cons, Function.update_apply, ← h.owners]
    by_cases hother : other = handle
    · rw [hother]
      simp
    · rw [if_neg hother, if_neg (by simpa using Ne.symm hother), Nat.add_zero]
  lt_next := List.forall_mem_cons.2 ⟨h.lt_next handle hmem, h.lt_next⟩

theorem Counted.release (h : cells.Counted (handle :: handles)) :
    (cells.release handle).Counted handles where
  owners other := by
    show Function.update cells.owners handle (cells.owners handle - 1) other = _
    rw [Function.update_apply, h.owners, h.owners, List.count_cons, List.count_cons]
    by_cases hother : other = handle
    · rw [hother]
      simp
    · rw [if_neg hother, if_neg (by simpa using Ne.symm hother), Nat.add_zero]
  lt_next other hmem := h.lt_next other (List.mem_cons_of_mem _ hmem)

/-- A changed cell is counted as before. -/
theorem Counted.makeMut (h : cells.Counted (handle :: handles)) (f : α → α) :
    (cells.makeMut handle f).1.Counted ((cells.makeMut handle f).2 :: handles) := by
  rw [SharedCells.makeMut]
  split_ifs
  · exact ⟨h.owners, h.lt_next⟩
  · exact h.release.alloc _

theorem contents_makeMut_self (cells : SharedCells α) (handle : ℕ) (f : α → α) :
    (cells.makeMut handle f).1.contents (cells.makeMut handle f).2 = f (cells.contents handle) := by
  rw [makeMut]
  split_ifs
  · exact Function.update_self _ _ _
  · exact contents_alloc_self _ _

/-- **A change through one handle is not seen through another one.** If there is another one, the
count says so and the contents are copied first. -/
theorem contents_makeMut_of_mem (h : cells.Counted (handle :: handles)) (f : α → α) {other : ℕ}
    (hmem : other ∈ handles) :
    (cells.makeMut handle f).1.contents other = cells.contents other := by
  rw [makeMut]
  split_ifs with hunique
  · have hne : other ≠ handle := by
      rintro rfl
      have hcount := List.count_pos_iff.2 hmem
      rw [h.owners, List.count_cons_self] at hunique
      omega
    exact Function.update_of_ne hne _ _
  · exact contents_alloc_of_mem h.release hmem _

end SharedCells
