import Arvik.Core.Http

/-!
# Method filters

A bit set of methods: one bit for each of eight standard methods, and one for every other token. So
a filter cannot tell two extension methods from each other, and `any` has all nine bits and no more.

The bits are those of a `UInt16`, as in the source, but nothing above this module looks at them.
Whether a filter contains a method is one bit (`contains_fromMethod`), which makes the union of
filters a disjunction (`contains_union_fromMethod`) and filters without a common bit disjoint as
sets of methods (`not_contains_of_disjoint`). The routers are proved about with these three.
-/

/-- A set of methods. -/
structure MethodFilter where
  bits : UInt16
  deriving DecidableEq, Repr

namespace MethodFilter

def get : MethodFilter := ⟨(1 : UInt16) <<< 0⟩
def post : MethodFilter := ⟨(1 : UInt16) <<< 1⟩
def put : MethodFilter := ⟨(1 : UInt16) <<< 2⟩
def delete : MethodFilter := ⟨(1 : UInt16) <<< 3⟩
def patch : MethodFilter := ⟨(1 : UInt16) <<< 4⟩
def head : MethodFilter := ⟨(1 : UInt16) <<< 5⟩
def options : MethodFilter := ⟨(1 : UInt16) <<< 6⟩
def trace : MethodFilter := ⟨(1 : UInt16) <<< 7⟩
/-- Every method outside the eight standard ones. -/
def extension : MethodFilter := ⟨(1 : UInt16) <<< 8⟩
def any : MethodFilter := ⟨(0xFF : UInt16) ||| (1 : UInt16) <<< 8⟩
def none : MethodFilter := ⟨(0 : UInt16)⟩

/-- One filter contains another. -/
def contains (self other : MethodFilter) : Bool :=
  self.bits &&& other.bits == other.bits

/-- Both filters together. -/
def union (self other : MethodFilter) : MethodFilter :=
  ⟨self.bits ||| other.bits⟩

/-- The filter of one method. -/
def fromMethod : Method → MethodFilter
  | .get => get
  | .post => post
  | .put => put
  | .delete => delete
  | .patch => patch
  | .head => head
  | .options => options
  | .trace => trace
  | .connect => extension
  | .extension _ => extension

/-- Every method is one of `any`. -/
theorem contains_any (method : Method) : any.contains (fromMethod method) := by
  have hextension : any.contains extension := by decide
  cases method with
  | extension name => exact hextension
  | _ => decide

/-! ### Single methods -/

/-- The place of the bit of a method. -/
def bit : Method → ℕ
  | .get => 0
  | .post => 1
  | .put => 2
  | .delete => 3
  | .patch => 4
  | .head => 5
  | .options => 6
  | .trace => 7
  | .connect => 8
  | .extension _ => 8

theorem bits_fromMethod (method : Method) :
    (fromMethod method).bits.toBitVec = BitVec.twoPow 16 (bit method) := by
  cases method <;> rfl

theorem bit_lt (method : Method) : bit method < 16 := by
  cases method <;> simp [bit]

/-- A filter contains a method if it has its bit. -/
theorem contains_fromMethod (self : MethodFilter) (method : Method) :
    self.contains (fromMethod method) = self.bits.toBitVec.getLsbD (bit method) := by
  have hne : 0#16 ≠ BitVec.twoPow 16 (bit method) := by
    intro h
    have hbit := congrArg (·.getLsbD (bit method)) h
    simp [bit_lt method] at hbit
  rw [contains, Bool.eq_iff_iff, beq_iff_eq, ← UInt16.toBitVec_inj, UInt16.toBitVec_and,
    bits_fromMethod, BitVec.and_twoPow]
  split_ifs with h
  · exact iff_of_true rfl h
  · exact iff_of_false hne h

@[simp]
theorem contains_union_fromMethod (self other : MethodFilter) (method : Method) :
    (self.union other).contains (fromMethod method) =
      (self.contains (fromMethod method) || other.contains (fromMethod method)) := by
  simp only [contains_fromMethod, union, UInt16.toBitVec_or, BitVec.getLsbD_or]

@[simp]
theorem contains_none_fromMethod (method : Method) : none.contains (fromMethod method) = false := by
  rw [contains_fromMethod]
  exact BitVec.getLsbD_zero

/-- Filters without a common bit have no method in common. -/
theorem not_contains_of_disjoint {self other : MethodFilter} (h : self.bits &&& other.bits = 0)
    {method : Method} (hself : self.contains (fromMethod method)) :
    other.contains (fromMethod method) = false := by
  have hbit := congrArg (fun bits : UInt16 ↦ bits.toBitVec.getLsbD (bit method)) h
  simp only [UInt16.toBitVec_and, BitVec.getLsbD_and] at hbit
  rw [contains_fromMethod] at hself ⊢
  rw [hself, Bool.true_and] at hbit
  exact hbit.trans BitVec.getLsbD_zero

end MethodFilter
