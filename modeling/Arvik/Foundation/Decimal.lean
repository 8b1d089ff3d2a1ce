import Arvik.Foundation.Text
import Mathlib.Algebra.Group.Int.Defs

/-!
# Machine integers in decimal

How the integers of a machine type are written and read: digits, with a minus sign in front of a
negative number. The parser also takes a plus sign and leading zeros, and refuses what does not fit
into the type. What is written is read back (`IntType.parse_display`).

The types are an enumeration with a width and a sign, and a number is an integer with a range to be
in, so one proof serves for all twelve. The range of a type is used in the parser only, where it is
what makes an overflow an error.
-/

/-- The integer types of the machine. -/
inductive IntType
  | i8 | i16 | i32 | i64 | i128
  | u8 | u16 | u32 | u64 | u128
  deriving DecidableEq, Repr

namespace IntType

def bits : IntType → ℕ
  | i8 | u8 => 8
  | i16 | u16 => 16
  | i32 | u32 => 32
  | i64 | u64 => 64
  | i128 | u128 => 128

def signed : IntType → Bool
  | i8 | i16 | i32 | i64 | i128 => true
  | u8 | u16 | u32 | u64 | u128 => false

/-- The name of a type. -/
def name (self : IntType) : Str :=
  (if self.signed then 'i' else 'u') :: Nat.toDigits 10 self.bits

def min (self : IntType) : ℤ :=
  if self.signed then -2 ^ (self.bits - 1) else 0

def max (self : IntType) : ℤ :=
  if self.signed then 2 ^ (self.bits - 1) - 1 else 2 ^ self.bits - 1

/-- The numbers of a type. -/
def InRange (self : IntType) (n : ℤ) : Prop :=
  self.min ≤ n ∧ n ≤ self.max

instance (self : IntType) (n : ℤ) : Decidable (self.InRange n) :=
  inferInstanceAs (Decidable (_ ∧ _))

theorem InRange.nonneg {self : IntType} {n : ℤ} (h : self.InRange n) (hself : self.signed = false) :
    0 ≤ n := by
  have hmin := h.1
  rwa [min, hself, if_neg Bool.false_ne_true] at hmin

/-- The number of a text of digits. -/
def magnitude (s : Str) : Option ℤ :=
  if s ≠ [] ∧ s.all Char.isDigit then some (Nat.ofDigitChars 10 s 0) else none

/-- The number of a text with a sign or without; only the signed types know a minus. -/
def signedMagnitude (self : IntType) : Str → Option ℤ
  | '+' :: digits => magnitude digits
  | '-' :: digits => if self.signed then (magnitude digits).map (-·) else none
  | digits => magnitude digits

/-- Read a number of a type. -/
def parse (self : IntType) (s : Str) : Option ℤ :=
  (self.signedMagnitude s).filter fun n ↦ self.InRange n

/-- Write a number. -/
def display (n : ℤ) : Str :=
  if n < 0 then '-' :: Nat.toDigits 10 n.natAbs else Nat.toDigits 10 n.natAbs

example : i8.parse "-128".toList = some (-128) ∧ i8.parse "128".toList = none ∧
    u8.parse "+007".toList = some 7 ∧ u8.parse "-0".toList = none ∧
      i64.parse "-".toList = none := by
  decide

theorem magnitude_toDigits (n : ℕ) : magnitude (Nat.toDigits 10 n) = some (n : ℤ) := by
  have hdigits : (Nat.toDigits 10 n).all Char.isDigit :=
    List.all_eq_true.2 fun _ hc ↦ Nat.isDigit_of_mem_toDigits (by decide) (by decide) hc
  rw [magnitude, if_pos ⟨Nat.toDigits_ne_nil, hdigits⟩, Nat.ofDigitChars_ten_toDigits]

/-- Digits have no sign in front. -/
theorem signedMagnitude_toDigits (self : IntType) (n : ℕ) :
    self.signedMagnitude (Nat.toDigits 10 n) = some (n : ℤ) := by
  have hdigits : ∀ c ∈ Nat.toDigits 10 n, c.isDigit := fun c hc ↦
    Nat.isDigit_of_mem_toDigits (by decide) (by decide) hc
  rw [← magnitude_toDigits n, signedMagnitude]
  · intro digits heq
    exact absurd (hdigits '+' (heq ▸ List.mem_cons_self)) (by decide)
  · intro digits heq
    exact absurd (hdigits '-' (heq ▸ List.mem_cons_self)) (by decide)

/-- What is written is read back. -/
theorem parse_display {self : IntType} {n : ℤ} (h : self.InRange n) :
    self.parse (display n) = some n := by
  have hread : self.signedMagnitude (display n) = some n := by
    rw [display]
    split_ifs with hneg
    · have hsigned : self.signed = true := by
        by_contra hself
        have := h.nonneg (Bool.eq_false_iff.2 hself)
        omega
      show (if self.signed then (magnitude _).map (-·) else none) = some n
      rw [if_pos hsigned, magnitude_toDigits, Option.map_some, Option.some_inj]
      omega
    · rw [signedMagnitude_toDigits, Option.some_inj]
      omega
  rw [parse, hread, Option.filter_some, if_pos (decide_eq_true h)]

/-- The characters of a number are digits and the minus sign. -/
theorem of_mem_display {n : ℤ} {c : Char} (h : c ∈ display n) : c = '-' ∨ c.isDigit := by
  have hdigit : c ∈ Nat.toDigits 10 n.natAbs → c.isDigit := fun hc ↦
    Nat.isDigit_of_mem_toDigits (by decide) (by decide) hc
  rw [display] at h
  split_ifs at h
  · exact (List.mem_cons.1 h).imp_right hdigit
  · exact .inr (hdigit h)

theorem display_ne_nil (n : ℤ) : display n ≠ [] := by
  rw [display]
  split_ifs
  · exact List.cons_ne_nil _ _
  · exact Nat.toDigits_ne_nil

end IntType
