import Arvik.Foundation.Radix

/-!
# Writing hexadecimal numerals

A number is written with hexadecimal digits in lower case, with as many of them as it needs
(`toHex`) or with zeros in front up to a length (`toHexPadded`). Either is read back by
`fromStrRadix`, as long as the number fits into the word.

The digits are those of `Nat.toDigits`, so what they stand for is an induction on the number,
sixteen at a time (`number_toHex`). Padding does not change it, and gives the length exactly where
the number has no more digits than that (`isLowerHex_toHexPadded`). The formats of trace headers use
both forms.
-/

namespace Radix

/-- A number in hexadecimal digits. -/
def toHex (n : ℕ) : Str :=
  Nat.toDigits 16 n

/-- A number in hexadecimal digits, at least so many. -/
def toHexPadded (length n : ℕ) : Str :=
  List.replicate (length - (toHex n).length) '0' ++ toHex n

example : toHexPadded 8 0xbeef = "0000beef".toList := by decide

theorem toHex_of_lt {n : ℕ} (h : n < 16) : toHex n = [Nat.digitChar n] :=
  Nat.toDigits_of_lt_base h

theorem toHex_of_le {n : ℕ} (h : 16 ≤ n) :
    toHex n = toHex (n / 16) ++ [Nat.digitChar (n % 16)] :=
  Nat.toDigits_of_base_le (by decide) h

/-- A digit below sixteen is a digit in lower case, and counts itself. -/
theorem digitChar_spec : ∀ d < 16,
    isLowerHexDigit (Nat.digitChar d) ∧ toDigit 16 (Nat.digitChar d) = some d := by
  decide

theorem isLowerHexDigit_of_mem_toHex {n : ℕ} {c : Char} (h : c ∈ toHex n) : isLowerHexDigit c := by
  obtain ⟨d, hd, rfl⟩ := Text.exists_digitChar_of_mem_toDigits (by decide) h
  exact (digitChar_spec d hd).1

theorem number_append (radix : ℕ) (s t : Str) :
    number radix (s ++ t) = number radix t + radix ^ t.length * number radix s := by
  rw [number, List.reverse_append, List.map_append, Nat.ofDigits_append, List.length_map,
    List.length_reverse, number, number]

/-- The digits of a number have it for their number. -/
theorem number_toHex (n : ℕ) : number 16 (toHex n) = n := by
  induction n using Nat.strongRecOn with
  | ind n ih =>
    have hdigit : ∀ d < 16, number 16 [Nat.digitChar d] = d := fun d hd ↦ by
      rw [number_cons, (digitChar_spec d hd).2]
      show 0 + 1 * d = d
      rw [Nat.zero_add, Nat.one_mul]
    rcases Nat.lt_or_ge n 16 with hlt | hge
    · rw [toHex_of_lt hlt, hdigit n hlt]
    · rw [toHex_of_le hge, number_append, hdigit _ (Nat.mod_lt n (by decide)),
        ih _ (Nat.div_lt_self (by omega) (by decide)), List.length_singleton, pow_one]
      exact Nat.mod_add_div n 16

/-- A number is read back, if it fits into the word. -/
theorem fromStrRadix_toHex {w n : ℕ} (h : n < 2 ^ w) : fromStrRadix 16 w (toHex n) = some n := by
  refine (fromStrRadix_strict_iff Nat.toDigits_ne_nil fun c hc ↦ ?_).2
    ⟨fun c hc ↦ isLowerHexDigit_of_mem_toHex hc, number_toHex n, h⟩
  exact (isLowerHexDigit_iff.1 (isLowerHexDigit_of_mem_toHex hc)).2

/-- What is padded to a length has the length, if that is enough for the number. -/
theorem isLowerHex_toHexPadded {length n : ℕ} (hlength : 0 < length) (h : n < 16 ^ length) :
    IsLowerHex length (toHexPadded length n) := by
  have hle : (toHex n).length ≤ length := (Nat.length_toDigits_le_iff (by decide) hlength).2 h
  refine ⟨?_, fun c hc ↦ ?_⟩
  · rw [toHexPadded, List.length_append, List.length_replicate]
    omega
  · rcases List.mem_append.1 hc with hc | hc
    · rw [List.eq_of_mem_replicate hc]
      rfl
    · exact isLowerHexDigit_of_mem_toHex hc

/-- Zeros in front do not count. -/
theorem number_toHexPadded (length n : ℕ) : number 16 (toHexPadded length n) = n := by
  have hzeros : ∀ k, number 16 (List.replicate k '0') = 0 := fun k ↦
    (number_eq_zero_iff (by decide)).2 fun c hc ↦ by
      rw [List.eq_of_mem_replicate hc]
      rfl
  rw [toHexPadded, number_append, hzeros, Nat.mul_zero, Nat.add_zero, number_toHex]

/-- A padded number is read back. -/
theorem fromStrRadix_toHexPadded {length w n : ℕ} (hlength : 0 < length) (h : n < 16 ^ length)
    (hw : 4 * length ≤ w) : fromStrRadix 16 w (toHexPadded length n) = some n := by
  rw [fromStrRadix_of_isLowerHex (isLowerHex_toHexPadded hlength h) hlength hw,
    number_toHexPadded]

end Radix
