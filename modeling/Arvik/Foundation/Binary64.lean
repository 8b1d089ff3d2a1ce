import Mathlib.Algebra.Group.Nat.Defs
import Mathlib.Data.Nat.Log

/-!
# Whole numbers in double precision

A whole number is converted to a floating-point number by rounding it to the nearest one that has 53
significant bits, and to the one whose last bit is zero where two are equally near. The result is a
whole number again, so the conversion is one from whole numbers to whole numbers (`Binary64.round`),
and no model of floating-point numbers is needed for a program that only converts counts.

The numbers with as many bits as `n` that double precision has are the multiples of a power of two,
the unit of `n` in its last place. A multiple of the unit is not changed, and up to `2 ^ 53` the
unit is one (`round_eq_self`). So what a program counts is exact as long as the counts are below
this bound; above it the error is half a unit at most, and a sum of converted numbers has to be
stated as that, since the sum of the roundings is not the rounding of the sum.
-/

namespace Binary64

/-- The quotient rounded to the nearest whole number, and to an even one where two are as near. -/
def roundHalfEven (n d : ℕ) : ℕ :=
  if d < 2 * (n % d) ∨ d = 2 * (n % d) ∧ n / d % 2 = 1 then n / d + 1 else n / d

/-- The exponent of the unit in the last of 53 places. -/
def exponent (n : ℕ) : ℕ :=
  Nat.log 2 n - 52

/-- The nearest number in double precision. -/
def round (n : ℕ) : ℕ :=
  roundHalfEven n (2 ^ exponent n) * 2 ^ exponent n

example : round (2 ^ 53 + 1) = 2 ^ 53 ∧ round (2 ^ 53 + 3) = 2 ^ 53 + 4 := by decide

theorem roundHalfEven_mul (q : ℕ) {d : ℕ} (hd : 0 < d) : roundHalfEven (q * d) d = q := by
  rw [roundHalfEven, Nat.mul_mod_left, Nat.mul_div_cancel q hd, if_neg (by omega)]

theorem round_eq_self_of_dvd {n : ℕ} (h : 2 ^ exponent n ∣ n) : round n = n := by
  obtain ⟨q, hq⟩ := h
  have hround := roundHalfEven_mul q (Nat.two_pow_pos (exponent n))
  rw [Nat.mul_comm, ← hq] at hround
  rw [round, hround, Nat.mul_comm, ← hq]

/-- Numbers up to `2 ^ 53` are kept. -/
theorem round_eq_self {n : ℕ} (h : n ≤ 2 ^ 53) : round n = n := by
  rcases h.lt_or_eq with h | rfl
  · refine round_eq_self_of_dvd ?_
    have hlog : Nat.log 2 n < 53 := Nat.log_lt_of_lt_pow' (by decide) h
    rw [exponent, Nat.sub_eq_zero_of_le (Nat.le_of_lt_succ hlog)]
    exact Nat.one_dvd n
  · decide

end Binary64
