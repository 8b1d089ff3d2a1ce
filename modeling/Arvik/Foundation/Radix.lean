import Arvik.Foundation.Text
import Mathlib.Data.Nat.Digits.Defs

/-!
# Numerals to a radix

The integer parsers of a standard library read a numeral to any radix up to 36 into a machine word:
letters of either case are digits, one plus sign may stand in front, and every step of the
accumulation is checked (`fromStrRadix`). What they read is the number of the digits (`number`),
provided that it fits into the word (`fromStrRadix_eq_some_iff`).

An accumulation that is checked at every step refuses exactly what does not fit at the end, because
no step makes the number smaller; so the word occurs in the statement once, and the digits behind it
are an ordinary sum.

Where only one spelling of a number is meant, the parsers are more lenient than that:
`fromStrRadix_strict_iff` says by what for hexadecimal numerals in lower case. The difference is a
predicate on characters, the sign and the letters in upper case, and a text without these is read if
and only if it is meant.
-/

namespace Radix

/-! ### Digits -/

/-- What a character counts: the decimal digits, and then the letters of either case. -/
def digitValue (c : Char) : Option ℕ :=
  if 48 ≤ c.toNat ∧ c.toNat ≤ 57 then some (c.toNat - 48)
  else if 97 ≤ c.toNat ∧ c.toNat ≤ 122 then some (c.toNat - 87)
  else if 65 ≤ c.toNat ∧ c.toNat ≤ 90 then some (c.toNat - 55)
  else none

/-- The digit a character is to a radix. -/
def toDigit (radix : ℕ) (c : Char) : Option ℕ :=
  (digitValue c).filter (· < radix)

/-- A character that is a digit to a radix. -/
def isDigit (radix : ℕ) (c : Char) : Bool :=
  (toDigit radix c).isSome

/-- The number of a text of digits, the most significant one first. -/
def number (radix : ℕ) (s : Str) : ℕ :=
  Nat.ofDigits radix (s.reverse.map fun c ↦ (toDigit radix c).getD 0)

theorem toDigit_lt {radix d : ℕ} {c : Char} (h : toDigit radix c = some d) : d < radix :=
  of_decide_eq_true (Option.filter_eq_some_iff.1 h).2

theorem number_cons (radix : ℕ) (c : Char) (s : Str) :
    number radix (c :: s) =
      number radix s + radix ^ s.length * (toDigit radix c).getD 0 := by
  rw [number, List.reverse_cons, List.map_append, Nat.ofDigits_append, List.map_singleton,
    Nat.ofDigits_singleton, List.length_map, List.length_reverse, number]

/-- A text of digits stays below the power of the radix that has as many zeros. -/
theorem number_lt {radix : ℕ} (hradix : 1 < radix) (s : Str) :
    number radix s < radix ^ s.length := by
  have hdigits : ∀ d ∈ s.reverse.map (fun c ↦ (toDigit radix c).getD 0), d < radix := by
    intro d hd
    obtain ⟨c, -, rfl⟩ := List.mem_map.1 hd
    rcases hc : toDigit radix c with - | d
    · exact Nat.zero_lt_of_lt hradix
    · exact toDigit_lt hc
  have hlt := Nat.ofDigits_lt_base_pow_length hradix hdigits
  rwa [List.length_map, List.length_reverse] at hlt

/-- Zero is written with the digit zero alone. -/
theorem number_eq_zero_iff {radix : ℕ} (hradix : 0 < radix) {s : Str} :
    number radix s = 0 ↔ ∀ c ∈ s, (toDigit radix c).getD 0 = 0 := by
  induction s with
  | nil => exact iff_of_true rfl fun _ hc ↦ absurd hc List.not_mem_nil
  | cons c s ih =>
    have hpow : radix ^ s.length ≠ 0 := (Nat.pow_pos hradix).ne'
    rw [number_cons, Nat.add_eq_zero_iff, ih, Nat.mul_eq_zero, or_iff_right hpow,
      List.forall_mem_cons, and_comm]

/-! ### The parser -/

/-- A number, if it fits into a word of `w` bits. -/
def checked (w n : ℕ) : Option ℕ :=
  if n < 2 ^ w then some n else none

/-- The digits are read one after another behind a number that is read already. -/
def readDigits (radix w : ℕ) : ℕ → Str → Option ℕ
  | n, [] => some n
  | n, c :: s =>
    (toDigit radix c).bind fun d ↦
      (checked w (n * radix)).bind fun shifted ↦
        (checked w (shifted + d)).bind fun n ↦ readDigits radix w n s

/-- A text without the plus sign in front of it. -/
def unsigned (s : Str) : Str :=
  (Text.stripPrefix ['+'] s).getD s

/-- A numeral as an unsigned word of `w` bits. -/
def fromStrRadix (radix w : ℕ) (s : Str) : Option ℕ :=
  if unsigned s = [] then none else readDigits radix w 0 (unsigned s)

example : fromStrRadix 16 8 "+fF".toList = some 255 ∧ fromStrRadix 16 8 "100".toList = none ∧
    fromStrRadix 16 8 "-0".toList = none := by
  decide

theorem checked_eq_some_iff {w n m : ℕ} : checked w n = some m ↔ n < 2 ^ w ∧ n = m := by
  rw [checked, Option.ite_none_right_eq_some, Option.some_inj]

/-- What is read is the number of the digits, put behind the number that is read already. -/
theorem readDigits_eq_some_iff {radix w n m : ℕ} (hradix : 0 < radix) {s : Str}
    (hn : n < 2 ^ w) :
    readDigits radix w n s = some m ↔
      (∀ c ∈ s, isDigit radix c) ∧ number radix s + radix ^ s.length * n = m ∧ m < 2 ^ w := by
  induction s generalizing n with
  | nil =>
    show some n = some m ↔ _
    have hvalue : number radix [] + radix ^ ([] : Str).length * n = n := by
      rw [List.length_nil, pow_zero, one_mul]
      exact Nat.zero_add n
    rw [Option.some_inj, hvalue]
    exact ⟨fun h ↦ ⟨fun _ hc ↦ absurd hc List.not_mem_nil, h, h ▸ hn⟩, fun h ↦ h.2.1⟩
  | cons c s ih =>
    rw [List.forall_mem_cons, isDigit, number_cons, readDigits]
    rcases toDigit radix c with - | d
    · simp
    · -- the number of the digits that remain is added to what the word holds by now
      have hvalue : number radix s + radix ^ s.length * d + radix ^ (c :: s).length * n =
          number radix s + radix ^ s.length * (n * radix + d) := by
        rw [List.length_cons, pow_succ]
        ring
      simp only [Option.isSome_some, true_and, Option.getD_some, hvalue, Option.bind_some,
        Option.bind_eq_some_iff, checked_eq_some_iff]
      constructor
      · rintro ⟨_, ⟨-, rfl⟩, _, ⟨hd, rfl⟩, hread⟩
        exact (ih hd).1 hread
      · rintro ⟨hdigits, hm, hlt⟩
        -- nothing read so far is greater than the number in the end
        have hle : n * radix + d ≤ m := by
          have hpow : 1 ≤ radix ^ s.length := Nat.pow_pos hradix
          calc n * radix + d ≤ radix ^ s.length * (n * radix + d) := Nat.le_mul_of_pos_left _ hpow
            _ ≤ m := by omega
        have hd : n * radix + d < 2 ^ w := Nat.lt_of_le_of_lt hle hlt
        exact ⟨_, ⟨by omega, rfl⟩, _, ⟨hd, rfl⟩, (ih hd).2 ⟨hdigits, hm, hlt⟩⟩

/-- A numeral is read as the number of its digits, if that fits into the word. -/
theorem fromStrRadix_eq_some_iff {radix w m : ℕ} (hradix : 0 < radix) {s : Str} :
    fromStrRadix radix w s = some m ↔
      unsigned s ≠ [] ∧ (∀ c ∈ unsigned s, isDigit radix c) ∧
        number radix (unsigned s) = m ∧ m < 2 ^ w := by
  rw [fromStrRadix, Option.ite_none_left_eq_some,
    readDigits_eq_some_iff hradix (Nat.pow_pos (by decide)), Nat.mul_zero, Nat.add_zero]

/-- What is read fits into the word. -/
theorem fromStrRadix_lt {radix w m : ℕ} (hradix : 0 < radix) {s : Str}
    (h : fromStrRadix radix w s = some m) : m < 2 ^ w :=
  ((fromStrRadix_eq_some_iff hradix).1 h).2.2.2

theorem unsigned_of_head {c : Char} (hc : c ≠ '+') (s : Str) : unsigned (c :: s) = c :: s := by
  rw [unsigned, Text.stripPrefix, if_neg hc.symm]
  rfl

/-! ### Hexadecimal numerals in lower case -/

/-- The decimal digits and the letters from `a` to `f`. -/
def isLowerHexDigit (c : Char) : Bool :=
  (48 ≤ c.toNat && c.toNat ≤ 57) || (97 ≤ c.toNat && c.toNat ≤ 102)

/-- A text of `n` hexadecimal digits in lower case. -/
def IsLowerHex (n : ℕ) (s : Str) : Prop :=
  s.length = n ∧ ∀ c ∈ s, isLowerHexDigit c

instance (n : ℕ) (s : Str) : Decidable (IsLowerHex n s) :=
  decidable_of_iff (s.length = n ∧ s.all isLowerHexDigit) (and_congr_right' List.all_eq_true)

/-- What the parser takes and a lower-case numeral does not: a sign, and letters in upper case. -/
def isLenient (c : Char) : Bool :=
  c = '+' || (65 ≤ c.toNat && c.toNat ≤ 90)

theorem isDigit_sixteen_iff {c : Char} :
    isDigit 16 c ↔ 48 ≤ c.toNat ∧ c.toNat ≤ 57 ∨ 97 ≤ c.toNat ∧ c.toNat ≤ 102 ∨
      65 ≤ c.toNat ∧ c.toNat ≤ 70 := by
  rw [isDigit, toDigit, Option.isSome_filter, digitValue]
  split_ifs
  · rw [Option.any_some, decide_eq_true_eq]
    omega
  · rw [Option.any_some, decide_eq_true_eq]
    omega
  · rw [Option.any_some, decide_eq_true_eq]
    omega
  · exact iff_of_false Bool.false_ne_true (by omega)

/-- The digits in lower case are the digits that are not lenient. -/
theorem isLowerHexDigit_iff {c : Char} :
    isLowerHexDigit c ↔ isDigit 16 c ∧ isLenient c = false := by
  have hplus : c = '+' ↔ c.toNat = 43 := (Char.toNat_inj (c := c) (d := '+')).symm
  rw [isDigit_sixteen_iff, isLowerHexDigit, isLenient]
  simp only [Bool.or_eq_true, Bool.and_eq_true, decide_eq_true_eq, Bool.or_eq_false_iff,
    Bool.and_eq_false_iff, decide_eq_false_iff_not, hplus]
  omega

/-- Only the digit zero counts nothing. -/
theorem getD_toDigit_eq_zero_iff {c : Char} (h : isLowerHexDigit c) :
    (toDigit 16 c).getD 0 = 0 ↔ c = '0' := by
  have hzero : c = '0' ↔ c.toNat = 48 := (Char.toNat_inj (c := c) (d := '0')).symm
  rw [hzero, toDigit, digitValue]
  simp only [isLowerHexDigit, Bool.or_eq_true, Bool.and_eq_true, decide_eq_true_eq] at h
  rcases h with h | h
  · rw [if_pos h, Option.filter_some, if_pos (decide_eq_true (by omega)), Option.getD_some]
    omega
  · rw [if_neg (by omega), if_pos (by omega), Option.filter_some,
      if_pos (decide_eq_true (by omega)), Option.getD_some]
    omega

/-- Without lenient characters there is no sign. -/
theorem unsigned_of_strict {s : Str} (h : ∀ c ∈ s, isLenient c = false) : unsigned s = s := by
  rcases s with - | ⟨c, s⟩
  · rfl
  · refine unsigned_of_head ?_ s
    rintro rfl
    exact absurd (h '+' List.mem_cons_self) (by decide)

/-- What has no lenient characters is read exactly if it is a numeral in lower case that fits. -/
theorem fromStrRadix_strict_iff {w m : ℕ} {s : Str} (hs : s ≠ [])
    (h : ∀ c ∈ s, isLenient c = false) :
    fromStrRadix 16 w s = some m ↔
      (∀ c ∈ s, isLowerHexDigit c) ∧ number 16 s = m ∧ m < 2 ^ w := by
  have hdigits : (∀ c ∈ s, isDigit 16 c) ↔ ∀ c ∈ s, isLowerHexDigit c :=
    forall₂_congr fun c hc ↦ by rw [isLowerHexDigit_iff, and_iff_left (h c hc)]
  rw [fromStrRadix_eq_some_iff (by decide), unsigned_of_strict h, and_iff_right hs, hdigits]

/-- A numeral in lower case is read if the word has four bits for each digit. -/
theorem fromStrRadix_of_isLowerHex {n w : ℕ} {s : Str} (h : IsLowerHex n s) (hn : 0 < n)
    (hw : 4 * n ≤ w) : fromStrRadix 16 w s = some (number 16 s) := by
  obtain ⟨rfl, hdigits⟩ := h
  have hlt : number 16 s < 2 ^ w :=
    calc number 16 s < 16 ^ s.length := number_lt (by decide) s
      _ = 2 ^ (4 * s.length) := by rw [Nat.pow_mul]
      _ ≤ 2 ^ w := Nat.pow_le_pow_right (by decide) hw
  have hstrict : ∀ c ∈ s, isLenient c = false := fun c hc ↦ (isLowerHexDigit_iff.1 (hdigits c hc)).2
  exact (fromStrRadix_strict_iff (List.ne_nil_of_length_pos hn) hstrict).2 ⟨hdigits, rfl, hlt⟩

/-- A numeral in lower case is zero exactly if all its digits are. -/
theorem number_ne_zero_iff {s : Str} (h : ∀ c ∈ s, isLowerHexDigit c) :
    number 16 s ≠ 0 ↔ ∃ c ∈ s, c ≠ '0' := by
  rw [Ne, number_eq_zero_iff (by decide)]
  have hzero : (∀ c ∈ s, (toDigit 16 c).getD 0 = 0) ↔ ∀ c ∈ s, c = '0' :=
    forall₂_congr fun c hc ↦ getD_toDigit_eq_zero_iff (h c hc)
  rw [hzero]
  push Not
  rfl

end Radix
