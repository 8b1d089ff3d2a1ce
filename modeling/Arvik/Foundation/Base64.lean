import Arvik.Foundation.Text

/-!
# Base64

What is asked of an encoder of bytes is little: it is injective, and what it writes is printable
(`LawfulBase64Lib`). Everything that goes through a library's encoder is stated over these two laws,
which any of the usual alphabets has, with padding or without.

## The standard alphabet

The standard alphabet, with padding, is one that has them (`Base64.standard`). Three bytes are
written as four digits, and what is left at the end as two or three digits and the padding. The
decoder is the strict one: the padding has to be there, and the bits behind the last byte are zero.
What is encoded is decoded again (`decode_encode`), by induction on the groups of three, where the
bits of a group are an equation between numbers below `64 ^ 4`. So different bytes have different
encodings (`encode_injective`).

The decoder is there for this proof only. Injectivity could be shown on the encoder itself, group by
group, but an inverse is the shorter way, and it says more.
-/

/-- An encoder of bytes, as a library provides it. -/
class Base64Lib where
  encode : Bytes → Str

/-- What is documented of the encoder. -/
class LawfulBase64Lib [Base64Lib] : Prop where
  encode_injective : Function.Injective Base64Lib.encode
  visible_of_mem_encode : ∀ {bytes : Bytes} {c : Char}, c ∈ Base64Lib.encode bytes →
    32 ≤ c.toNat ∧ c.toNat < 127

namespace Base64

def alphabet : Str :=
  "ABCDEFGHIJKLMNOPQRSTUVWXYZabcdefghijklmnopqrstuvwxyz0123456789+/".toList

/-- The digit of six bits. -/
def digit (n : ℕ) : Char :=
  alphabet.getD (n % 64) '='

/-- The six bits of a digit. -/
def digitValue (c : Char) : Option ℕ :=
  if c ∈ alphabet then some (alphabet.idxOf c) else none

/-- The bytes in digits. -/
def encode : Bytes → Str
  | a :: b :: c :: rest =>
    let n := a.toNat * 65536 + b.toNat * 256 + c.toNat
    digit (n / 262144) :: digit (n / 4096) :: digit (n / 64) :: digit n :: encode rest
  | [a, b] =>
    let n := a.toNat * 65536 + b.toNat * 256
    [digit (n / 262144), digit (n / 4096), digit (n / 64), '=']
  | [a] => [digit (a.toNat * 65536 / 262144), digit (a.toNat * 65536 / 4096), '=', '=']
  | [] => []

/-- The number that two digits stand for. -/
def pairValue (c d : Char) : Option ℕ :=
  (digitValue c).bind fun x ↦ (digitValue d).map fun y ↦ x * 64 + y

/-- The bytes of a text in digits. -/
def decode : Str → Option Bytes
  | [] => some []
  | [c, d, '=', '='] =>
    (pairValue c d).bind fun n ↦ if n % 16 = 0 then some [.ofNat (n / 16)] else none
  | [c, d, e, '='] =>
    (pairValue c d).bind fun n ↦ (digitValue e).bind fun z ↦
      if z % 4 = 0 then some [.ofNat (n / 16), .ofNat (n % 16 * 16 + z / 4)] else none
  | c :: d :: e :: f :: rest =>
    (pairValue c d).bind fun n ↦ (pairValue e f).bind fun k ↦
      (decode rest).map fun bytes ↦
        .ofNat (n / 16) :: .ofNat (n % 16 * 16 + k / 256) :: .ofNat (k % 256) :: bytes
  | _ => none

example : encode [117, 115, 101, 114, 58] = "dXNlcjo=".toList ∧ encode [255] = "/w==".toList ∧
    decode "/x==".toList = none := by
  decide +kernel

private theorem digitValue_digit_fin : ∀ n : Fin 64, digitValue (digit n.1) = some n.1 := by
  decide +kernel

theorem digitValue_digit (n : ℕ) : digitValue (digit n) = some (n % 64) := by
  have h := digitValue_digit_fin ⟨n % 64, Nat.mod_lt n (by decide)⟩
  rwa [show digit (n % 64) = digit n from congrArg (alphabet.getD · '=') (Nat.mod_mod n 64)] at h

theorem pairValue_digit (m n : ℕ) :
    pairValue (digit m) (digit n) = some (m % 64 * 64 + n % 64) := by
  rw [pairValue, digitValue_digit, digitValue_digit]
  rfl

private theorem digit_visible_fin : ∀ n : Fin 64,
    digit n.1 ≠ '=' ∧ 32 ≤ (digit n.1).toNat ∧ (digit n.1).toNat < 127 := by
  decide +kernel

theorem digit_visible (n : ℕ) :
    digit n ≠ '=' ∧ 32 ≤ (digit n).toNat ∧ (digit n).toNat < 127 := by
  have h := digit_visible_fin ⟨n % 64, Nat.mod_lt n (by decide)⟩
  rwa [show digit (n % 64) = digit n from congrArg (alphabet.getD · '=') (Nat.mod_mod n 64)] at h

private theorem ofNat_toNat_of_eq {n : ℕ} {b : UInt8} (h : n = b.toNat) : UInt8.ofNat n = b := by
  rw [h, UInt8.ofNat_toNat]

/-- What is encoded is decoded again. -/
theorem decode_encode (bytes : Bytes) : decode (encode bytes) = some bytes := by
  induction bytes using encode.induct with
  | case1 a b c rest ih =>
    have ha := a.toNat_lt
    have hb := b.toNat_lt
    have hc := c.toNat_lt
    rw [encode, decode]
    · rw [pairValue_digit, Option.bind_some, pairValue_digit, Option.bind_some, ih,
        Option.map_some]
      refine congrArg some ?_
      refine congrArg₂ List.cons (ofNat_toNat_of_eq ?_) (congrArg₂ List.cons (ofNat_toNat_of_eq ?_)
        (congrArg (· :: rest) (ofNat_toNat_of_eq ?_)))
      all_goals omega
    · exact fun _ h _ ↦ absurd h (digit_visible _).1
    · exact fun h _ ↦ absurd h (digit_visible _).1
  | case2 a b =>
    have ha := a.toNat_lt
    have hb := b.toNat_lt
    rw [encode, decode]
    · rw [pairValue_digit, Option.bind_some, digitValue_digit, Option.bind_some, if_pos (by omega)]
      refine congrArg some ?_
      refine congrArg₂ List.cons (ofNat_toNat_of_eq ?_) (congrArg (· :: []) (ofNat_toNat_of_eq ?_))
      all_goals omega
    · exact fun h ↦ absurd h (digit_visible _).1
  | case3 a =>
    have ha := a.toNat_lt
    rw [encode, decode, pairValue_digit, Option.bind_some, if_pos (by omega)]
    exact congrArg some (congrArg (· :: []) (ofNat_toNat_of_eq (by omega)))
  | case4 => rfl

theorem encode_injective : Function.Injective encode := fun bytes bytes' h ↦ by
  have hdecode := congrArg decode h
  rwa [decode_encode, decode_encode, Option.some_inj] at hdecode

/-- An encoding is printable. -/
theorem visible_of_mem_encode {bytes : Bytes} {c : Char} (h : c ∈ encode bytes) :
    32 ≤ c.toNat ∧ c.toNat < 127 := by
  have hpad : 32 ≤ '='.toNat ∧ '='.toNat < 127 := by decide
  induction bytes using encode.induct with
  | case1 a b c' rest ih =>
    simp only [encode, List.mem_cons] at h
    rcases h with rfl | rfl | rfl | rfl | h
    · exact (digit_visible _).2
    · exact (digit_visible _).2
    · exact (digit_visible _).2
    · exact (digit_visible _).2
    · exact ih h
  | case2 a b =>
    simp only [encode, List.mem_cons, List.not_mem_nil, or_false] at h
    rcases h with rfl | rfl | rfl | rfl
    · exact (digit_visible _).2
    · exact (digit_visible _).2
    · exact (digit_visible _).2
    · exact hpad
  | case3 a =>
    simp only [encode, List.mem_cons, List.not_mem_nil, or_false] at h
    rcases h with rfl | rfl | rfl | rfl
    · exact (digit_visible _).2
    · exact (digit_visible _).2
    · exact hpad
    · exact hpad
  | case4 => exact absurd h List.not_mem_nil

/-- The standard alphabet as a library. -/
@[reducible]
def standard : Base64Lib := ⟨encode⟩

theorem lawful_standard : @LawfulBase64Lib standard :=
  letI := standard
  ⟨encode_injective, visible_of_mem_encode⟩

end Base64
