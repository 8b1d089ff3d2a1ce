import Arvik.Foundation.Text
import Mathlib.Data.Nat.Init

/-!
# IP addresses as text

Addresses and their canonical text: dotted decimals for version 4; for version 6 lower-case
hexadecimal groups, the longest run of at least two zero groups (the first one, if several) written
as `::`, and addresses that embed a version 4 address written with its dotted decimals.

All that is needed about the text is which characters occur in it (`isTextChar_of_mem_toText`): no
word with another letter is the text of an address. A rate limiter that writes a word where it has
no address is told apart from the addresses in this way.

The search for the longest run is written as in the standard library, with the run so far and the
run in progress as arguments, and it is not analysed: the groups that it takes out are groups all
the same, and the characters between them do not depend on where they are taken out.
-/

/-- An IP address, by its octets or by its groups. -/
inductive IpAddr
  | v4 (a b c d : UInt8)
  | v6 (groups : Vector UInt16 8)
  deriving DecidableEq

/-- An address and a port. -/
structure SocketAddr where
  ip : IpAddr
  port : UInt16
  deriving DecidableEq

namespace IpAddr

/-! ### The text of an address -/

/-- The text of a version 4 address. -/
def dotted (a b c d : UInt8) : Str :=
  Nat.toDigits 10 a.toNat ++ '.' :: Nat.toDigits 10 b.toNat ++
    '.' :: Nat.toDigits 10 c.toNat ++ '.' :: Nat.toDigits 10 d.toNat

/-- A run of groups. -/
structure Span where
  start : ℕ := 0
  len : ℕ := 0

/-- The search for the longest run of zero groups: the longest run so far, the run in progress,
and the index of the next group. -/
def longestZeros (longest current : Span) (i : ℕ) : List UInt16 → Span
  | [] => longest
  | group :: groups =>
    if group = 0 then
      let current : Span := ⟨if current.len = 0 then i else current.start, current.len + 1⟩
      longestZeros (if longest.len < current.len then current else longest) current (i + 1) groups
    else
      longestZeros longest {} (i + 1) groups

/-- Groups in hexadecimal, separated by colons. -/
def hexGroups (groups : List UInt16) : Str :=
  [':'].intercalate (groups.map fun group ↦ Nat.toDigits 16 group.toNat)

/-- The text of a version 6 address. -/
def colons (groups : List UInt16) : Str :=
  if groups.take 6 = [0, 0, 0, 0, 0, 0xffff] then
    let hi := groups.getD 6 0
    let lo := groups.getD 7 0
    "::ffff:".toList ++ dotted (hi / 256).toUInt8 hi.toUInt8 (lo / 256).toUInt8 lo.toUInt8
  else
    let zeroes := longestZeros {} {} 0 groups
    -- a single group of zeros is written out
    if 1 < zeroes.len then
      hexGroups (groups.take zeroes.start) ++ "::".toList ++
        hexGroups (groups.drop (zeroes.start + zeroes.len))
    else
      hexGroups groups

/-- The text of an address. -/
def toText : IpAddr → Str
  | v4 a b c d => dotted a b c d
  | v6 groups => colons groups.toList

/-! ### Its characters -/

/-- The characters of addresses: hexadecimal digits, colons and dots. -/
def isTextChar (c : Char) : Bool :=
  c ∈ "0123456789abcdef:.".toList

theorem isTextChar_digitChar {d : ℕ} (h : d < 16) : isTextChar (Nat.digitChar d) := by
  have hall : ∀ d : Fin 16, isTextChar (Nat.digitChar d.1) := by decide
  exact hall ⟨d, h⟩

theorem isTextChar_of_mem_toDigits {base n : ℕ} (h0 : 0 < base) (h16 : base ≤ 16) {c : Char}
    (hc : c ∈ Nat.toDigits base n) : isTextChar c := by
  obtain ⟨d, hd, rfl⟩ := Text.exists_digitChar_of_mem_toDigits h0 hc
  exact isTextChar_digitChar (Nat.lt_of_lt_of_le hd h16)

theorem isTextChar_of_mem_dotted {a b c d : UInt8} {x : Char} (h : x ∈ dotted a b c d) :
    isTextChar x := by
  have hdot : isTextChar '.' := by decide
  have hdec : ∀ {n : ℕ} {x : Char}, x ∈ Nat.toDigits 10 n → isTextChar x :=
    fun hx ↦ isTextChar_of_mem_toDigits (by decide) (by decide) hx
  simp only [dotted, List.mem_append, List.mem_cons] at h
  rcases h with ((h | rfl | h) | rfl | h) | rfl | h
  all_goals first | exact hdot | exact hdec h

theorem isTextChar_of_mem_hexGroups {groups : List UInt16} {x : Char} (h : x ∈ hexGroups groups) :
    isTextChar x := by
  rcases Text.mem_intercalate h with hsep | ⟨digits, hdigits, hx⟩
  · rw [List.mem_singleton.1 hsep]
    decide
  · obtain ⟨group, -, rfl⟩ := List.mem_map.1 hdigits
    exact isTextChar_of_mem_toDigits (by decide) (by decide) hx

/-- The text of an address consists of hexadecimal digits, colons and dots. -/
theorem isTextChar_of_mem_toText {ip : IpAddr} {x : Char} (h : x ∈ ip.toText) : isTextChar x := by
  cases ip with
  | v4 a b c d => exact isTextChar_of_mem_dotted h
  | v6 groups =>
    have hcolons : ∀ x ∈ "::".toList, isTextChar x := List.all_eq_true.1 (by decide)
    have hmapped : ∀ x ∈ "::ffff:".toList, isTextChar x := List.all_eq_true.1 (by decide)
    rw [toText, colons] at h
    split at h
    · rcases List.mem_append.1 h with hx | hx
      · exact hmapped x hx
      · exact isTextChar_of_mem_dotted hx
    · dsimp only at h
      split at h
      · rcases List.mem_append.1 h with hx | hx
        · rcases List.mem_append.1 hx with hx | hx
          · exact isTextChar_of_mem_hexGroups hx
          · exact hcolons x hx
        · exact isTextChar_of_mem_hexGroups hx
      · exact isTextChar_of_mem_hexGroups h

example : (v4 203 0 113 7).toText = "203.0.113.7".toList := by decide
example : (v6 #v[0x2001, 0xdb8, 0, 0, 1, 0, 0, 1]).toText = "2001:db8::1:0:0:1".toList := by decide

end IpAddr
