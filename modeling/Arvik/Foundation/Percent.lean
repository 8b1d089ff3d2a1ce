import Arvik.Foundation.Text
import Mathlib.Data.List.Perm.Subperm
import Mathlib.Algebra.Order.BigOperators.Group.List

/-!
# Percent escapes

Decoding of `%XX` escapes in a byte string, and the encoding that escapes every byte. A percent sign
that is not followed by two hexadecimal digits stands for itself, so decoding never fails.

Decoding never lengthens a byte string, and it is the identity exactly on the strings without an
escape (`decode_eq_self_iff`); the strict decrease elsewhere (`length_decode_lt`) is what makes
decoding detectable by counting. The counting argument itself is stated for any map that shrinks
what it moves (`forall_fixed_of_onto`): where the decoded list is the list itself up to order,
nothing in it was decoded.

The encoding that escapes everything is never the one a client uses. It is here as a witness:
whatever a decoder is to produce, there is a text it produces it from, and that text has none of the
characters that would be cut at before it is decoded.
-/

namespace Percent

/-! ### Hexadecimal digits -/

/-- The value of a hexadecimal digit. -/
def hexVal (b : UInt8) : Option UInt8 :=
  if 48 ≤ b ∧ b ≤ 57 then some (b - 48)
  else if 65 ≤ b ∧ b ≤ 70 then some (b - 55)
  else if 97 ≤ b ∧ b ≤ 102 then some (b - 87)
  else none

/-- The upper-case digit of a value below sixteen. -/
def hexDigit (n : UInt8) : UInt8 :=
  if n < 10 then n + 48 else n + 55

/-- The byte an escape stands for, if the three bytes are one. -/
def escape? (b h l : UInt8) : Option UInt8 :=
  if b = 37 then
    (hexVal h).bind fun x ↦ (hexVal l).map fun y ↦ x * 16 + y
  else
    none

/-- The escape of a byte. -/
def encodeByte (b : UInt8) : Bytes :=
  [37, hexDigit (b / 16), hexDigit (b % 16)]

private theorem hexVal_hexDigit_fin :
    ∀ n : Fin 16, hexVal (hexDigit (UInt8.ofNat n.1)) = some (UInt8.ofNat n.1) := by
  decide

theorem hexVal_hexDigit {n : UInt8} (hn : n.toNat < 16) : hexVal (hexDigit n) = some n := by
  have h := hexVal_hexDigit_fin ⟨n.toNat, hn⟩
  rwa [UInt8.ofNat_toNat] at h

private theorem hexDigit_lt_fin : ∀ n : Fin 16, hexDigit (UInt8.ofNat n.1) < 128 := by
  decide

theorem hexDigit_lt {n : UInt8} (hn : n.toNat < 16) : hexDigit n < 128 := by
  have h := hexDigit_lt_fin ⟨n.toNat, hn⟩
  rwa [UInt8.ofNat_toNat] at h

theorem toNat_div_lt (b : UInt8) : (b / 16).toNat < 16 := by
  rw [UInt8.toNat_div]
  have := b.toNat_lt
  show b.toNat / 16 < 16
  omega

theorem toNat_mod_lt (b : UInt8) : (b % 16).toNat < 16 := by
  rw [UInt8.toNat_mod]
  show b.toNat % 16 < 16
  omega

/-- The escape of a byte stands for that byte. -/
theorem escape?_encodeByte (b : UInt8) :
    escape? 37 (hexDigit (b / 16)) (hexDigit (b % 16)) = some b := by
  rw [escape?, if_pos rfl, hexVal_hexDigit (toNat_div_lt b), hexVal_hexDigit (toNat_mod_lt b)]
  show some (b / 16 * 16 + b % 16) = some b
  have h : b / 16 * 16 + b % 16 = b := by
    rw [← UInt8.toNat_inj, UInt8.toNat_add, UInt8.toNat_mul, UInt8.toNat_div, UInt8.toNat_mod]
    have := b.toNat_lt
    show (b.toNat / 16 * 16 % 256 + b.toNat % 16) % 256 = b.toNat
    omega
  rw [h]

/-! ### Decoding -/

/-- The bytes with every escape replaced by the byte it stands for. -/
def decode : Bytes → Bytes
  | b :: h :: l :: rest =>
    match escape? b h l with
    | some x => x :: decode rest
    | none => b :: decode (h :: l :: rest)
  | short => short

/-- Some percent sign is followed by two hexadecimal digits. -/
def hasEscape : Bytes → Bool
  | b :: h :: l :: rest => (escape? b h l).isSome || hasEscape (h :: l :: rest)
  | _ => false

/-- Every byte escaped. -/
def encodeAll (bytes : Bytes) : Bytes :=
  bytes.flatMap encodeByte

theorem decode_of_escape {b h l x : UInt8} (rest : Bytes) (hx : escape? b h l = some x) :
    decode (b :: h :: l :: rest) = x :: decode rest := by
  rw [decode, hx]

theorem decode_of_not_escape {b h l : UInt8} (rest : Bytes) (hx : escape? b h l = none) :
    decode (b :: h :: l :: rest) = b :: decode (h :: l :: rest) := by
  rw [decode, hx]

theorem escape?_of_ne {b : UInt8} (h : b ≠ 37) (high low : UInt8) : escape? b high low = none :=
  if_neg h

theorem decode_cons_of_ne {b : UInt8} (h : b ≠ 37) (rest : Bytes) :
    decode (b :: rest) = b :: decode rest := by
  rcases rest with - | ⟨high, - | ⟨low, rest⟩⟩
  · rfl
  · rfl
  · exact decode_of_not_escape rest (escape?_of_ne h high low)

/-- Without percent signs there is nothing to decode. -/
theorem decode_of_not_mem {bytes : Bytes} (h : 37 ∉ bytes) : decode bytes = bytes := by
  induction bytes with
  | nil => rfl
  | cons b bytes ih =>
    obtain ⟨hb, hbytes⟩ := List.ne_and_not_mem_of_not_mem_cons h
    rw [decode_cons_of_ne hb.symm, ih hbytes]

/-- A byte that is neither a percent sign nor a digit cuts what is decoded. -/
theorem decode_append_cons {b : UInt8} (hb : b ≠ 37) (hdigit : hexVal b = none)
    (before after : Bytes) :
    decode (before ++ b :: after) = decode before ++ b :: decode after := by
  induction before using decode.induct with
  | case1 c high low rest x hx ih =>
    rw [decode_of_escape rest hx]
    exact (decode_of_escape _ hx).trans (congrArg (x :: ·) ih)
  | case2 c high low rest hx ih =>
    rw [decode_of_not_escape rest hx]
    exact (decode_of_not_escape _ hx).trans (congrArg (c :: ·) ih)
  | case3 short hshort =>
    -- At most two bytes stand before the separator, which is no digit of theirs.
    have hhigh : ∀ c rest, decode (c :: b :: rest) = c :: b :: decode rest := by
      intro c rest
      rcases rest with - | ⟨low, rest⟩
      · rfl
      · have hx : escape? c b low = none := by
          rw [escape?, hdigit]
          exact ite_self _
        exact (decode_of_not_escape rest hx).trans
          (congrArg (c :: ·) (decode_cons_of_ne hb (low :: rest)))
    rcases short with - | ⟨c, - | ⟨high, - | ⟨low, rest⟩⟩⟩
    · exact decode_cons_of_ne hb after
    · exact hhigh c after
    · have hx : escape? c high b = none := by
        simp [escape?, hdigit]
      exact (decode_of_not_escape after hx).trans (congrArg (c :: ·) (hhigh high after))
    · exact absurd rfl (hshort c high low rest)

/-- Decoding undoes the escaping of every byte. -/
theorem decode_encodeAll_append (bytes rest : Bytes) :
    decode (encodeAll bytes ++ rest) = bytes ++ decode rest := by
  induction bytes with
  | nil => rfl
  | cons b bytes ih =>
    rw [encodeAll, List.flatMap_cons, List.append_assoc]
    exact (decode_of_escape _ (escape?_encodeByte b)).trans (congrArg (b :: ·) ih)

theorem decode_eq_self {bytes : Bytes} (h : hasEscape bytes = false) : decode bytes = bytes := by
  induction bytes using decode.induct with
  | case1 b h' l rest x hx ih => simp [hasEscape, hx] at h
  | case2 b h' l rest hx ih =>
    rw [hasEscape, hx] at h
    rw [decode_of_not_escape rest hx, ih (by simpa using h)]
  | case3 short hshort => rw [decode]; exact hshort

theorem length_decode_le (bytes : Bytes) : (decode bytes).length ≤ bytes.length := by
  induction bytes using decode.induct with
  | case1 b h l rest x hx ih =>
    rw [decode_of_escape rest hx]
    simp only [List.length_cons] at ih ⊢
    omega
  | case2 b h l rest hx ih =>
    rw [decode_of_not_escape rest hx, List.length_cons, List.length_cons]
    exact Nat.succ_le_succ ih
  | case3 short hshort => rw [decode]; exact hshort

theorem hasEscape_cons (b : UInt8) {bytes : Bytes} (h : hasEscape bytes) :
    hasEscape (b :: bytes) := by
  rcases bytes with - | ⟨high, - | ⟨low, rest⟩⟩
  · cases h
  · cases h
  · rw [hasEscape, h, Bool.or_true]

/-- An escape makes decoding strictly shorten. -/
theorem length_decode_lt {bytes : Bytes} (h : hasEscape bytes) :
    (decode bytes).length < bytes.length := by
  induction bytes using decode.induct with
  | case1 b h' l rest x hx ih =>
    have := length_decode_le rest
    rw [decode_of_escape rest hx]
    simp only [List.length_cons]
    omega
  | case2 b h' l rest hx ih =>
    have hrest : hasEscape (h' :: l :: rest) := by simpa [hasEscape, hx] using h
    rw [decode_of_not_escape rest hx, List.length_cons, List.length_cons]
    exact Nat.succ_lt_succ (ih hrest)
  | case3 short hshort =>
    rw [hasEscape] at h
    · cases h
    · exact hshort

/-- Decoding is the identity exactly where there is no escape. -/
theorem decode_eq_self_iff {bytes : Bytes} : decode bytes = bytes ↔ hasEscape bytes = false := by
  refine ⟨fun h ↦ ?_, decode_eq_self⟩
  by_contra hesc
  have hlt := length_decode_lt (Bool.not_eq_false _ ▸ hesc)
  rw [h] at hlt
  exact lt_irrefl _ hlt

/-- The text a text stands for: its UTF-8 bytes decoded, if the result is UTF-8 again. -/
def decodeUtf8 (s : Str) : Option Str :=
  Text.fromUtf8 (decode (Text.utf8 s))

theorem decodeUtf8_eq_some_iff {s t : Str} :
    decodeUtf8 s = some t ↔ decode (Text.utf8 s) = Text.utf8 t :=
  Text.fromUtf8_eq_some_iff

/-- A text with every byte escaped. -/
def encodeText (s : Str) : Str :=
  (encodeAll (Text.utf8 s)).map fun b ↦ Char.ofNat b.toNat

/-- The escape of a byte is ASCII. -/
theorem lt_of_mem_encodeAll {bytes : Bytes} {b : UInt8} (h : b ∈ encodeAll bytes) : b < 128 := by
  obtain ⟨x, -, hx⟩ := List.mem_flatMap.1 h
  simp only [encodeByte, List.mem_cons, List.not_mem_nil, or_false] at hx
  rcases hx with rfl | rfl | rfl
  · decide
  · exact hexDigit_lt (toNat_div_lt x)
  · exact hexDigit_lt (toNat_mod_lt x)

theorem utf8_encodeText (s : Str) : Text.utf8 (encodeText s) = encodeAll (Text.utf8 s) := by
  have hnat : ∀ b ∈ encodeAll (Text.utf8 s), (Char.ofNat b.toNat).toNat = b.toNat := by
    intro b hb
    have hlt := UInt8.lt_iff_toNat_lt.1 (lt_of_mem_encodeAll hb)
    have hvalid : b.toNat.isValidChar := .inl (hlt.trans (by decide))
    rw [Char.ofNat, dif_pos hvalid]
    rfl
  have hascii : ∀ c ∈ encodeText s, c.toNat < 128 := by
    intro c hc
    obtain ⟨b, hb, rfl⟩ := List.mem_map.1 hc
    rw [hnat b hb]
    exact UInt8.lt_iff_toNat_lt.1 (lt_of_mem_encodeAll hb)
  rw [Text.utf8_of_ascii hascii, encodeText, List.map_map]
  refine (List.map_congr_left fun b hb ↦ ?_).trans (List.map_id _)
  rw [Function.comp_apply, hnat b hb, UInt8.ofNat_toNat, id]

/-- A text with every byte escaped starts with an escape. -/
theorem head?_encodeText {s : Str} (h : s ≠ []) : (encodeText s).head? = some '%' := by
  have hne : Text.utf8 s ≠ [] := fun hnil ↦ h (Text.utf8_injective (hnil.trans Text.utf8_nil.symm))
  obtain ⟨b, bytes, hbytes⟩ := List.exists_cons_of_ne_nil hne
  rw [encodeText, hbytes]
  rfl

/-- A text with every byte escaped stands for that text. -/
theorem decodeUtf8_encodeText_append (s t : Str) :
    decodeUtf8 (encodeText s ++ t) = Text.fromUtf8 (Text.utf8 s ++ decode (Text.utf8 t)) := by
  rw [decodeUtf8, Text.utf8_append, utf8_encodeText, decode_encodeAll_append]

/-- A text stands for itself exactly when it holds no escape. -/
theorem decodeUtf8_eq_self_iff {s : Str} :
    decodeUtf8 s = some s ↔ hasEscape (Text.utf8 s) = false :=
  decodeUtf8_eq_some_iff.trans decode_eq_self_iff

end Percent

/-! ### Counting -/

/-- A partial map that never grows what it maps, and strictly shrinks what it moves, moves no
element of a duplicate-free list on which it is onto. -/
theorem List.forall_fixed_of_onto {α : Type*} {D : α → Option α} {size : α → ℕ}
    (hsize : ∀ {a b}, D a = some b → size b ≤ size a ∧ (size b = size a → b = a))
    {source target : List α} (hnd : target.Nodup) (hsub : source ⊆ target) (hsnd : source.Nodup)
    (honto : ∀ b ∈ target, ∃ a ∈ source, D a = some b) :
    ∀ a ∈ target, a ∈ source ∧ D a = some a := by
  have htarget : target ⊆ source.filterMap D := fun b hb ↦
    let ⟨a, ha, hab⟩ := honto b hb
    List.mem_filterMap.2 ⟨a, ha, hab⟩
  -- By counting, nothing is lost and nothing is hit twice.
  have hlen : (source.filterMap D).length ≤ target.length :=
    (List.length_filterMap_le _ _).trans (hsnd.subperm hsub).length_le
  have himage : target.Perm (source.filterMap D) :=
    (hnd.subperm htarget).perm_of_length_le hlen
  have hperm : source.Perm target := by
    refine (hsnd.subperm hsub).perm_of_length_le ?_
    exact himage.length_eq.le.trans (List.length_filterMap_le _ _)
  -- Both lists have the same total size, and the map only ever loses size.
  have hsum : ((source.filterMap D).map size).sum = (source.map size).sum :=
    ((himage.symm.trans hperm.symm).map size).sum_eq
  have hle : ∀ xs : List α, ((xs.filterMap D).map size).sum ≤ (xs.map size).sum := by
    intro xs
    induction xs with
    | nil => exact le_refl _
    | cons x xs ih =>
      cases hx : D x with
      | none =>
        rw [List.filterMap_cons_none hx, List.map_cons, List.sum_cons]
        omega
      | some y =>
        have := (hsize hx).1
        rw [List.filterMap_cons_some hx]
        simp only [List.map_cons, List.sum_cons]
        omega
  intro a ha
  have hasrc : a ∈ source := hperm.mem_iff.2 ha
  refine ⟨hasrc, ?_⟩
  obtain ⟨b, hb⟩ : ∃ b, D a = some b := by
    -- An element without an image would leave too few of them.
    by_contra hnone
    obtain ⟨xs, ys, rfl⟩ := List.append_of_mem hasrc
    have hDa : D a = none := Option.eq_none_iff_forall_ne_some.2 fun b hb ↦ hnone ⟨b, hb⟩
    have hcount := himage.length_eq.symm.trans hperm.length_eq.symm
    rw [List.filterMap_append, List.filterMap_cons_none hDa] at hcount
    have h1 := List.length_filterMap_le D xs
    have h2 := List.length_filterMap_le D ys
    simp only [List.length_append, List.length_cons] at hcount
    omega
  obtain ⟨xs, ys, rfl⟩ := List.append_of_mem hasrc
  rw [List.filterMap_append, List.filterMap_cons_some hb] at hsum
  simp only [List.map_append, List.map_cons, List.sum_append, List.sum_cons] at hsum
  have h1 := hle xs
  have h2 := hle ys
  have h3 := (hsize hb).1
  rw [hb, (hsize hb).2 (by omega)]
