import Arvik.Foundation.Percent

/-!
# Pieces of an escaped byte string

A byte string is cut in exactly one way into escapes and bytes that stand for themselves
(`Cut.unique`), so a decoder is described by what it does with each piece; here one that leaves the
escapes of some bytes as they are. An encoding of a byte string escapes the percent signs in it and
whatever else; it is cut into pieces that stand for the bytes (`Encodes.exists_cut`).

A cut is a derivation and not a function: a byte may stand for itself only where no escape begins.
This condition is the whole of the look-ahead, and it makes a decoder that is written as a loop
agree with its description by an induction with one case for each kind of piece. Encodings are a
relation as well, since different clients escape different bytes, and whatever is proved about them
holds for each.
-/

namespace Percent

/-- A byte that stands for itself, or an escape with the byte it stands for. -/
inductive Piece
  | byte (b : UInt8)
  | escape (high low b : UInt8)
  deriving DecidableEq

/-- What becomes of a piece where the escapes of some bytes are kept. -/
def Piece.decodeExcept (keep : UInt8 → Bool) : Piece → Bytes
  | byte b => [b]
  | escape high low b => if keep b then [37, high, low] else [b]

/-- A byte string is cut into pieces: no escape begins with a byte that stands for itself. -/
inductive Cut : List Piece → Bytes → Prop
  | nil : Cut [] []
  | byte {b : UInt8} {pieces : List Piece} {bytes : Bytes}
      (hnone : ∀ high low rest, bytes = high :: low :: rest → escape? b high low = none)
      (hrest : Cut pieces bytes) : Cut (.byte b :: pieces) (b :: bytes)
  | escape {high low b : UInt8} {pieces : List Piece} {bytes : Bytes}
      (hescape : escape? 37 high low = some b) (hrest : Cut pieces bytes) :
      Cut (.escape high low b :: pieces) (37 :: high :: low :: bytes)

theorem eq_of_escape? {b high low x : UInt8} (h : escape? b high low = some x) : b = 37 := by
  by_contra hb
  rw [escape?_of_ne hb] at h
  cases h

/-- Every byte string is cut into pieces. -/
theorem exists_cut (bytes : Bytes) : ∃ pieces, Cut pieces bytes := by
  induction bytes using decode.induct with
  | case1 b high low rest x hx ih =>
    obtain ⟨pieces, hpieces⟩ := ih
    obtain rfl := eq_of_escape? hx
    exact ⟨_, .escape hx hpieces⟩
  | case2 b high low rest hx ih =>
    obtain ⟨pieces, hpieces⟩ := ih
    refine ⟨_, .byte (fun high' low' rest' heq ↦ ?_) hpieces⟩
    obtain ⟨rfl, hcons⟩ := List.cons.inj heq
    obtain ⟨rfl, -⟩ := List.cons.inj hcons
    exact hx
  | case3 short hshort =>
    -- Too short for an escape: the bytes stand for themselves.
    rcases short with - | ⟨b, - | ⟨high, - | ⟨low, rest⟩⟩⟩
    · exact ⟨_, .nil⟩
    · exact ⟨_, .byte (fun _ _ _ heq ↦ by cases heq) .nil⟩
    · exact ⟨_, .byte (fun _ _ _ heq ↦ by cases heq)
        (.byte (fun _ _ _ heq ↦ by cases heq) .nil)⟩
    · exact absurd rfl (hshort b high low rest)

/-- **A byte string is cut in one way only.** What the first piece is can be told from the first
three bytes. -/
theorem Cut.unique {pieces others : List Piece} {bytes : Bytes} (h : Cut pieces bytes)
    (hothers : Cut others bytes) : others = pieces := by
  induction h generalizing others with
  | nil =>
    cases hothers
    rfl
  | byte hnone hrest ih =>
    cases hothers with
    | byte _ hother => rw [ih hother]
    | escape hescape _ =>
      rw [hnone _ _ _ rfl] at hescape
      cases hescape
  | escape hescape hrest ih =>
    cases hothers with
    | byte hnone _ =>
      rw [hnone _ _ _ rfl] at hescape
      cases hescape
    | escape hother hrest' =>
      rw [ih hrest', Option.some.inj (hother.symm.trans hescape)]

/-- A byte string is encoded: its percent signs are escaped, and of the other bytes any. -/
inductive Encodes : Bytes → Bytes → Prop
  | nil : Encodes [] []
  | byte {b : UInt8} {bytes encoded : Bytes} (hb : b ≠ 37) (hrest : Encodes bytes encoded) :
      Encodes (b :: bytes) (b :: encoded)
  | escape {high low b : UInt8} {bytes encoded : Bytes} (hescape : escape? 37 high low = some b)
      (hrest : Encodes bytes encoded) : Encodes (b :: bytes) (37 :: high :: low :: encoded)

/-- The pieces of an encoding stand for the bytes encoded. -/
theorem Encodes.exists_cut {keep : UInt8 → Bool} {bytes encoded : Bytes} (h : Encodes bytes encoded)
    (hkeep : ∀ b ∈ bytes, keep b = false) :
    ∃ pieces, Cut pieces encoded ∧ pieces.flatMap (Piece.decodeExcept keep) = bytes := by
  induction h with
  | nil => exact ⟨[], .nil, rfl⟩
  | @byte b _ _ hb hrest ih =>
    rw [List.forall_mem_cons] at hkeep
    obtain ⟨pieces, hcut, hpieces⟩ := ih hkeep.2
    exact ⟨_, .byte (fun _ _ _ _ ↦ escape?_of_ne hb _ _) hcut, congrArg (b :: ·) hpieces⟩
  | @escape _ _ b _ _ hescape hrest ih =>
    rw [List.forall_mem_cons] at hkeep
    obtain ⟨pieces, hcut, hpieces⟩ := ih hkeep.2
    refine ⟨_, .escape hescape hcut, ?_⟩
    rw [List.flatMap_cons, hpieces, Piece.decodeExcept, hkeep.1]
    rfl

/-- The bytes whose escapes are kept come from the places where they stand for themselves. -/
theorem Cut.filter_decodeExcept {keep : UInt8 → Bool} {pieces : List Piece} {bytes : Bytes}
    (h : Cut pieces bytes) (hpercent : keep 37 = false)
    (hdigit : ∀ b, (hexVal b).isSome → keep b = false) :
    (pieces.flatMap (Piece.decodeExcept keep)).filter keep = bytes.filter keep := by
  induction h with
  | nil => rfl
  | @byte b _ _ hnone hrest ih =>
    rw [List.flatMap_cons, List.filter_append, ih, Piece.decodeExcept]
    exact (List.filter_append [b] _).symm
  | @escape high low b _ _ hescape hrest ih =>
    rw [escape?, if_pos rfl, Option.bind_eq_some_iff] at hescape
    obtain ⟨x, hx, hmap⟩ := hescape
    obtain ⟨y, hy, -⟩ := Option.map_eq_some_iff.1 hmap
    have hhigh : keep high = false := hdigit _ (by rw [hx]; rfl)
    have hlow : keep low = false := hdigit _ (by rw [hy]; rfl)
    -- Neither the percent sign nor the digits of an escape are bytes of this kind.
    have hescaped : [37, high, low].filter keep = [] := by
      simp only [List.filter_cons, hpercent, hhigh, hlow, Bool.false_eq_true, if_false,
        List.filter_nil]
    have hdecoded : (Piece.decodeExcept keep (.escape high low b)).filter keep = [] := by
      rw [Piece.decodeExcept]
      split
      · exact hescaped
      · next hkeep => exact List.filter_eq_nil_iff.2 fun c hc ↦ List.mem_singleton.1 hc ▸ hkeep
    have hbytes := List.filter_append (p := keep) [37, high, low]
    rw [hescaped] at hbytes
    rw [List.flatMap_cons, List.filter_append, ih, hdecoded]
    exact (hbytes _).symm

end Percent
