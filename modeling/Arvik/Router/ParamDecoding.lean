import Arvik.Foundation.PercentPieces
import Arvik.Router.Params

/-!
# Decoding of path parameters

What the decoding of a captured value does with the pieces of the value: an escape is decoded once
if it stands for none of the characters that would change the structure of a path or of a log, and
everything else is kept. So those characters come from the value itself, and an encoding of a text
without them is decoded to that text (`percentDecode_pieces`).

The source is a loop over bytes that looks ahead by two. It is compared with the cut of the value
into pieces (`percentDecodeBytes_of_cut`), by an induction on the cut, and from then on the loop
does not occur: there is one cut for each value, and what a decoder does is a map over its pieces.
Text and bytes are two levels here. The structural characters are ASCII, so a character of the text
is found among the bytes where it is found in the text (`filter_isStructural`), also between the
bytes of other characters.
-/

open Percent

/-- The characters no escape of which is decoded. -/
def isStructural (c : Char) : Bool :=
  c ∈ ['/', '\\', '\x00', '\n', '\r']

/-- What the value of a parameter is decoded to, before it is read as text. -/
def decodedPieces (pieces : List Piece) : Bytes :=
  pieces.flatMap (Piece.decodeExcept keepsEscape)

theorem percentDecodeBytes_cons {b : UInt8} {bytes : Bytes}
    (h : ∀ high low rest, bytes = high :: low :: rest → escape? b high low = none) :
    percentDecodeBytes (b :: bytes) = b :: percentDecodeBytes bytes := by
  rcases bytes with - | ⟨high, - | ⟨low, rest⟩⟩
  · rfl
  · rfl
  · rw [percentDecodeBytes, h high low rest rfl]

theorem decodedPieces_cons (piece : Piece) (pieces : List Piece) :
    decodedPieces (piece :: pieces) = piece.decodeExcept keepsEscape ++ decodedPieces pieces :=
  List.flatMap_cons

/-- The loop over the bytes decodes the pieces. -/
theorem percentDecodeBytes_of_cut {pieces : List Piece} {bytes : Bytes} (h : Cut pieces bytes) :
    percentDecodeBytes bytes = decodedPieces pieces := by
  induction h with
  | nil => rfl
  | byte hnone hrest ih =>
    rw [percentDecodeBytes_cons hnone, ih]
    rfl
  | @escape high low b pieces _ hescape hrest ih =>
    rw [percentDecodeBytes, hescape]
    show (if keepsEscape b then 37 :: high :: low :: percentDecodeBytes _
      else b :: percentDecodeBytes _) = _
    rw [ih, decodedPieces_cons, Piece.decodeExcept]
    split
    · rfl
    · rfl

theorem percentDecodeBytes_of_not_mem {bytes : Bytes} (h : 37 ∉ bytes) :
    percentDecodeBytes bytes = bytes := by
  induction bytes with
  | nil => rfl
  | cons b bytes ih =>
    obtain ⟨hb, hbytes⟩ := List.ne_and_not_mem_of_not_mem_cons h
    rw [percentDecodeBytes_cons fun _ _ _ _ ↦ escape?_of_ne hb.symm _ _, ih hbytes]

/-- The value is the decoded pieces as a text, or else the input. -/
theorem percentDecode_of_cut {pieces : List Piece} {input : Str}
    (h : Cut pieces (Text.utf8 input)) :
    percentDecode input = (Text.fromUtf8 (decodedPieces pieces)).getD input := by
  rw [percentDecode, ← percentDecodeBytes_of_cut h]
  split
  · rfl
  · next hnone =>
    -- Nothing is looked at without a percent sign, and nothing would be decoded.
    have hpercent : 37 ∉ Text.utf8 input := fun hmem ↦ hnone (List.contains_iff_mem.2 hmem)
    rw [percentDecodeBytes_of_not_mem hpercent, Text.fromUtf8_utf8, Option.getD_some]

theorem keepsEscape_iff {b : UInt8} : keepsEscape b ↔ b ∈ [47, 92, 0, 10, 13] := by
  simp [keepsEscape, or_assoc]

theorem keepsEscape_of_hexVal {b : UInt8} (h : (hexVal b).isSome) : keepsEscape b = false := by
  have hnone : [47, 92, 0, 10, 13].all fun b ↦ (hexVal b).isNone := by decide
  refine Bool.eq_false_iff.2 fun hkeep ↦ ?_
  have hdigit := List.all_eq_true.1 hnone b (keepsEscape_iff.1 hkeep)
  rw [Option.isNone_iff_eq_none.1 hdigit] at h
  cases h

/-- The structural bytes of a character are those of the structural characters. -/
theorem filter_utf8EncodeChar (c : Char) :
    ((String.utf8EncodeChar c).filter keepsEscape).map (fun b ↦ Char.ofNat b.toNat) =
      [c].filter isStructural := by
  have hascii : ∀ n : Fin 128,
      keepsEscape (UInt8.ofNat n.1) = isStructural (Char.ofNat n.1) := by
    decide
  rcases Nat.lt_or_ge c.toNat 128 with hlt | hle
  · have hchar := hascii ⟨c.toNat, hlt⟩
    rw [Char.ofNat_toNat] at hchar
    rw [Text.utf8EncodeChar_of_ascii hlt, List.filter_singleton, List.filter_singleton, hchar]
    rcases isStructural c with - | -
    · rfl
    · rw [cond_true, cond_true, List.map_singleton, Text.toNat_ofNat_of_ascii hlt,
        Char.ofNat_toNat]
  · have hnone : ∀ b ∈ String.utf8EncodeChar c, ¬ keepsEscape b = true := by
      intro b hb hkeep
      have hsmall : ([47, 92, 0, 10, 13] : Bytes).all (·.toNat < 128) := by decide
      have hlt := of_decide_eq_true (List.all_eq_true.1 hsmall b (keepsEscape_iff.1 hkeep))
      have hbyte := Text.le_of_mem_utf8EncodeChar hle hb
      omega
    have hchar : ¬ isStructural c = true := by
      intro hmem
      have hsmall : ['/', '\\', '\x00', '\n', '\r'].all (·.toNat < 128) := by decide
      have hlt := of_decide_eq_true (List.all_eq_true.1 hsmall c (of_decide_eq_true hmem))
      omega
    rw [List.filter_eq_nil_iff.2 hnone, List.filter_cons_of_neg hchar]
    rfl

/-- The structural characters of a text are the structural bytes of its encoding. -/
theorem filter_isStructural (s : Str) :
    s.filter isStructural =
      ((Text.utf8 s).filter keepsEscape).map fun b ↦ Char.ofNat b.toNat := by
  induction s with
  | nil => rfl
  | cons c s ih =>
    have hcons := List.filter_append (p := isStructural) [c] s
    have hbytes : Text.utf8 (c :: s) = String.utf8EncodeChar c ++ Text.utf8 s := rfl
    rw [hbytes, List.filter_append, List.map_append, filter_utf8EncodeChar, ← ih]
    exact hcons

theorem filter_percentDecode (input : Str) :
    (percentDecode input).filter isStructural = input.filter isStructural := by
  obtain ⟨pieces, hcut⟩ := exists_cut (Text.utf8 input)
  rw [percentDecode_of_cut hcut]
  rcases htext : Text.fromUtf8 (decodedPieces pieces) with - | text
  · rfl
  · have hbytes := hcut.filter_decodeExcept rfl fun _ ↦ keepsEscape_of_hexVal
    rw [Option.getD_some, filter_isStructural, filter_isStructural,
      ← Text.fromUtf8_eq_some_iff.1 htext, decodedPieces, hbytes]

/-- **Decoding of path parameters**: a value is cut in one way into escapes and bytes that stand for
themselves; every escape is decoded once unless it stands for a structural character, and what is
not text then stays as it was. The structural characters of the result are those of the value, and
a text without them is what each of its encodings is decoded to. -/
theorem percentDecode_pieces :
    (∀ input, ∃ pieces, Cut pieces (Text.utf8 input) ∧
      (∀ others, Cut others (Text.utf8 input) → others = pieces) ∧
      (∀ text, Text.utf8 text = decodedPieces pieces → percentDecode input = text) ∧
      ((∀ text, Text.utf8 text ≠ decodedPieces pieces) → percentDecode input = input)) ∧
    (∀ input, (percentDecode input).filter isStructural = input.filter isStructural) ∧
    ∀ text input, (∀ c ∈ text, isStructural c = false) →
      Encodes (Text.utf8 text) (Text.utf8 input) → percentDecode input = text := by
  refine ⟨fun input ↦ ?_, filter_percentDecode, fun text input htext hencodes ↦ ?_⟩
  · obtain ⟨pieces, hcut⟩ := exists_cut (Text.utf8 input)
    refine ⟨pieces, hcut, fun others ↦ hcut.unique, fun text htext ↦ ?_, fun hnone ↦ ?_⟩
    · rw [percentDecode_of_cut hcut, ← htext, Text.fromUtf8_utf8, Option.getD_some]
    · rw [percentDecode_of_cut hcut]
      rcases htext : Text.fromUtf8 (decodedPieces pieces) with - | text
      · rfl
      · exact absurd (Text.fromUtf8_eq_some_iff.1 htext).symm (hnone text)
  · have hfilter : text.filter isStructural = [] :=
      List.filter_eq_nil_iff.2 fun c hc ↦ Bool.eq_false_iff.1 (htext c hc)
    rw [filter_isStructural, List.map_eq_nil_iff, List.filter_eq_nil_iff] at hfilter
    have hkeep : ∀ b ∈ Text.utf8 text, keepsEscape b = false := fun b hb ↦
      Bool.eq_false_iff.2 (hfilter b hb)
    obtain ⟨pieces, hcut, hpieces⟩ := hencodes.exists_cut hkeep
    rw [percentDecode_of_cut hcut, decodedPieces, hpieces, Text.fromUtf8_utf8, Option.getD_some]

/-- A text in which one byte was left as it is, and digits of either case. -/
theorem percentDecode_pieces_encoding : percentDecode "a%c3%AF%25".toList = "aï%".toList := by
  have hencodes : Encodes [97, 0xC3, 0xAF, 37] [97, 37, 99, 51, 37, 65, 70, 37, 50, 53] :=
    .byte (by decide) (.escape (by decide) (.escape (by decide) (.escape (by decide) .nil)))
  have hplain : "aï%".toList.filter isStructural = [] := by decide
  exact percentDecode_pieces.2.2 _ _
    (fun c hc ↦ Bool.eq_false_iff.2 (List.filter_eq_nil_iff.1 hplain c hc)) hencodes

example : percentDecode "a%2Fb%2541".toList = "a%2Fb%41".toList := by decide
