import Arvik.Foundation.UriReference
import Arvik.Static.Normalisation
import Mathlib.Data.List.Flatten

/-!
# Request paths segment by segment

A slash in a request path cuts the components it stands for: no escape reaches over it, and neither
does the encoding of a character. So a path leads down exactly if each of its segments does
(`descends_append_slash`), by the components of the segments one after the other. Only the check for
an encoded slash in front looks at the path as a whole (`relativePath_iff_segments`).

The service itself decodes the whole path and cuts it afterwards, which says what it does with one
path, but not how the paths of two directories or of a directory and its entries hang together. With
the segments it does: a path is extended by a name, and its components by what the name stands for.
Listings rest on this form, where a link is put behind the path of a page.
-/

namespace Static

/-! ### Cutting at a slash -/

theorem utf8_append_slash (s t : Str) :
    Text.utf8 (s ++ '/' :: t) = Text.utf8 s ++ 47 :: Text.utf8 t :=
  Text.utf8_append s ('/' :: t)

/-- No escape reaches over a byte that is neither a percent sign nor a digit. -/
theorem validPercentEncoding_append_cons {b : UInt8} (hb : b ≠ 37)
    (hdigit : Percent.hexVal b = none) (before after : Bytes) :
    validPercentEncoding (before ++ b :: after) =
      (validPercentEncoding before && validPercentEncoding after) := by
  induction before using validPercentEncoding.induct with
  | case1 => exact validPercentEncoding_cons_of_ne hb after
  | case2 high low rest ih =>
    simp only [List.cons_append, validPercentEncoding, if_pos, ih, Bool.and_assoc]
  | case3 rest hshort =>
    -- A percent sign whose digits the byte cuts off is invalid with it and without it.
    rcases rest with - | ⟨high, - | ⟨low, rest⟩⟩
    · rcases after with - | ⟨low, after⟩
      · rfl
      · simp [validPercentEncoding, hdigit]
    · simp [validPercentEncoding, hdigit]
    · exact absurd rfl (hshort high low rest)
  | case4 c rest hc ih =>
    rw [List.cons_append, validPercentEncoding_cons_of_ne hc, ih,
      validPercentEncoding_cons_of_ne hc]

/-- What a text stands for, if every percent sign in it starts an escape. -/
def decodeValid (s : Str) : Option Str :=
  if validPercentEncoding (Text.utf8 s) then Percent.decodeUtf8 s else none

theorem decodeValid_eq_some_iff {s t : Str} :
    decodeValid s = some t ↔
      validPercentEncoding (Text.utf8 s) ∧ Percent.decode (Text.utf8 s) = Text.utf8 t := by
  rw [decodeValid, Option.ite_none_right_eq_some, Percent.decodeUtf8_eq_some_iff]

theorem decodeValid_of_not_mem {s : Str} (h : '%' ∉ s) : decodeValid s = some s := by
  have hbyte : 37 ∉ Text.utf8 s := fun hmem ↦ h ((Text.mem_utf8_iff (by decide)).1 hmem)
  exact decodeValid_eq_some_iff.2 ⟨validPercentEncoding_of_not_mem hbyte,
    Percent.decode_of_not_mem hbyte⟩

/-- What stands on the two sides of a slash is decoded by itself. -/
theorem decodeValid_append_slash {s t d : Str} :
    decodeValid (s ++ '/' :: t) = some d ↔
      ∃ x y, decodeValid s = some x ∧ decodeValid t = some y ∧ d = x ++ '/' :: y := by
  have hslash : (47 : UInt8) ≠ 37 := by decide
  simp only [decodeValid_eq_some_iff, utf8_append_slash,
    validPercentEncoding_append_cons hslash rfl, Percent.decode_append_cons hslash rfl,
    Bool.and_eq_true]
  constructor
  · rintro ⟨⟨hs, ht⟩, hd⟩
    obtain ⟨x, y, rfl, hx, hy⟩ := Text.utf8_eq_append_cons (by decide : '/'.toNat < 128) hd.symm
    exact ⟨x, y, ⟨hs, hx.symm⟩, ⟨ht, hy.symm⟩, rfl⟩
  · rintro ⟨x, y, ⟨hs, hx⟩, ⟨ht, hy⟩, rfl⟩
    exact ⟨⟨hs, ht⟩, by rw [hx, hy, utf8_append_slash]⟩

/-! ### Segments that lead down -/

/-- What a segment stands for leads down. -/
def Descends (s : Str) : Prop :=
  ∃ d, decodeValid s = some d ∧ '\\' ∉ d ∧ '\x00' ∉ d ∧ ['.', '.'] ∉ d.splitOn '/'

/-- The components a segment stands for. -/
def segmentComponents (s : Str) : List Str :=
  (decodeValid s).elim [] normalComponents

theorem descends_append_slash (s t : Str) :
    Descends (s ++ '/' :: t) ↔ Descends s ∧ Descends t := by
  constructor
  · rintro ⟨d, hd, hback, hnul, hup⟩
    obtain ⟨x, y, hx, hy, rfl⟩ := decodeValid_append_slash.1 hd
    rw [List.splitOn_append_cons_self] at hup
    simp only [List.mem_append, List.mem_cons, not_or] at hback hnul hup
    exact ⟨⟨x, hx, hback.1, hnul.1, hup.1⟩, ⟨y, hy, hback.2.2, hnul.2.2, hup.2⟩⟩
  · rintro ⟨⟨x, hx, hxback, hxnul, hxup⟩, ⟨y, hy, hyback, hynul, hyup⟩⟩
    refine ⟨_, decodeValid_append_slash.2 ⟨x, y, hx, hy, rfl⟩, ?_⟩
    rw [List.splitOn_append_cons_self]
    simp only [List.mem_append, List.mem_cons, not_or]
    exact ⟨⟨hxback, by decide, hyback⟩, ⟨hxnul, by decide, hynul⟩, hxup, hyup⟩

theorem segmentComponents_append_slash {s t : Str} (hs : Descends s) (ht : Descends t) :
    segmentComponents (s ++ '/' :: t) = segmentComponents s ++ segmentComponents t := by
  obtain ⟨x, hx, -⟩ := hs
  obtain ⟨y, hy, -⟩ := ht
  have hxy : decodeValid (s ++ '/' :: t) = some (x ++ '/' :: y) :=
    decodeValid_append_slash.2 ⟨x, y, hx, hy, rfl⟩
  rw [segmentComponents, segmentComponents, segmentComponents, hx, hy, hxy]
  show normalComponents (x ++ '/' :: y) = normalComponents x ++ normalComponents y
  rw [normalComponents, List.splitOn_append_cons_self, List.filter_append]
  rfl

/-- Segments without percent signs stand for themselves. -/
theorem descends_of_isProper {s : Str} (h : IsProper s) (hpercent : '%' ∉ s) : Descends s := by
  refine ⟨s, decodeValid_of_not_mem hpercent, h.backslash, h.nul, ?_⟩
  rw [List.splitOn_eq_singleton h.slash, List.mem_singleton]
  exact h.ne_up.symm

theorem segmentComponents_of_isProper {s : Str} (h : IsProper s) (hpercent : '%' ∉ s) :
    segmentComponents s = [s] := by
  rw [segmentComponents, decodeValid_of_not_mem hpercent]
  show normalComponents s = [s]
  have hkeep : decide (s ≠ [] ∧ s ≠ ['.']) = true := decide_eq_true ⟨h.ne_nil, h.ne_here⟩
  rw [normalComponents, List.splitOn_eq_singleton h.slash, List.filter_singleton, hkeep]
  rfl

theorem descends_nil : Descends [] :=
  ⟨[], decodeValid_of_not_mem List.not_mem_nil, List.not_mem_nil, List.not_mem_nil, by decide⟩

theorem segmentComponents_nil : segmentComponents [] = [] := by
  rw [segmentComponents, decodeValid_of_not_mem List.not_mem_nil]
  rfl

/-- A dot leads nowhere. -/
theorem segmentComponents_here : segmentComponents ['.'] = [] := by
  rw [segmentComponents, decodeValid_of_not_mem (by decide)]
  rfl

theorem not_descends_up : ¬ Descends ['.', '.'] := by
  rintro ⟨d, hd, -, -, hup⟩
  rw [decodeValid_of_not_mem (by decide)] at hd
  obtain rfl := Option.some.inj hd
  exact hup (by decide)

/-! ### Whole paths -/

/-- Behind the slashes in front, the path starts with an encoded slash. -/
def StartsEncoded (path : Str) : Prop :=
  (Percent.decode (Text.utf8 (path.dropWhile fun c ↦ c = '/'))).head? = some 47

theorem dropWhile_slash_cons (path : Str) :
    ('/' :: path).dropWhile (fun c ↦ c = '/') = path.dropWhile fun c ↦ c = '/' :=
  List.dropWhile_cons_of_pos (by decide)

/-- The slashes in front of a path stand for no components. -/
theorem descends_dropWhile (path : Str) :
    (Descends path ↔ Descends (path.dropWhile fun c ↦ c = '/')) ∧
      (Descends path →
        segmentComponents path = segmentComponents (path.dropWhile fun c ↦ c = '/')) := by
  induction path with
  | nil => exact ⟨Iff.rfl, fun _ ↦ rfl⟩
  | cons c path ih =>
    by_cases hc : c = '/'
    · have hcut := descends_append_slash [] path
      rw [hc, dropWhile_slash_cons, ← ih.1]
      refine ⟨hcut.trans (and_iff_right descends_nil), fun h ↦ ?_⟩
      have hpath : Descends path := (hcut.1 h).2
      have hcomponents := segmentComponents_append_slash descends_nil hpath
      rw [segmentComponents_nil] at hcomponents
      exact hcomponents.trans (ih.2 hpath)
    · rw [List.dropWhile_cons_of_neg (by simpa using hc)]
      exact ⟨Iff.rfl, fun _ ↦ rfl⟩

theorem head?_utf8_eq_slash_iff {s : Str} :
    (Text.utf8 s).head? = some 47 ↔ s.head? = some '/' := by
  constructor
  · intro h
    obtain ⟨after, hafter⟩ := List.head?_eq_some_iff.1 h
    have hcut : Text.utf8 s = [] ++ 47 :: after := hafter
    obtain ⟨left, right, rfl, hleft, -⟩ :=
      Text.utf8_eq_append_cons (by decide : '/'.toNat < 128) hcut
    rw [Text.utf8_eq_nil_iff.1 hleft]
    rfl
  · intro h
    obtain ⟨rest, rfl⟩ := List.head?_eq_some_iff.1 h
    rfl

theorem relativePath_eq_bind (path : Str) :
    relativePath path = (decodeValid (path.dropWhile fun c ↦ c = '/')).bind splitDecoded := by
  have hvalid : validPercentEncoding (Text.utf8 path) =
      validPercentEncoding (Text.utf8 (path.dropWhile fun c ↦ c = '/')) := by
    induction path with
    | nil => rfl
    | cons c path ih =>
      by_cases hc : c = '/'
      · rw [hc, dropWhile_slash_cons, ← ih]
        exact validPercentEncoding_cons_of_ne (by decide) _
      · rw [List.dropWhile_cons_of_neg (by simpa using hc)]
  rw [relativePath, hvalid, decodeValid]
  split
  · rfl
  · rfl

/-- **A path stands for the components of its segments**, unless it starts with an encoded
slash. -/
theorem relativePath_iff_segments {path : Str} {relative : RelativePath} :
    relativePath path = some relative ↔
      Descends path ∧ ¬ StartsEncoded path ∧ relative.parts = segmentComponents path := by
  obtain ⟨hdescends, hcomponents⟩ := descends_dropWhile path
  have hstarts : ∀ {d}, decodeValid (path.dropWhile fun c ↦ c = '/') = some d →
      (StartsEncoded path ↔ d.head? = some '/') := fun hd ↦ by
    rw [StartsEncoded, (decodeValid_eq_some_iff.1 hd).2, head?_utf8_eq_slash_iff]
  have hparts : ∀ {d}, decodeValid (path.dropWhile fun c ↦ c = '/') = some d →
      segmentComponents (path.dropWhile fun c ↦ c = '/') = normalComponents d := fun hd ↦ by
    rw [segmentComponents, hd]
    rfl
  -- Both sides are read off the text behind the slashes in front, decoded.
  rw [relativePath_eq_bind, Option.bind_eq_some_iff]
  simp only [splitDecoded_eq_some_iff]
  constructor
  · rintro ⟨d, hd, ⟨hhead, hback, hnul, hup⟩, hrelative⟩
    have hpath : Descends path := hdescends.2 ⟨d, hd, hback, hnul, hup⟩
    refine ⟨hpath, (hstarts hd).not.2 hhead, ?_⟩
    rw [hcomponents hpath, hparts hd, hrelative]
  · rintro ⟨hpath, hhead, hrelative⟩
    obtain ⟨d, hd, hback, hnul, hup⟩ := hdescends.1 hpath
    refine ⟨d, hd, ⟨(hstarts hd).not.1 hhead, hback, hnul, hup⟩, ?_⟩
    rw [hrelative, hcomponents hpath, hparts hd]

/-! ### Segments behind slashes -/

open UriReference

theorem descends_slashed {segments : List Str} :
    Descends (slashed segments) ↔ ∀ segment ∈ segments, Descends segment := by
  induction segments using List.reverseRecOn with
  | nil => exact iff_of_true descends_nil fun segment h ↦ absurd h List.not_mem_nil
  | append_singleton segments segment ih =>
    rw [slashed_concat, descends_append_slash, ih, List.forall_mem_append,
      List.forall_mem_singleton]

theorem segmentComponents_slashed {segments : List Str}
    (h : ∀ segment ∈ segments, Descends segment) :
    segmentComponents (slashed segments) = segments.flatMap segmentComponents := by
  induction segments using List.reverseRecOn with
  | nil => exact segmentComponents_nil
  | append_singleton segments segment ih =>
    rw [List.forall_mem_append, List.forall_mem_singleton] at h
    rw [slashed_concat, segmentComponents_append_slash (descends_slashed.2 h.1) h.2, ih h.1,
      List.flatMap_append, List.flatMap_singleton]

/-- What follows a slash does not matter to the front of a path, unless the front is slashes. -/
theorem startsEncoded_append_slash {s t : Str} (ht : ¬ StartsEncoded t) :
    StartsEncoded (s ++ '/' :: t) ↔ StartsEncoded (s ++ ['/']) := by
  have hslash : (47 : UInt8) ≠ 37 := by decide
  induction s with
  | nil =>
    simp only [StartsEncoded, List.nil_append, dropWhile_slash_cons]
    exact iff_of_false ht (by decide)
  | cons c s ih =>
    by_cases hc : c = '/'
    · simp only [StartsEncoded, hc, List.cons_append, dropWhile_slash_cons]
      exact ih
    · -- The slash cuts what is decoded, so the first byte is found before what follows it.
      have hkeep : ∀ t, (c :: s ++ t).dropWhile (fun c ↦ c = '/') = c :: s ++ t := fun t ↦
        List.dropWhile_cons_of_neg (by simpa using hc)
      simp only [StartsEncoded, hkeep, utf8_append_slash, Percent.decode_append_cons hslash rfl,
        List.head?_append, List.head?_cons]

theorem segmentComponents_flatMap_filter (segments : List Str) :
    (segments.filter fun segment ↦ segment ≠ ['.']).flatMap segmentComponents =
      segments.flatMap segmentComponents := by
  induction segments with
  | nil => rfl
  | cons segment segments ih =>
    by_cases hhere : segment = ['.']
    · rw [List.filter_cons_of_neg (by simpa using hhere), ih, List.flatMap_cons, hhere,
        segmentComponents_here, List.nil_append]
    · rw [List.filter_cons_of_pos (by simpa using hhere), List.flatMap_cons, ih,
        List.flatMap_cons]

theorem not_startsEncoded_of_not_mem {s : Str} (h : '%' ∉ s) : ¬ StartsEncoded s := by
  have hbyte : 37 ∉ Text.utf8 (s.dropWhile fun c ↦ c = '/') := fun hmem ↦
    h ((List.dropWhile_sublist _).subset ((Text.mem_utf8_iff (by decide : '%'.toNat < 128)).1 hmem))
  rw [StartsEncoded, Percent.decode_of_not_mem hbyte, head?_utf8_eq_slash_iff]
  intro hhead
  have hnot := List.head?_dropWhile_not (fun c ↦ decide (c = '/')) s
  rw [hhead] at hnot
  exact absurd hnot (by decide)

/-- The components of a path whose last segment stands by itself. -/
theorem relativePath_slashed {segments : List Str} {last : Str} {relative : RelativePath} :
    relativePath (slashed segments ++ '/' :: last) = some relative ↔
      ((∀ segment ∈ segments, Descends segment) ∧ Descends last) ∧
        ¬ StartsEncoded (slashed segments ++ '/' :: last) ∧
        relative.parts = segments.flatMap segmentComponents ++ segmentComponents last := by
  rw [relativePath_iff_segments, descends_append_slash, descends_slashed]
  refine and_congr_right fun h ↦ ?_
  rw [segmentComponents_append_slash (descends_slashed.2 h.1) h.2, segmentComponents_slashed h.1]

/-! ### The length of components -/

/-- Where every percent sign starts an escape, one percent sign makes an escape. -/
theorem hasEscape_of_valid {bytes : Bytes} (hvalid : validPercentEncoding bytes)
    (h : 37 ∈ bytes) : Percent.hasEscape bytes := by
  induction bytes using validPercentEncoding.induct with
  | case1 => cases h
  | case2 high low rest ih =>
    rw [validPercentEncoding, if_pos rfl, Bool.and_eq_true, Bool.and_eq_true,
      Option.isSome_iff_exists, Option.isSome_iff_exists] at hvalid
    obtain ⟨⟨⟨x, hx⟩, y, hy⟩, -⟩ := hvalid
    simp [Percent.hasEscape, Percent.escape?, hx, hy]
  | case3 rest hshort =>
    rw [validPercentEncoding_iff] at hvalid
    obtain ⟨high, low, tail, hrest, -⟩ := hvalid [] rest rfl
    exact absurd hrest (hshort high low tail)
  | case4 b rest hb ih =>
    rw [validPercentEncoding_cons_of_ne hb] at hvalid
    exact Percent.hasEscape_cons b (ih hvalid ((List.mem_cons.1 h).resolve_left (Ne.symm hb)))

theorem length_utf8_le_of_mem_segmentComponents {s part : Str} (h : part ∈ segmentComponents s) :
    (Text.utf8 part).length ≤ (Percent.decode (Text.utf8 s)).length := by
  rcases hs : decodeValid s with - | d
  · rw [segmentComponents, hs] at h
    cases h
  · rw [segmentComponents, hs] at h
    have hpart : part ∈ d.splitOn '/' := (List.mem_filter.1 h).1
    rw [(decodeValid_eq_some_iff.1 hs).2]
    exact ((Text.sublist_of_mem_splitOn hpart).flatMap _).length_le

/-- An escape is no component of itself. -/
theorem not_mem_segmentComponents {s : Str} (hs : Descends s) (h : '%' ∈ s) :
    s ∉ segmentComponents s := by
  intro hmem
  obtain ⟨d, hd, -⟩ := hs
  have hescape : Percent.hasEscape (Text.utf8 s) :=
    hasEscape_of_valid (decodeValid_eq_some_iff.1 hd).1 ((Text.mem_utf8_iff (by decide)).2 h)
  have hle := length_utf8_le_of_mem_segmentComponents hmem
  have hlt := Percent.length_decode_lt hescape
  omega

end Static
