import Arvik.Static.Asset

/-!
# The grammar of ranges

A range is two numerals with a dash between them, one of which may be missing. `RangeGrammar` says
what a range of numerals should become, read as natural numbers, and that other texts are no ranges.

The numerals are read as 64-bit numbers by a parser that takes a plus sign. So a text with a plus
sign may be a range, and a numeral of `2 ^ 64` or more makes a range unsatisfiable even where it
only says "up to the end" (`rangeGrammar_iff`).

What the code does is said first, by what its parser reads (`parseSpec_cases`), in a form in which
the plus sign and the bound on numerals are still there. The specification is then compared with
that, text by text: `ReadAsWritten` is what is left over. Where a numeral does not fit and the range
is unsatisfiable anyway, nothing is lost, and the condition says so.
-/

namespace Static

/-! ### What ranges mean -/

/-- A text of digits. -/
def IsDigits (s : Str) : Prop :=
  ∀ c ∈ s, c.isDigit

instance (s : Str) : Decidable (IsDigits s) :=
  List.decidableBAll (fun c : Char ↦ c.isDigit = true) s

/-- The value a text of digits stands for. -/
def value (s : Str) : ℕ :=
  Nat.ofDigitChars 10 s 0

/-- The decision is the range between two positions. -/
def RangeDecision.Spans {len : ℕ} (decision : RangeDecision len) (start stop : ℕ) : Prop :=
  ∃ range, decision = .part range ∧ range.start = start ∧ range.stop = stop

/-- What becomes of a range of an asset of `len` bytes: of numerals, and of other texts. -/
structure RangeGrammar (first last : Str) {len : ℕ} (decision : RangeDecision len) : Prop where
  /-- From a first position to the end. -/
  fromFirst : IsDigits first → first ≠ [] → last = [] → value first < len →
    decision.Spans (value first) (len - 1)
  /-- From a first position to a last one. -/
  between : IsDigits first → IsDigits last → first ≠ [] → last ≠ [] → value first < len →
    value first ≤ value last → decision.Spans (value first) (min (value last) (len - 1))
  /-- The last bytes. -/
  suffix : first = [] → IsDigits last → 0 < value last →
    decision.Spans (len - min (value last) len) (len - 1)
  beyond : IsDigits first → IsDigits last → first ≠ [] → len ≤ value first →
    decision = .unsatisfiable
  emptySuffix : first = [] → last ≠ [] → IsDigits last → value last = 0 →
    decision = .unsatisfiable
  /-- What is no range of numerals. -/
  other : ¬(IsDigits first ∧ IsDigits last) → ∀ range, decision ≠ .part range

/-! ### What the parser reads -/

/-- The text without a plus sign in front. -/
def unsigned (s : Str) : Str :=
  (Text.stripPrefix ['+'] s).getD s

/-- The number a text stands for, a plus sign in front aside. -/
def number (s : Str) : ℕ :=
  value (unsigned s)

/-- A text the number parser takes: digits, perhaps behind a plus sign. -/
def Numeral (s : Str) : Prop :=
  unsigned s ≠ [] ∧ IsDigits (unsigned s)

instance (s : Str) : Decidable (Numeral s) :=
  inferInstanceAs (Decidable (_ ∧ _))

/-- The numbers are those of a range within the asset. -/
def InRange (first last : Str) (len : ℕ) : Prop :=
  if first = [] then 0 < number last
  else number first < len ∧ (last = [] ∨ number first ≤ number last)

instance (first last : Str) (len : ℕ) : Decidable (InRange first last len) :=
  inferInstanceAs (Decidable (if first = [] then _ else _))

/-- The parts can be read, as far as they are there. -/
def Readable (first last : Str) : Prop :=
  (first = [] ∨ Numeral first) ∧ (last = [] ∨ Numeral last)

instance (first last : Str) : Decidable (Readable first last) :=
  inferInstanceAs (Decidable (_ ∧ _))

theorem parseUnsigned_eq_some_iff {s : Str} {n : ℕ} :
    Text.parseUnsigned 64 s = some n ↔ Numeral s ∧ number s < 2 ^ 64 ∧ number s = n := by
  rw [Text.parseUnsigned, Numeral, IsDigits, number, value, unsigned]
  simp only [List.all_eq_true, Option.ite_none_right_eq_some, Option.some.injEq]
  rw [and_assoc, and_assoc, and_assoc]

theorem parseUnsigned_eq_none {s : Str} (h : ¬(Numeral s ∧ number s < 2 ^ 64)) :
    Text.parseUnsigned 64 s = none :=
  Option.eq_none_iff_forall_ne_some.2 fun _ hn ↦
    h ⟨(parseUnsigned_eq_some_iff.1 hn).1, (parseUnsigned_eq_some_iff.1 hn).2.1⟩

theorem unsigned_of_isDigits {s : Str} (h : IsDigits s) : unsigned s = s := by
  cases s with
  | nil => rfl
  | cons c s =>
    have hplus : '+' ≠ c := by
      rintro rfl
      exact absurd (h '+' List.mem_cons_self) (by decide)
    rw [unsigned, Text.stripPrefix, if_neg hplus]
    rfl

theorem numeral_of_isDigits {s : Str} (hne : s ≠ []) (h : IsDigits s) : Numeral s := by
  rw [Numeral, unsigned_of_isDigits h]
  exact ⟨hne, h⟩

/-- The first position of a range in the numbers of its parts. -/
def startOf (first last : Str) (len : ℕ) : ℕ :=
  if first = [] then len - min (number last) len else number first

/-- The last position of a range in the numbers of its parts. -/
def stopOf (first last : Str) (len : ℕ) : ℕ :=
  if first = [] ∨ last = [] then len - 1 else min (number last) (len - 1)

/-- A suffix length. -/
theorem parseSpec_suffix_cases (last : Str) {len : UInt64} (hlen : 0 < len.toNat) :
    if Readable [] last ∧ InRange [] last len.toNat ∧ number last < 2 ^ 64 then
      (parseSpec [] last len.toNat).Spans (startOf [] last len.toNat) (stopOf [] last len.toNat)
    else parseSpec [] last len.toNat = .unsatisfiable := by
  rw [parseSpec, dif_neg (Nat.ne_of_gt hlen)]
  simp only [Readable, InRange, startOf, stopOf, true_or, true_and, if_true]
  by_cases hlast : Numeral last ∧ number last < 2 ^ 64
  · rw [parseUnsigned_eq_some_iff.2 ⟨hlast.1, hlast.2, rfl⟩]
    by_cases hzero : number last = 0
    · rw [if_neg fun h ↦ Nat.ne_of_gt h.2.1 hzero]
      exact dif_pos hzero
    · rw [if_pos ⟨.inr hlast.1, Nat.pos_of_ne_zero hzero, hlast.2⟩]
      exact ⟨_, dif_neg hzero, rfl, rfl⟩
  · rw [parseUnsigned_eq_none hlast, if_neg]
    rintro ⟨hreadable, hpos, hsmall⟩
    rcases hreadable with rfl | hnumeral
    · exact absurd hpos (Nat.lt_irrefl 0)
    · exact hlast ⟨hnumeral, hsmall⟩

/-- A first position, with or without a last one. -/
theorem parseSpec_from_cases {first : Str} (last : Str) {len : UInt64} (hlen : 0 < len.toNat)
    (hfirst : first ≠ []) :
    if Readable first last ∧ InRange first last len.toNat ∧ number last < 2 ^ 64 then
      (parseSpec first last len.toNat).Spans (startOf first last len.toNat)
        (stopOf first last len.toNat)
    else parseSpec first last len.toNat = .unsatisfiable := by
  rw [parseSpec, dif_neg (Nat.ne_of_gt hlen)]
  simp only [Readable, InRange, startOf, stopOf, hfirst, false_or, if_false]
  by_cases hread : Numeral first ∧ number first < 2 ^ 64
  · rw [parseUnsigned_eq_some_iff.2 ⟨hread.1, hread.2, rfl⟩]
    by_cases hbeyond : len.toNat ≤ number first
    · rw [if_neg fun h ↦ Nat.not_lt.2 hbeyond h.2.1.1]
      exact dif_pos hbeyond
    have hwithin := Nat.not_le.1 hbeyond
    simp only [dif_neg hbeyond]
    by_cases hlast : last = []
    · subst hlast
      rw [if_pos ⟨⟨hread.1, .inl rfl⟩, ⟨hwithin, .inl rfl⟩, by decide⟩]
      exact ⟨_, rfl, rfl, rfl⟩
    simp only [hlast, false_or, if_false]
    by_cases hstop : Numeral last ∧ number last < 2 ^ 64
    · rw [parseUnsigned_eq_some_iff.2 ⟨hstop.1, hstop.2, rfl⟩]
      by_cases hback : number last < number first
      · rw [if_neg fun h ↦ Nat.not_le.2 hback h.2.1.2]
        exact dif_pos hback
      · rw [if_pos ⟨⟨hread.1, hstop.1⟩, ⟨hwithin, Nat.not_lt.1 hback⟩, hstop.2⟩]
        exact ⟨_, dif_neg hback, rfl, rfl⟩
    · rw [parseUnsigned_eq_none hstop, if_neg]
      rintro ⟨⟨-, hnumeral⟩, -, hsmall⟩
      exact hstop ⟨hnumeral, hsmall⟩
  · rw [parseUnsigned_eq_none hread, if_neg]
    rintro ⟨⟨hnumeral, -⟩, ⟨hwithin, -⟩, -⟩
    exact hread ⟨hnumeral, Nat.lt_trans hwithin len.toNat_lt⟩

/-- **What is taken for a range**: parts that can be read, with numbers in range, the last one below
`2 ^ 64`. -/
theorem parseSpec_cases (first last : Str) {len : UInt64} (hlen : 0 < len.toNat) :
    if Readable first last ∧ InRange first last len.toNat ∧ number last < 2 ^ 64 then
      (parseSpec first last len.toNat).Spans (startOf first last len.toNat)
        (stopOf first last len.toNat)
    else parseSpec first last len.toNat = .unsatisfiable := by
  rcases eq_or_ne first [] with rfl | hfirst
  · exact parseSpec_suffix_cases last hlen
  · exact parseSpec_from_cases last hlen hfirst

/-! ### Where the two agree -/

theorem number_of_isDigits {s : Str} (h : IsDigits s) : number s = value s := by
  rw [number, unsigned_of_isDigits h]

theorem readable_of_isDigits {first last : Str} (hfirst : IsDigits first) (hlast : IsDigits last) :
    Readable first last := by
  refine ⟨?_, ?_⟩
  · by_cases hne : first = []
    · exact .inl hne
    · exact .inr (numeral_of_isDigits hne hfirst)
  · by_cases hne : last = []
    · exact .inl hne
    · exact .inr (numeral_of_isDigits hne hlast)

theorem RangeDecision.Spans.ne_unsatisfiable {len start stop : ℕ} {decision : RangeDecision len}
    (h : decision.Spans start stop) : decision ≠ .unsatisfiable := by
  obtain ⟨range, rfl, -, -⟩ := h
  rintro ⟨⟩

/-- The number parser does not get in the way: in a range of digits within the asset the last number
is below `2 ^ 64`, and other texts do not become ranges by their plus signs. -/
structure ReadAsWritten (first last : Str) (len : ℕ) : Prop where
  digits : IsDigits first → IsDigits last → InRange first last len → number last < 2 ^ 64
  signs : ¬(IsDigits first ∧ IsDigits last) → Readable first last → InRange first last len →
    2 ^ 64 ≤ number last

theorem readAsWritten_of_rangeGrammar {first last : Str} {len : UInt64} (hlen : 0 < len.toNat)
    (h : RangeGrammar first last (parseSpec first last len.toNat)) :
    ReadAsWritten first last len.toNat := by
  have hcases := parseSpec_cases first last hlen
  refine ⟨fun hfirst hlast hrange ↦ ?_, fun hnot hreadable hrange ↦ ?_⟩
  · by_contra hbig
    rw [if_neg fun hall ↦ hbig hall.2.2] at hcases
    rw [InRange] at hrange
    split at hrange
    · next hempty =>
      rw [number_of_isDigits hlast] at hrange
      exact (h.suffix hempty hlast hrange).ne_unsatisfiable hcases
    · next hne =>
      obtain ⟨hwithin, rfl | hle⟩ := hrange
      · exact hbig (by decide)
      · have hlastne : last ≠ [] := by
          rintro rfl
          exact hbig (by decide)
        rw [number_of_isDigits hfirst] at hwithin hle
        rw [number_of_isDigits hlast] at hle
        exact (h.between hfirst hlast hne hlastne hwithin hle).ne_unsatisfiable hcases
  · by_contra hsmall
    rw [if_pos ⟨hreadable, hrange, Nat.not_le.1 hsmall⟩] at hcases
    obtain ⟨range, hpart, -, -⟩ := hcases
    exact h.other hnot range hpart

theorem rangeGrammar_of_readAsWritten {first last : Str} {len : UInt64} (hlen : 0 < len.toNat)
    (h : ReadAsWritten first last len.toNat) :
    RangeGrammar first last (parseSpec first last len.toNat) := by
  have hcases := parseSpec_cases first last hlen
  -- a range of digits in range is taken for one
  have hspans : IsDigits first → IsDigits last → InRange first last len.toNat →
      (parseSpec first last len.toNat).Spans (startOf first last len.toNat)
        (stopOf first last len.toNat) := fun hfirst hlast hrange ↦ by
    rwa [if_pos ⟨readable_of_isDigits hfirst hlast, hrange, h.digits hfirst hlast hrange⟩]
      at hcases
  have hunsatisfiable : ¬InRange first last len.toNat →
      parseSpec first last len.toNat = .unsatisfiable := fun hrange ↦ by
    rwa [if_neg fun hall ↦ hrange hall.2.1] at hcases
  refine ⟨fun hfirst hne hempty hwithin ↦ ?_, fun hfirst hlast hne hlastne hwithin hle ↦ ?_,
    fun hempty hlast hpos ↦ ?_, fun hfirst hlast hne hbeyond ↦ ?_,
    fun hempty hlastne hlast hzero ↦ ?_, fun hnot range hpart ↦ ?_⟩
  · subst hempty
    rw [← number_of_isDigits hfirst] at hwithin ⊢
    have hrange : InRange first [] len.toNat := by
      rw [InRange, if_neg hne]
      exact ⟨hwithin, .inl rfl⟩
    have hspan := hspans hfirst (List.forall_mem_nil _) hrange
    rwa [startOf, if_neg hne, stopOf, if_pos (.inr rfl)] at hspan
  · rw [← number_of_isDigits hfirst] at hwithin hle ⊢
    rw [← number_of_isDigits hlast] at hle ⊢
    have hrange : InRange first last len.toNat := by
      rw [InRange, if_neg hne]
      exact ⟨hwithin, .inr hle⟩
    have hspan := hspans hfirst hlast hrange
    rwa [startOf, if_neg hne, stopOf, if_neg (not_or.2 ⟨hne, hlastne⟩)] at hspan
  · rw [← number_of_isDigits hlast] at hpos ⊢
    have hrange : InRange first last len.toNat := by
      rwa [InRange, if_pos hempty]
    have hfirst : IsDigits first := hempty ▸ List.forall_mem_nil _
    have hspan := hspans hfirst hlast hrange
    rwa [startOf, if_pos hempty, stopOf, if_pos (.inl hempty)] at hspan
  · refine hunsatisfiable fun hrange ↦ ?_
    rw [InRange, if_neg hne, number_of_isDigits hfirst] at hrange
    exact Nat.not_lt.2 hbeyond hrange.1
  · refine hunsatisfiable fun hrange ↦ ?_
    rw [InRange, if_pos hempty, number_of_isDigits hlast, hzero] at hrange
    exact absurd hrange (Nat.lt_irrefl 0)
  · rw [if_neg fun hall ↦ Nat.not_lt.2 (h.signs hnot hall.1 hall.2.1) hall.2.2, hpart] at hcases
    cases hcases

/-! ### Headers -/

/-- The text of a header with one range. -/
def rangeText (first last : Str) : Str :=
  "bytes=".toList ++ (first ++ '-' :: last)

/-- A header with one range is read as that range. -/
theorem parseRange_eq_parseSpec {header : HeaderValue} {first last : Str}
    (hheader : header.toStr = some (rangeText first last)) (hdash : '-' ∉ first)
    (hcomma : ',' ∉ first ++ last) (len : ℕ) :
    parseRange (some header) len = parseSpec first last len := by
  have hspec : Text.stripPrefix "bytes=".toList (rangeText first last) =
      some (first ++ '-' :: last) := Text.stripPrefix_eq_some_iff.2 rfl
  have hsingle : ¬(',' ∈ first ++ '-' :: last ∨ first ++ '-' :: last = []) := by
    rintro (hmem | hnil)
    · rw [List.mem_append, List.mem_cons] at hmem
      rw [List.mem_append] at hcomma
      rcases hmem with hmem | hmem | hmem
      · exact hcomma (.inl hmem)
      · exact absurd hmem (by decide)
      · exact hcomma (.inr hmem)
    · exact absurd hnil (List.append_ne_nil_of_right_ne_nil _ (List.cons_ne_nil _ _))
  rw [parseRange, Option.bind_some, hheader, Option.bind_some, hspec]
  simp only [if_neg hsingle, Text.splitOnce_append last hdash]

/-- **When ranges are what they say**: the number parser does not get in the way. It does where it
takes a plus sign, and where a numeral that only bounds the range from above does not fit. -/
theorem rangeGrammar_iff {header : HeaderValue} {first last : Str} {len : UInt64}
    (hheader : header.toStr = some (rangeText first last)) (hdash : '-' ∉ first)
    (hcomma : ',' ∉ first ++ last) (hlen : 0 < len.toNat) :
    RangeGrammar first last (parseRange (some header) len.toNat) ↔
      ReadAsWritten first last len.toNat := by
  rw [parseRange_eq_parseSpec hheader hdash hcomma]
  exact ⟨readAsWritten_of_rangeGrammar hlen, rangeGrammar_of_readAsWritten hlen⟩

/-! ### Three ranges -/

/-- The first two bytes are asked for, of ten. -/
theorem rangeGrammar_two :
    RangeGrammar "0".toList "1".toList
      (parseRange (some (HeaderValue.fromStatic "bytes=0-1")) (10 : UInt64).toNat) := by
  have hheader : (HeaderValue.fromStatic "bytes=0-1").toStr =
      some (rangeText "0".toList "1".toList) := by decide
  refine (rangeGrammar_iff hheader (by decide) (by decide) (by decide)).2 ⟨fun _ _ _ ↦ ?_, ?_⟩
  · decide
  · exact fun hnot ↦ absurd (by decide) hnot

/-- A text with a plus sign is taken for a range, and the largest range from the start for none. -/
theorem not_rangeGrammar_plus :
    ¬RangeGrammar "+0".toList []
        (parseRange (some (HeaderValue.fromStatic "bytes=+0-")) 10) ∧
      ¬RangeGrammar "0".toList "18446744073709551616".toList
        (parseRange (some (HeaderValue.fromStatic "bytes=0-18446744073709551616")) 10) := by
  refine ⟨fun hplus ↦ ?_, fun hlarge ↦ ?_⟩
  · have hpart : parseRange (some (HeaderValue.fromStatic "bytes=+0-")) 10 =
        .part ⟨0, 9, by decide, by decide⟩ := by decide
    exact hplus.other (by decide) _ hpart
  · have hnone : parseRange (some (HeaderValue.fromStatic "bytes=0-18446744073709551616")) 10 =
        .unsatisfiable := by decide
    obtain ⟨range, hpart, -, -⟩ := hlarge.between (by decide) (by decide) (by decide) (by decide)
      (by decide) (by decide)
    rw [hnone] at hpart
    cases hpart

end Static
