import Arvik.Foundation.Preference
import Arvik.Foundation.Text
import Mathlib.Data.List.Find
import Mathlib.Data.List.Forall2

/-!
# Content coding negotiation

Which of the supported codings an `Accept-Encoding` value admits. Only whether a quality is positive
matters here; the type of qualities and their parser are parameters.

A scan over the value for each candidate (`negotiate`) and a parser of the whole value
(`parseAcceptEncodings`) make the same selection (`negotiate_eq_find?_parsed`): the weight of a
coding is that of the last entry for it, else that of the last wildcard. White space around the
separators does not matter, nor does the case of the codings.

The scan keeps three flags while it reads: whether an entry named its candidate, what the last such
entry said, and what the last wildcard said. By induction on the entries from the end these are what
the last entries say (`verdict_of_entries`), so that the scan is an instance of the weighted
preferences of the foundations, as the parser is. Everything after that is about lists of entries: a
permutation of entries for different codings changes nothing, and a coding that is the empty text is
told apart, because the parser passes over entries without a coding and the scan does not.
-/

/-- Qualities, as read from a `q` parameter and clamped to the unit interval. -/
class QualityLib where
  Quality : Type
  /-- The quality of a coding without a `q` parameter, or with one that is no number. -/
  one : Quality
  parse : Str → Option Quality
  positive : Quality → Bool
  positive_one : positive one

namespace Accept

variable [QualityLib]

/-- The quality the last `q` parameter gives. -/
def parseQ (parameters : List Str) : QualityLib.Quality :=
  parameters.foldl (fun quality parameter ↦
    let parameter := Text.trim parameter
    match (Text.stripPrefix "q=".toList parameter).or
        (Text.stripPrefix "Q=".toList parameter) with
    | some q => (QualityLib.parse (Text.trim q)).getD QualityLib.one
    | none => quality) QualityLib.one

/-- What the entries read so far say about a coding. -/
structure Verdict where
  exactSeen : Bool := false
  exactAllowed : Bool := false
  wildcardAllowed : Bool := false

/-- One entry of the value. -/
def Verdict.entry (candidate : Str) (self : Verdict) (entry : Str) : Verdict :=
  let segments := (Text.trim entry).splitOn ';'
  let coding := Text.trim (segments.headD [])
  if Text.eqIgnoreAsciiCase coding candidate then
    { self with exactSeen := true, exactAllowed := QualityLib.positive (parseQ segments.tail) }
  else if coding = ['*'] then
    { self with wildcardAllowed := QualityLib.positive (parseQ segments.tail) }
  else self

/-- The coding is accepted: by its own entry if there is one, else by the wildcard. -/
def Verdict.allowed (self : Verdict) : Bool :=
  if self.exactSeen then self.exactAllowed else self.wildcardAllowed

/-- The first supported coding the value admits. -/
def negotiate (supported : List Str) (acceptEncoding : Str) : Option Str :=
  supported.find? fun candidate ↦
    ((acceptEncoding.splitOn ',').foldl (Verdict.entry candidate) {}).allowed

theorem negotiate_singleton (coding acceptEncoding : Str) :
    negotiate [coding] acceptEncoding =
      if ((acceptEncoding.splitOn ',').foldl (Verdict.entry coding) {}).allowed then some coding
      else none := by
  rw [negotiate, List.find?_singleton]

/-- The codings of a value, in lower case, and their qualities. An entry without a coding is passed
over. -/
def parseAcceptEncodings (value : Str) : List (Str × QualityLib.Quality) :=
  (value.splitOn ',').filterMap fun entry ↦
    let parts := (Text.trim entry).splitOn ';'
    let coding := (Text.trim (parts.headD [])).map Text.toAsciiLowercase
    if coding = [] then none else some (coding, parseQ parts.tail)

/-! ### The weight of a coding -/

/-- What an entry says: its coding, up to case, and its quality. -/
def reading (entry : Str) : Str × QualityLib.Quality :=
  let segments := entry.splitOn ';'
  ((Text.trim (segments.headD [])).map Text.toAsciiLowercase, parseQ segments.tail)

/-- What the entries of a value say, in order. -/
def readings (value : Str) : List (Str × QualityLib.Quality) :=
  (value.splitOn ',').map reading

/-- The weight of the coding is positive. -/
def accepted (entries : List (Str × QualityLib.Quality)) (coding : Str) : Bool :=
  Preference.accepts QualityLib.positive ['*'] entries (coding.map Text.toAsciiLowercase)

/-- Parameters that differ only in the white space around them or after `q=`. -/
def SameParameter (p p' : Str) : Prop :=
  Text.trim p = Text.trim p' ∨ ∃ name ∈ ["q=".toList, "Q=".toList], ∃ q q',
    Text.trim p = name ++ q ∧ Text.trim p' = name ++ q' ∧ Text.trim q = Text.trim q'

/-- Entries that differ only in the case of the coding and in white space, at the places where the
standard allows it. -/
def SameEntry (entry entry' : Str) : Prop :=
  Text.eqIgnoreAsciiCase (Text.trim ((entry.splitOn ';').headD []))
      (Text.trim ((entry'.splitOn ';').headD [])) ∧
    List.Forall₂ SameParameter (entry.splitOn ';').tail (entry'.splitOn ';').tail

/-- The quality of an entry depends on its parameters up to white space. -/
theorem parseQ_congr {ps ps' : List Str} (h : List.Forall₂ SameParameter ps ps') :
    parseQ ps = parseQ ps' := by
  rw [parseQ, parseQ]
  refine List.rel_foldl (P := Eq) (R := SameParameter) ?_ rfl h
  rintro quality _ rfl p p' (htrim | ⟨name, hname, q, q', hp, hp', hq⟩)
  · simp only [htrim]
  · -- both have the same name, and the rest is trimmed
    rcases List.mem_cons.1 hname with rfl | hname
    · simp [hp, hp', hq, Text.stripPrefix]
    · obtain rfl := List.mem_singleton.1 hname
      simp [hp, hp', hq, Text.stripPrefix]

/-- Entries are read up to white space and the case of their codings. -/
theorem reading_congr {entry entry' : Str} (h : SameEntry entry entry') :
    reading entry = reading entry' :=
  Prod.ext (Text.eqIgnoreAsciiCase_iff.1 h.1) (parseQ_congr h.2)

omit [QualityLib] in
theorem sameEntry_of_map_trim_eq {entry entry' : Str}
    (h : (entry.splitOn ';').map Text.trim = (entry'.splitOn ';').map Text.trim) :
    SameEntry entry entry' := by
  rw [SameEntry, Text.eqIgnoreAsciiCase_iff]
  cases hparts : entry.splitOn ';' with
  | nil => exact absurd hparts (List.splitOn_ne_nil _ _)
  | cons coding parameters =>
    cases hparts' : entry'.splitOn ';' with
    | nil => exact absurd hparts' (List.splitOn_ne_nil _ _)
    | cons coding' parameters' =>
      rw [hparts, hparts', List.map_cons, List.map_cons, List.cons.injEq] at h
      refine ⟨congrArg _ h.1, ?_⟩
      have hparameters : List.Forall₂ Eq (parameters.map Text.trim) (parameters'.map Text.trim) :=
        (by rw [List.forall₂_eq_eq_eq]; exact h.2)
      rw [List.forall₂_map_left_iff, List.forall₂_map_right_iff] at hparameters
      exact hparameters.imp fun _ _ ↦ .inl

/-- The white space around an entry does not matter. -/
theorem reading_trim (entry : Str) : reading (Text.trim entry) = reading entry :=
  reading_congr (sameEntry_of_map_trim_eq (Text.map_trim_splitOn_trim (by decide) entry))

/-! ### The scan and the parser -/

theorem verdict_entry (candidate : Str) (self : Verdict) (entry : Str) :
    self.entry candidate entry =
      if (reading entry).1 = candidate.map Text.toAsciiLowercase then
        { self with exactSeen := true, exactAllowed := QualityLib.positive (reading entry).2 }
      else if (reading entry).1 = ['*'] then
        { self with wildcardAllowed := QualityLib.positive (reading entry).2 }
      else self := by
  rw [← reading_trim entry, Verdict.entry.eq_def]
  simp only [Text.eqIgnoreAsciiCase_iff, reading,
    Text.map_toAsciiLowercase_eq_singleton_iff (d := '*') (.inl (by decide))]

/-- What the scan knows of a candidate after the entries read so far. -/
theorem verdict_of_entries (candidate : Str) (entries : List Str) :
    let verdict := entries.foldl (Verdict.entry candidate) {}
    let read := entries.map reading
    let key := candidate.map Text.toAsciiLowercase
    verdict.exactSeen = (Preference.lastFor read key).isSome ∧
      verdict.exactAllowed = (Preference.lastFor read key).any QualityLib.positive ∧
      (Preference.lastFor read key = none →
        verdict.wildcardAllowed = (Preference.lastFor read ['*']).any QualityLib.positive) := by
  induction entries using List.reverseRecOn with
  | nil => exact ⟨rfl, rfl, fun _ ↦ rfl⟩
  | append_singleton entries entry ih =>
    obtain ⟨hseen, hexact, hwildcard⟩ := ih
    simp only [List.foldl_append, List.foldl_cons, List.foldl_nil, List.map_append, List.map_cons,
      List.map_nil, Preference.lastFor_concat, verdict_entry]
    by_cases hkey : (reading entry).1 = candidate.map Text.toAsciiLowercase
    · simp only [if_pos hkey]
      exact ⟨rfl, rfl, fun hnone ↦ by cases hnone⟩
    · simp only [if_neg hkey]
      by_cases hstar : (reading entry).1 = ['*']
      · simp only [if_pos hstar]
        exact ⟨hseen, hexact, fun _ ↦ rfl⟩
      · simp only [if_neg hstar]
        exact ⟨hseen, hexact, hwildcard⟩

/-- The scan accepts a candidate by its weight. -/
theorem allowed_eq_accepted (candidate value : Str) :
    ((value.splitOn ',').foldl (Verdict.entry candidate) {}).allowed =
      accepted (readings value) candidate := by
  obtain ⟨hseen, hexact, hwildcard⟩ := verdict_of_entries candidate (value.splitOn ',')
  rw [Verdict.allowed, hseen, hexact, accepted, Preference.accepts, Preference.weight, readings]
  cases hlast : Preference.lastFor ((value.splitOn ',').map reading)
      (candidate.map Text.toAsciiLowercase) with
  | some w => rfl
  | none => exact hwildcard hlast

theorem negotiate_eq_find? (supported : List Str) (value : Str) :
    negotiate supported value = supported.find? (accepted (readings value)) := by
  rw [negotiate]
  simp only [allowed_eq_accepted]

/-- The parser passes over the entries that name no coding, and reads the others. -/
theorem parseAcceptEncodings_eq_filter (value : Str) :
    parseAcceptEncodings value = (readings value).filter fun entry ↦ entry.1 ≠ [] := by
  have hentry : ∀ entry, reading entry =
      ((Text.trim (((Text.trim entry).splitOn ';').headD [])).map Text.toAsciiLowercase,
        parseQ ((Text.trim entry).splitOn ';').tail) := fun entry ↦ (reading_trim entry).symm
  rw [parseAcceptEncodings, readings, ← List.filterMap_eq_filter, List.filterMap_map]
  congr 1
  funext entry
  simp only [Function.comp_apply, hentry, Option.guard]
  split <;> simp_all

/-- A value behind a comma and a space is parsed by itself. -/
theorem parseAcceptEncodings_append (value value' : Str) :
    parseAcceptEncodings (value ++ ", ".toList ++ value') =
      parseAcceptEncodings value ++ parseAcceptEncodings value' := by
  have hspace : readings (' ' :: value') = readings value' := by
    rw [readings, List.splitOn_cons_eq_if_modifyHead, if_neg (by decide), readings]
    cases value'.splitOn ',' with
    | nil => rfl
    | cons entry entries =>
      rw [List.modifyHead_cons, List.map_cons, List.map_cons, ← reading_trim (' ' :: entry),
        Text.trim_cons_of_isWhitespace entry (by decide), reading_trim]
  have happend : value ++ ", ".toList ++ value' = value ++ ',' :: (' ' :: value') :=
    List.append_assoc ..
  rw [happend, parseAcceptEncodings_eq_filter, readings, List.splitOn_append_cons_self,
    List.map_append, List.filter_append, ← readings, ← readings, hspace,
    parseAcceptEncodings_eq_filter, parseAcceptEncodings_eq_filter]

/-- The scan and the parser make the same selection among codings. -/
theorem negotiate_eq_find?_parsed {supported : List Str} (h : [] ∉ supported) (value : Str) :
    negotiate supported value = supported.find? (accepted (parseAcceptEncodings value)) := by
  rw [negotiate_eq_find?, parseAcceptEncodings_eq_filter]
  refine List.find?_congr fun coding hcoding ↦ ?_
  have hkey : coding.map Text.toAsciiLowercase ≠ [] := by
    rw [ne_eq, List.map_eq_nil_iff]
    rintro rfl
    exact h hcoding
  exact (Preference.accepts_congr (Preference.lastFor_filter_ne hkey _)
    (Preference.lastFor_filter_ne (List.cons_ne_nil _ _) _)).symm

theorem readings_congr {value value' : Str}
    (h : List.Forall₂ SameEntry (value.splitOn ',') (value'.splitOn ',')) :
    readings value = readings value' := by
  have hreadings : List.Forall₂ Eq (readings value) (readings value') := by
    rw [readings, readings, List.forall₂_map_left_iff, List.forall₂_map_right_iff]
    exact h.imp fun _ _ ↦ reading_congr
  rwa [List.forall₂_eq_eq_eq] at hreadings

/-- The order of entries for different codings does not matter. -/
theorem negotiate_perm {supported : List Str} (h : [] ∉ supported) {value value' : Str}
    (hperm : (value.splitOn ',').Perm (value'.splitOn ','))
    (happart : (parseAcceptEncodings value).Pairwise fun a b ↦ a.1 ≠ b.1) :
    negotiate supported value' = negotiate supported value := by
  rw [negotiate_eq_find?_parsed h, negotiate_eq_find?_parsed h]
  refine List.find?_congr fun coding _ ↦ (Preference.accepts_perm ?_ happart _).symm
  rw [parseAcceptEncodings_eq_filter, parseAcceptEncodings_eq_filter]
  exact (hperm.map reading).filter _

/-- **Negotiation.** The scan picks the first supported coding of positive weight, and the parser of
the value gives the codings the same weights. The order of entries for different codings does not
matter, nor does white space around the separators or after `q=`, nor the case of the codings. -/
theorem negotiate_by_weight (supported : List Str) (value : Str) :
    negotiate supported value = supported.find? (accepted (readings value)) ∧
      ([] ∉ supported →
        negotiate supported value = supported.find? (accepted (parseAcceptEncodings value)) ∧
          ∀ value', (value.splitOn ',').Perm (value'.splitOn ',') →
            ((parseAcceptEncodings value).Pairwise fun a b ↦ a.1 ≠ b.1) →
            negotiate supported value' = negotiate supported value) ∧
      ∀ value', List.Forall₂ SameEntry (value.splitOn ',') (value'.splitOn ',') →
        negotiate supported value' = negotiate supported value := by
  refine ⟨negotiate_eq_find? _ _, fun h ↦ ⟨negotiate_eq_find?_parsed h value,
    fun value' hperm happart ↦ negotiate_perm h hperm happart⟩, fun value' hsame ↦ ?_⟩
  rw [negotiate_eq_find?, negotiate_eq_find?, readings_congr hsame]

end Accept

namespace Accept

section ZeroOrOne

/-- Qualities that are zero or one: the only number that is read is `0`. -/
local instance zeroOrOne : QualityLib where
  Quality := ℕ
  one := 1
  parse q := if q = ['0'] then some 0 else none
  positive quality := decide (0 < quality)
  positive_one := by decide

/-- An empty text is no coding, but the scan takes an empty entry for it; and white space before the
equals sign hides a quality. -/
theorem negotiate_empty_coding :
    negotiate [[]] [] ≠ [[]].find? (accepted (parseAcceptEncodings [])) ∧
      negotiate ["gzip".toList] "gzip;q =0".toList ≠
        negotiate ["gzip".toList] "gzip;q=0".toList := by
  decide

/-- The order of two entries, and white space around the separators and capitals in them. -/
theorem negotiate_br_gzip :
    negotiate ["br".toList, "gzip".toList] "br;q=0, gzip".toList = some "gzip".toList ∧
      negotiate ["br".toList, "gzip".toList] " gzip,br;q=0".toList = some "gzip".toList ∧
      negotiate ["br".toList, "gzip".toList] "BR ; q= 0,Gzip ".toList = some "gzip".toList := by
  obtain ⟨hweight, hparsed, hblank⟩ :=
    negotiate_by_weight ["br".toList, "gzip".toList] "br;q=0, gzip".toList
  obtain ⟨-, hperm⟩ := hparsed (by decide)
  have hpick : negotiate ["br".toList, "gzip".toList] "br;q=0, gzip".toList = some "gzip".toList :=
    hweight.trans (by decide)
  refine ⟨hpick, (hperm _ ?_ (by decide)).trans hpick, (hblank _ ?_).trans hpick⟩
  · exact List.Perm.swap ..
  · refine .cons ⟨by decide, .cons (.inr ⟨_, List.mem_cons_self, ['0'], [' ', '0'], ?_⟩) .nil⟩
      (.cons ⟨by decide, .nil⟩ .nil)
    decide

end ZeroOrOne

end Accept
