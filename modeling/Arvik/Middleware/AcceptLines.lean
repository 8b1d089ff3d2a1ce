import Arvik.Middleware.Compression
import Arvik.Static.Responses

/-!
# Several `Accept-Encoding` lines

A list header may be sent in several lines. The services for static assets join the lines
(`Static.combinedAcceptEncoding`); the compressing layer reads the first one. The two choices are
compared through the parsed entries: the joined lines have the entries of the first line and behind
them those of the later ones, so the choices differ where the later entries overrule the first line
about an enabled coding and no coding before it is left (`negotiated_eq_joined_iff`).

What a list of entries says about a coding is decided by the last entry that names it, so the later
lines can only overrule, and what they do not name stays as it was. The codings that the layer has
enabled are in order of preference, and the choice is the first one accepted: the condition is found
by looking for the first coding about which the two lists disagree, and it has to be reached. The
encoders are identified with their names throughout, which is possible since each has one name
(`eq_of_encoding_eq`).
-/

namespace CompressionLayer

variable {H E : Type} [Multimap H HeaderName HeaderValue] [QualityLib]

/-! ### The entries of the lines -/

/-- The entries of the first line, if it can be read. -/
def firstEntries (headers : H) : List (Str × QualityLib.Quality) :=
  (((Multimap.get headers HeaderName.acceptEncoding).bind HeaderValue.toStr).map
    Accept.parseAcceptEncodings).getD []

/-- The entries of the other lines that can be read. -/
def laterEntries (headers : H) : List (Str × QualityLib.Quality) :=
  ((Multimap.getAll headers HeaderName.acceptEncoding).tail.filterMap HeaderValue.toStr).flatMap
    Accept.parseAcceptEncodings

theorem parse_combined (req : Request H E (Body H)) :
    Accept.parseAcceptEncodings (Static.combinedAcceptEncoding req) =
      ((Multimap.getAll req.headers HeaderName.acceptEncoding).filterMap
        HeaderValue.toStr).flatMap Accept.parseAcceptEncodings := by
  rw [Static.combinedAcceptEncoding]
  induction Multimap.getAll req.headers HeaderName.acceptEncoding using List.reverseRecOn with
  | nil => rfl
  | append_singleton lines line ih =>
    rw [List.foldl_append, List.foldl_cons, List.foldl_nil, List.filterMap_append,
      List.flatMap_append, ← ih]
    cases hline : line.toStr with
    | none => simp [hline]
    | some value =>
      have hvalue : [line].filterMap HeaderValue.toStr = [value] := by simp [hline]
      rw [hvalue, List.flatMap_singleton]
      dsimp only
      split
      · next hempty =>
        rw [hempty]
        rfl
      · exact Accept.parseAcceptEncodings_append _ _

/-- The joined lines have the entries of the first one, and then those of the others. -/
theorem parse_combined_eq_append (req : Request H E (Body H)) :
    Accept.parseAcceptEncodings (Static.combinedAcceptEncoding req) =
      firstEntries req.headers ++ laterEntries req.headers := by
  rw [parse_combined, firstEntries, laterEntries, Multimap.get]
  cases Multimap.getAll req.headers HeaderName.acceptEncoding with
  | nil => rfl
  | cons line lines =>
    cases hline : line.toStr with
    | none => simp [hline]
    | some value => simp [hline]

/-! ### The two choices -/

/-- The codings the layer may use, in order of preference. -/
def enabled (self : CompressionLayer) : List (Str × Encoding) :=
  (self.candidates.filter Prod.fst).map Prod.snd

/-- The first enabled coding that the lines accept together, as the services for static assets read
them. -/
def joinedChoice (self : CompressionLayer) (req : Request H E (Body H)) : Option Encoding :=
  self.preferredEncoding (Static.combinedAcceptEncoding req)

/-- The first enabled coding that entries accept. -/
def choice (self : CompressionLayer) (entries : List (Str × QualityLib.Quality)) :
    Option (Str × Encoding) :=
  self.enabled.find? fun coding ↦ Accept.accepted entries coding.1

omit [QualityLib] in
theorem name_ne_nil {self : CompressionLayer} {candidate : Bool × Str × Encoding}
    (h : candidate ∈ self.candidates) : candidate.2.1 ≠ [] := by
  simp only [candidates, List.mem_cons, List.not_mem_nil, or_false] at h
  rcases h with rfl | rfl | rfl | rfl <;> exact List.cons_ne_nil _ _

omit [QualityLib] in
/-- An encoder has one name. -/
theorem eq_of_encoding_eq {self : CompressionLayer} {a b : Str × Encoding} (ha : a ∈ self.enabled)
    (hb : b ∈ self.enabled) (h : a.2 = b.2) : a = b := by
  obtain ⟨x, hx, rfl⟩ := List.mem_map.1 ha
  obtain ⟨y, hy, rfl⟩ := List.mem_map.1 hb
  have hx := (List.mem_filter.1 hx).1
  have hy := (List.mem_filter.1 hy).1
  simp only [candidates, List.mem_cons, List.not_mem_nil, or_false] at hx hy
  rcases hx with rfl | rfl | rfl | rfl <;> rcases hy with rfl | rfl | rfl | rfl <;>
    first | rfl | cases h

/-- The layer chooses by the parsed entries. -/
theorem preferredEncoding_eq (self : CompressionLayer) (value : Str) :
    self.preferredEncoding value =
      (self.choice (Accept.parseAcceptEncodings value)).map Prod.snd := by
  have hfind : self.candidates.find? (fun candidate ↦
      candidate.1 && (Accept.negotiate [candidate.2.1] value).isSome) =
      self.candidates.find? fun candidate ↦ candidate.1 &&
        Accept.accepted (Accept.parseAcceptEncodings value) candidate.2.1 := by
    refine List.find?_congr fun candidate hcandidate ↦ congrArg _ ?_
    have hne : [] ∉ [candidate.2.1] := by
      rw [List.mem_singleton]
      exact (name_ne_nil hcandidate).symm
    rw [Accept.negotiate_eq_find?_parsed hne, List.find?_singleton]
    split
    · next h => rw [h]; rfl
    · next h => rw [Bool.eq_false_iff.2 h]; rfl
  rw [preferredEncoding, hfind, choice, enabled, List.find?_map, List.find?_filter, Option.map_map]
  simp only [Function.comp_apply, Bool.decide_and, Bool.decide_eq_true]
  rfl

/-- No coding is accepted without an entry. -/
theorem choice_nil (self : CompressionLayer) : self.choice [] = none :=
  List.find?_eq_none.2 fun _ _ h ↦ by cases h

/-- The layer makes the choice of the first line. -/
theorem negotiated_eq (self : CompressionLayer) (headers : H) :
    self.negotiated headers = (self.choice (firstEntries headers)).map Prod.snd := by
  rw [negotiated, firstEntries]
  cases (Multimap.get headers HeaderName.acceptEncoding).bind HeaderValue.toStr with
  | none => rw [Option.map_none, Option.getD_none, choice_nil]; rfl
  | some value =>
    by_cases hempty : value = []
    · subst hempty
      have hnil : Accept.parseAcceptEncodings [] = [] := rfl
      rw [Option.map_some, Option.getD_some, hnil, choice_nil]
      rfl
    · have hfilter : (some value).filter (fun value ↦ !value.isEmpty) = some value := by
        simp [hempty]
      rw [hfilter, Option.bind_some, preferredEncoding_eq]
      rfl

theorem joinedChoice_eq (self : CompressionLayer) (req : Request H E (Body H)) :
    self.joinedChoice req =
      (self.choice (firstEntries req.headers ++ laterEntries req.headers)).map Prod.snd := by
  rw [joinedChoice, preferredEncoding_eq, parse_combined_eq_append]

/-! ### Agreement -/

/-- The key of a coding in the parsed entries. -/
def key (coding : Str × Encoding) : Str :=
  coding.1.map Text.toAsciiLowercase

/-- The lines refuse a coding: the last entry that names it has a quality of zero. -/
def Refused (headers : H) (coding : Str × Encoding) : Prop :=
  ∃ quality, Preference.lastFor (firstEntries headers ++ laterEntries headers) (key coding) =
    some quality ∧ QualityLib.positive quality = false

/-- Where the later lines overrule the first one about an enabled coding, an earlier enabled coding
is accepted by the first line and not overruled. -/
def FirstLineDecides (self : CompressionLayer) (headers : H) : Prop :=
  ∀ before coding after, self.enabled = before ++ coding :: after →
    Preference.Overrules QualityLib.positive ['*'] (firstEntries headers) (laterEntries headers)
      (key coding) →
    ∃ earlier ∈ before, Accept.accepted (firstEntries headers) earlier.1 ∧
      ¬Preference.Overrules QualityLib.positive ['*'] (firstEntries headers)
        (laterEntries headers) (key earlier)

theorem choice_eq_choice_iff (self : CompressionLayer) (headers : H) :
    self.choice (firstEntries headers) =
        self.choice (firstEntries headers ++ laterEntries headers) ↔
      self.FirstLineDecides headers :=
  Preference.find?_accepts_append_iff key

/-- What the lines refuse is not chosen from them. -/
theorem choice_ne_of_refused {self : CompressionLayer} {headers : H} {coding : Str × Encoding}
    (h : Refused headers coding) :
    self.choice (firstEntries headers ++ laterEntries headers) ≠ some coding := by
  intro hchoice
  obtain ⟨quality, hlast, hzero⟩ := h
  have haccepted := List.find?_some hchoice
  rw [Accept.accepted, Preference.accepts, Preference.weight, ← key, hlast] at haccepted
  rw [Option.some_or, Option.any_some, hzero] at haccepted
  cases haccepted

/-- **When the layer chooses as the lines together say**, and so never a coding they refuse: the
later lines do not overrule the first one, but about codings behind one that stays accepted. -/
theorem negotiated_eq_joined_iff (self : CompressionLayer) (req : Request H E (Body H)) :
    (self.negotiated req.headers = self.joinedChoice req ∧
        ∀ coding ∈ self.enabled, Refused req.headers coding →
          self.negotiated req.headers ≠ some coding.2) ↔
      self.FirstLineDecides req.headers := by
  rw [← choice_eq_choice_iff, negotiated_eq, joinedChoice_eq]
  constructor
  · rintro ⟨hmap, -⟩
    cases hfirst : self.choice (firstEntries req.headers) with
    | none =>
      rw [hfirst, Option.map_none, eq_comm, Option.map_eq_none_iff] at hmap
      exact hmap.symm
    | some a =>
      rw [hfirst, Option.map_some, eq_comm, Option.map_eq_some_iff] at hmap
      obtain ⟨b, hall, hencoding⟩ := hmap
      rw [hall, eq_of_encoding_eq (List.mem_of_find?_eq_some hall)
        (List.mem_of_find?_eq_some hfirst) hencoding]
  · intro heq
    rw [heq]
    refine ⟨rfl, fun coding hcoding hrefused hmap ↦ ?_⟩
    obtain ⟨chosen, hchosen, hencoding⟩ := Option.map_eq_some_iff.1 hmap
    have hmem := List.mem_of_find?_eq_some hchosen
    rw [eq_of_encoding_eq hmem hcoding hencoding] at hchosen
    exact choice_ne_of_refused hrefused hchosen

end CompressionLayer

namespace CompressionLayer

section Counterexample

attribute [local instance] Accept.zeroOrOne

/-- A request with two lines. -/
private def twoLines (line line' : HeaderValue) : Request (AssocList HeaderName HeaderValue)
    (Option Unit) (Body (AssocList HeaderName HeaderValue)) where
  inner := ⟨.get, { path := ['/'] },
    ⟨[(HeaderName.acceptEncoding, line), (HeaderName.acceptEncoding, line')]⟩, none, Body.empty,
    .http11⟩
  extensions := none

/-- The default layer uses a coding that the second line refuses, and does not use one that only the
second line offers. -/
theorem negotiated_twoLines :
    ({} : CompressionLayer).negotiated
        (twoLines HeaderValue.gzip (HeaderValue.fromStatic "gzip;q=0")).headers ≠
      ({} : CompressionLayer).joinedChoice
        (twoLines HeaderValue.gzip (HeaderValue.fromStatic "gzip;q=0")) ∧
    ({} : CompressionLayer).negotiated
        (twoLines (HeaderValue.fromStatic "identity") HeaderValue.gzip).headers ≠
      ({} : CompressionLayer).joinedChoice
        (twoLines (HeaderValue.fromStatic "identity") HeaderValue.gzip) := by
  decide

end Counterexample

end CompressionLayer
