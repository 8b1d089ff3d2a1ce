import Arvik.Core.FieldList
import Arvik.Static.IfRange

/-!
# Conditional requests

A client that has some versions of an asset lists their entity tags, and is answered with a 304 if
the asset is still one of them; a client that knows no tag may send the time its version was
modified. `ConditionalGet` says what a request may expect: that there is an answer, that it is a 304
exactly if the client has the version, and that a validator which was served is recognized.

## Where the code differs

The list may be sent in several lines. `isNotModified` reads the first one only, and if it cannot
read that one, it goes by the time instead (`FirstLineDecides`).

An answer names the modification time, and the date library panics on a time outside its years. A
range that cannot be satisfied is refused without naming it, so this is the one answer that is
always made (`IsAnswerable`).

`conditionalGet_iff` shows that there are no other reasons. The tags the services make are quoted
digits (`IsServiceTag`): they can be read, they hold no comma, and none of them looks like a weak
tag, so the comparison of the code is the weak comparison.
-/

namespace Static

/-! ### Having a version -/

/-- An entity tag as far as the weak comparison goes. -/
def opaqueTag (tag : Str) : Str :=
  (Text.stripPrefix "W/".toList tag).getD tag

/-- An element of a list of entity tags that stands for the tag. -/
def namesTag (etag : HeaderValue) (element : Str) : Bool :=
  element = ['*'] || opaqueTag element = opaqueTag (FieldList.chars etag)

section Version

variable {H E B : Type} [Multimap H HeaderName HeaderValue] [HttpDateLib]

/-- The time a version was modified at is not before that of the asset, in whole seconds. -/
def isSince (req : Request H E B) (modified : Option SystemTime) : Bool :=
  modified.any fun time ↦
    (((Multimap.get req.headers HeaderName.ifModifiedSince).bind HeaderValue.toStr).bind
      HttpDateLib.parse).any fun since ↦ time.nanos / 10 ^ 9 ≤ since.nanos / 10 ^ 9

/-- The client has the version of the asset. -/
def hasVersion (req : Request H E B) (etag : HeaderValue) (modified : Option SystemTime) : Bool :=
  let lines := Multimap.getAll req.headers HeaderName.ifNoneMatch
  if lines = [] then isSince req modified else (FieldList.elements lines).any (namesTag etag)

/-- One of the lines lists the tag. -/
def listsTag (etag : HeaderValue) (line : HeaderValue) : Bool :=
  (FieldList.elements [line]).any (namesTag etag)

omit [HttpDateLib] in
/-- A list of entity tags is what its lines list. -/
theorem any_namesTag_iff {lines : List HeaderValue} (hlines : lines ≠ []) (etag : HeaderValue) :
    (FieldList.elements lines).any (namesTag etag) ↔ ∃ line ∈ lines, listsTag etag line := by
  simp only [listsTag, List.any_eq_true, FieldList.mem_elements_iff hlines]
  constructor
  · rintro ⟨element, ⟨line, hline, helement⟩, hnames⟩
    exact ⟨line, hline, element, helement, hnames⟩
  · rintro ⟨line, hline, element, helement, hnames⟩
    exact ⟨element, ⟨line, hline, helement⟩, hnames⟩

omit [Multimap H HeaderName HeaderValue] [HttpDateLib] in
/-- No date is before the epoch, so times before it may be taken for the epoch. -/
theorem unixSeconds_le_iff {time since : SystemTime} (h : 0 ≤ since.nanos) :
    unixSeconds time ≤ unixSeconds since ↔ time.nanos / 10 ^ 9 ≤ since.nanos / 10 ^ 9 := by
  rw [unixSeconds, unixSeconds]
  omega

/-- The tags the services make can be read, and do not look like weak ones. Both are needed to
compare a tag with a list of tags as texts. -/
inductive IsServiceTag : HeaderValue → Prop
  | fs (len : ℕ) (modified : Option SystemTime) : IsServiceTag (fsEtag len modified)
  | embedded (hash : Vector UInt8 32) : IsServiceTag (embeddedEtag hash)

/-- The characters of the tags the services make. -/
def isTagChar (c : Char) : Bool :=
  c = '"' || c = '-' || (List.range 16).any fun d ↦ c = Nat.digitChar d

omit [Multimap H HeaderName HeaderValue] [HttpDateLib] in
theorem isTagChar_digitChar {d : ℕ} (hd : d < 16) : isTagChar (Nat.digitChar d) := by
  rw [isTagChar, Bool.or_eq_true]
  exact .inr (List.any_eq_true.2 ⟨d, List.mem_range.2 hd, decide_eq_true rfl⟩)

omit [Multimap H HeaderName HeaderValue] [HttpDateLib] in
theorem isTagChar_of_mem_fsEtagText {len : ℕ} {modified : Option SystemTime} {c : Char}
    (hc : c ∈ fsEtagText len modified) : isTagChar c := by
  have hdigits : ∀ {n : ℕ}, c ∈ Nat.toDigits 16 n → isTagChar c := fun hmem ↦ by
    obtain ⟨d, hd, rfl⟩ := Text.exists_digitChar_of_mem_toDigits (by decide) hmem
    exact isTagChar_digitChar hd
  simp only [fsEtagText, List.cons_append, List.mem_cons, List.mem_append, List.not_mem_nil,
    or_false] at hc
  rcases hc with rfl | ((hc | rfl | hc) | rfl | hc) | rfl
  · rfl
  · exact hdigits hc
  · rfl
  · exact hdigits hc
  · rfl
  · exact hdigits hc
  · rfl

omit [Multimap H HeaderName HeaderValue] [HttpDateLib] in
theorem isTagChar_of_mem_etagText {hash : Vector UInt8 32} {c : Char} (hc : c ∈ etagText hash) :
    isTagChar c := by
  simp only [etagText, List.cons_append, List.mem_cons, List.mem_append, List.mem_flatMap,
    List.not_mem_nil, or_false] at hc
  rcases hc with rfl | ⟨b, -, hc⟩ | rfl
  · rfl
  · have hlt := UInt8.toNat_lt b
    rcases List.mem_pair.1 hc with rfl | rfl
    · exact isTagChar_digitChar (by omega)
    · exact isTagChar_digitChar (by omega)
  · rfl

omit [Multimap H HeaderName HeaderValue] [HttpDateLib] in
/-- A tag the services make can be read, is quoted, and is one element of a list. -/
theorem IsServiceTag.toStr {etag : HeaderValue} (h : IsServiceTag etag) :
    ∃ text, etag.toStr = some text ∧ text.head? = some '"' ∧ text.all isTagChar := by
  rcases h with ⟨len, modified⟩ | ⟨hash⟩
  · exact ⟨_, (isStrongTag_fsEtag len modified).2, rfl,
      List.all_eq_true.2 fun c hc ↦ isTagChar_of_mem_fsEtagText hc⟩
  · exact ⟨_, HeaderValue.toStr_ofVisible (etagText_visible hash), rfl,
      List.all_eq_true.2 fun c hc ↦ isTagChar_of_mem_etagText hc⟩

omit [Multimap H HeaderName HeaderValue] [HttpDateLib] in
/-- A tag alone is a list of one element. -/
theorem IsServiceTag.elements_eq {etag : HeaderValue} (h : IsServiceTag etag) :
    FieldList.elements [etag] = [FieldList.chars etag] := by
  obtain ⟨text, htext, -, hall⟩ := h.toStr
  have hdigit : ∀ d ∈ List.range 16,
      Nat.digitChar d ≠ ',' ∧ Text.isWhitespace (Nat.digitChar d) = false := by decide
  have hchar : ∀ c, isTagChar c → c ≠ ',' ∧ Text.isWhitespace c = false := by
    intro c hc
    simp only [isTagChar, Bool.or_eq_true, decide_eq_true_iff, List.any_eq_true] at hc
    rcases hc with (rfl | rfl) | ⟨d, hd, rfl⟩
    · decide
    · decide
    · exact hdigit d hd
  have hcomma : ',' ∉ text := fun hc ↦ (hchar _ (List.all_eq_true.1 hall _ hc)).1 rfl
  rw [FieldList.elements_of_toStr htext, List.splitOn_eq_singleton hcomma, List.map_singleton,
    Text.trim_eq_self_of_forall fun c hc ↦ (hchar c (List.all_eq_true.1 hall c hc)).2,
    FieldList.chars_of_toStr htext]

omit [Multimap H HeaderName HeaderValue] [HttpDateLib] in
/-- A strong tag matches itself, with or without the mark of a weak one. -/
theorem etagMatches_iff {etag : Str} (h : etag.head? = some '"') (candidate : Str) :
    etagMatches candidate etag ↔ opaqueTag candidate = opaqueTag etag := by
  obtain ⟨rest, rfl⟩ := List.head?_eq_some_iff.1 h
  have hetag : Text.stripPrefix "W/".toList ('"' :: rest) = none := rfl
  rw [etagMatches, opaqueTag, opaqueTag, hetag]
  rcases hstrip : Text.stripPrefix "W/".toList candidate with - | tag
  · simp
  · have hne : candidate ≠ '"' :: rest := by
      rintro rfl
      rw [hetag] at hstrip
      cases hstrip
    simp [hne]

/-- A first line that can be read decides. -/
theorem isNotModified_of_readable {req : Request H E B} {etag : HeaderValue}
    (hetag : IsServiceTag etag) (modified : Option SystemTime) {line : HeaderValue} {header : Str}
    (hline : Multimap.get req.headers HeaderName.ifNoneMatch = some line)
    (hheader : line.toStr = some header) :
    isNotModified req etag modified = listsTag etag line := by
  obtain ⟨text, htext, hquote, -⟩ := hetag.toStr
  have hnames : ∀ element, (element = ['*'] || etagMatches element text) =
      namesTag etag element := fun element ↦ by
    rw [namesTag, FieldList.chars_of_toStr htext]
    congr 1
    rw [Bool.eq_iff_iff, etagMatches_iff hquote, decide_eq_true_iff]
  simp only [isNotModified, hline, Option.bind_some, hheader, htext]
  rw [listsTag, FieldList.elements_of_toStr hheader]
  exact congrArg (List.any _) (funext hnames)

/-- Without such a line, the time decides. -/
theorem isNotModified_of_unreadable [LawfulHttpDateLib] {req : Request H E B} (etag : HeaderValue)
    (modified : Option SystemTime)
    (hline : (Multimap.get req.headers HeaderName.ifNoneMatch).bind HeaderValue.toStr = none) :
    isNotModified req etag modified = isSince req modified := by
  simp only [isNotModified, hline, isSince]
  rcases modified with - | time
  · rfl
  · rcases Multimap.get req.headers HeaderName.ifModifiedSince with - | value
    · rfl
    · show Option.any _ (value.toStr.bind HttpDateLib.parse) = _
      rw [Option.any_some, Option.bind_some]
      rcases hsince : value.toStr.bind HttpDateLib.parse with - | since
      · rfl
      · obtain ⟨text, -, hparse⟩ := Option.bind_eq_some_iff.1 hsince
        -- The code cuts times off at the epoch, which no date that is parsed comes before.
        rw [Option.any_some, Option.any_some, Bool.eq_iff_iff, decide_eq_true_iff,
          decide_eq_true_iff, unixSeconds_le_iff (LawfulHttpDateLib.parse_nonneg hparse)]

end Version

/-! ### Answers -/

section Answer

variable {H E B : Type} [Multimap H HeaderName HeaderValue] [Extensions E] [FromBytes B]
  [HttpDateLib]

/-- The request for the asset is answered with a 304. -/
def IsAnswered304 (asset : Asset B) (req : Request H E B) : Prop :=
  ∀ head cacheControl, ∃ response : Response H E B,
    serveAsset asset req head cacheControl = some response ∧ response.status = .notModified

/-- What a client makes of conditional requests: it is answered, with a 304 exactly if it has the
version of the asset, and so if it sends one of the validators it was served. -/
structure ConditionalGet (asset : Asset B) (req : Request H E B) : Prop where
  decided : isNotModified req asset.etag asset.modified = hasVersion req asset.etag asset.modified
  answered : ∀ head cacheControl, ∃ response : Response H E B,
    serveAsset asset req head cacheControl = some response ∧
      (response.status = .notModified ↔ hasVersion req asset.etag asset.modified)
  etag : ∀ value, Serves H E asset HeaderName.etag value →
    (∃ line ∈ Multimap.getAll req.headers HeaderName.ifNoneMatch,
      line = value ∨ FieldList.chars value ∈ FieldList.elements [line]) → IsAnswered304 asset req
  lastModified : ∀ value, Serves H E asset HeaderName.lastModified value →
    Multimap.getAll req.headers HeaderName.ifNoneMatch = [] →
      Multimap.get req.headers HeaderName.ifModifiedSince = some value → IsAnswered304 asset req

/-- Of several lines the first one alone is read: it lists the tag if any line does. If it cannot be
read, the time says the same as the lines. -/
def FirstLineDecides (req : Request H E B) (etag : HeaderValue) (modified : Option SystemTime) :
    Prop :=
  ∀ first rest, Multimap.getAll req.headers HeaderName.ifNoneMatch = first :: rest →
    if first.toStr.isSome then listsTag etag first ∨ ∀ line ∈ rest, ¬ listsTag etag line
    else isSince req modified ↔ ∃ line ∈ first :: rest, listsTag etag line

/-- The answer does not need the text of a modification time that has none: there is one, or the
client does not have the version and asks for a range that cannot be satisfied. -/
def IsAnswerable (asset : Asset B) (req : Request H E B) : Prop :=
  (asset.modified.mapM HttpDateLib.fmt).isSome ∨
    hasVersion req asset.etag asset.modified = false ∧ rangeDecision asset req = .unsatisfiable

omit [Extensions E] [FromBytes B] in
/-- The decision of the code is right exactly where the first line decides. -/
theorem isNotModified_eq_hasVersion_iff [LawfulHttpDateLib] {req : Request H E B}
    {etag : HeaderValue} (hetag : IsServiceTag etag) (modified : Option SystemTime) :
    isNotModified req etag modified = hasVersion req etag modified ↔
      FirstLineDecides req etag modified := by
  have hget : Multimap.get req.headers HeaderName.ifNoneMatch =
      (Multimap.getAll req.headers HeaderName.ifNoneMatch).head? := rfl
  rw [FirstLineDecides]
  rcases hlines : Multimap.getAll req.headers HeaderName.ifNoneMatch with - | ⟨first, rest⟩
  · rw [hlines] at hget
    refine iff_of_true ?_ nofun
    rw [isNotModified_of_unreadable etag modified (by rw [hget]; rfl), hasVersion]
    exact (if_pos hlines).symm
  · rw [hlines] at hget
    have hversion : hasVersion req etag modified ↔ ∃ line ∈ first :: rest, listsTag etag line := by
      rw [← any_namesTag_iff (List.cons_ne_nil _ _), hasVersion, hlines]
      exact Iff.rfl
    simp only [List.cons.injEq, and_imp, forall_eq', forall_apply_eq_imp_iff]
    rcases hfirst : first.toStr with - | header
    · -- An unreadable first line leaves the decision to the time.
      rw [isNotModified_of_unreadable etag modified (by rw [hget]; exact hfirst),
        Bool.eq_iff_iff, hversion]
      rfl
    · rw [isNotModified_of_readable hetag modified hget hfirst, Bool.eq_iff_iff, hversion,
        Option.isSome_some, if_pos rfl]
      by_cases hlists : listsTag etag first
      · exact iff_of_true (iff_of_true hlists ⟨first, List.mem_cons_self, hlists⟩) (.inl hlists)
      · simp [hlists]

/-- A 304 is answered if the modification time can be formatted. -/
theorem isAnswered304 {asset : Asset B} {req : Request H E B}
    (hmod : isNotModified req asset.etag asset.modified)
    (hfmt : (asset.modified.mapM HttpDateLib.fmt).isSome) : IsAnswered304 asset req := by
  intro head cacheControl
  have hsome : (serveAsset asset req head cacheControl : Option (Response H E B)).isSome :=
    isSome_serveAsset_iff.2 (.inl hfmt)
  obtain ⟨response, hresponse⟩ := Option.isSome_iff_exists.1 hsome
  exact ⟨response, hresponse, (serveAsset_answers hresponse).notModified_iff.2 hmod⟩

omit [Extensions E] [FromBytes B] in
/-- A client that sends the tag it was served has the version. -/
theorem hasVersion_of_etag {asset : Asset B} (hetag : IsServiceTag asset.etag)
    {req : Request H E B} {line : HeaderValue}
    (hline : line ∈ Multimap.getAll req.headers HeaderName.ifNoneMatch)
    (hvalue : line = asset.etag ∨ FieldList.chars asset.etag ∈ FieldList.elements [line]) :
    hasVersion req asset.etag asset.modified := by
  have hne := List.ne_nil_of_mem hline
  have helement : FieldList.chars asset.etag ∈ FieldList.elements [line] := by
    rcases hvalue with rfl | hvalue
    · rw [hetag.elements_eq]
      exact List.mem_singleton_self _
    · exact hvalue
  rw [hasVersion, if_neg hne, any_namesTag_iff hne]
  refine ⟨line, hline, List.any_eq_true.2 ⟨_, helement, ?_⟩⟩
  rw [namesTag, decide_eq_true rfl, Bool.or_true]

/-- A client that sends the time it was served has the version. -/
theorem hasVersion_of_lastModified [LawfulHttpDateLib] {asset : Asset B} {req : Request H E B}
    {value : HeaderValue} (hserves : Serves H E asset HeaderName.lastModified value)
    (hlines : Multimap.getAll req.headers HeaderName.ifNoneMatch = [])
    (hvalue : Multimap.get req.headers HeaderName.ifModifiedSince = some value) :
    hasVersion req asset.etag asset.modified := by
  obtain ⟨time, text, hmodified, hfmt, htext⟩ := hserves.lastModified
  obtain ⟨visible, hvisible, htoStr⟩ := HeaderValue.fromStr_visible (HttpDateLib.fmt_visible hfmt)
  obtain rfl := Option.some.inj (hvisible.symm.trans htext)
  rw [hasVersion, if_pos hlines, isSince, hmodified, Option.any_some, hvalue, Option.bind_some,
    htoStr, Option.bind_some, LawfulHttpDateLib.parse_fmt hfmt, Option.any_some, decide_eq_true_iff]
  show time.nanos / 10 ^ 9 ≤ time.nanos / 10 ^ 9 * 10 ^ 9 / 10 ^ 9
  omega

/-- **Conditional requests are answered rightly** exactly where the first line decides and the
answer can be made. Other lines of a list are not read, and an answer with a date that cannot be
formatted is none. -/
theorem conditionalGet_iff [LawfulHttpDateLib] {asset : Asset B} (hetag : IsServiceTag asset.etag)
    (req : Request H E B) :
    ConditionalGet asset req ↔
      FirstLineDecides req asset.etag asset.modified ∧ IsAnswerable asset req := by
  rw [← isNotModified_eq_hasVersion_iff hetag]
  constructor
  · intro h
    refine ⟨h.decided, ?_⟩
    obtain ⟨response, hresponse, -⟩ := h.answered false none
    rw [IsAnswerable, ← h.decided]
    exact isSome_serveAsset_iff.1 (Option.isSome_of_eq_some hresponse)
  · rintro ⟨hdecided, hanswerable⟩
    rw [IsAnswerable, ← hdecided] at hanswerable
    constructor
    · exact hdecided
    · intro head cacheControl
      obtain ⟨response, hresponse⟩ := Option.isSome_iff_exists.1
        (isSome_serveAsset_iff.2 hanswerable)
      refine ⟨response, hresponse, ?_⟩
      rw [← hdecided]
      exact (serveAsset_answers hresponse).notModified_iff
    · rintro value hserves ⟨line, hline, hvalue⟩
      obtain ⟨rfl, hfmt⟩ := hserves.etag
      refine isAnswered304 ?_ hfmt
      rw [hdecided]
      exact hasVersion_of_etag hetag hline hvalue
    · intro value hserves hlines hvalue
      obtain ⟨time, text, hmodified, hfmt, -⟩ := hserves.lastModified
      refine isAnswered304 ?_ ?_
      · rw [hdecided]
        exact hasVersion_of_lastModified hserves hlines hvalue
      · rw [hmodified]
        simp [hfmt]

end Answer

/-! ### The second line -/

section SecondLine

attribute [local instance] epochDates

/-- The file of one byte, as an asset. -/
def fileAsset : Asset FileBody :=
  fsAsset ⟨[[102]], ⟨[0], some ⟨1000000000⟩⟩⟩ fileCandidate 65536

/-- A request that lists another tag on one line and that of the file on the next. -/
def secondLineRequest : Request (AssocList HeaderName HeaderValue) (Option OriginalUri) FileBody :=
  requestWith [(HeaderName.ifNoneMatch, emptyTag), (HeaderName.ifNoneMatch, fileAsset.etag)]

/-- The tag of the file is passed over on the second line: the client gets the file again. -/
theorem not_conditionalGet_secondLine : ¬ ConditionalGet fileAsset secondLineRequest := by
  intro h
  have hdecided := h.decided
  exact absurd hdecided (by decide)

/-- On the first line it is found. -/
theorem conditionalGet_firstLine : ConditionalGet fileAsset
    (requestWith [(HeaderName.ifNoneMatch, fileAsset.etag)] :
      Request (AssocList HeaderName HeaderValue) (Option OriginalUri) FileBody) :=
  (conditionalGet_iff (IsServiceTag.fs _ _) _).2 ⟨by
    rintro first rest hlines
    obtain ⟨rfl, rfl⟩ := List.cons.inj hlines
    exact .inl (by decide), .inl (by decide)⟩

end SecondLine

end Static
