import Arvik.Core.ResponseBuilder
import Mathlib.Algebra.Group.Int.Defs

/-!
# Serving an asset

What the filesystem service and the embedded one share: the validators of a request, the range it
asks for, and the response. An `Asset` is what has been selected for serving; its body is given as a
whole and by ranges, and a range carries the proof that it is one of the asset's.

HTTP dates are formatted and parsed by a library. Formatting panics outside the years it supports,
so the responses below are optional, and every statement about a response has to say whether there
is one: `isSome_serveAsset_iff` is the exact condition, and names the one branch that formats
nothing, a range that cannot be satisfied.

`serveAsset` makes its decisions in the order of the source, validators first, then the range. What
a client may rely on is collected in `Answers`: a 304 exactly for a client that has this version,
the entity tag on every answer but one, and a body that is that of the asset.
-/

/-- A point in time, in nanoseconds since the epoch. -/
structure SystemTime where
  nanos : ℤ
  deriving DecidableEq

/-- The time so many seconds after the epoch. -/
def SystemTime.ofSeconds (seconds : ℕ) : SystemTime where
  nanos := seconds * 10 ^ 9

theorem SystemTime.ofSeconds_injective : Function.Injective ofSeconds := by
  intro s t hst
  have hnanos : (s : ℤ) * 10 ^ 9 = t * 10 ^ 9 := congrArg nanos hst
  omega

/-- The HTTP date library. -/
class HttpDateLib where
  /-- Format a time; `none` when it is out of range. -/
  fmt : SystemTime → Option Str
  parse : Str → Option SystemTime
  fmt_visible : ∀ {t s}, fmt t = some s → ∀ c ∈ s, 32 ≤ c.toNat ∧ c.toNat < 127

/-- The time, cut down to whole seconds. -/
def SystemTime.wholeSeconds (time : SystemTime) : SystemTime where
  nanos := time.nanos / 10 ^ 9 * 10 ^ 9

theorem SystemTime.wholeSeconds_wholeSeconds (time : SystemTime) :
    time.wholeSeconds.wholeSeconds = time.wholeSeconds := by
  have hnanos : time.nanos / 10 ^ 9 * 10 ^ 9 / 10 ^ 9 * 10 ^ 9 = time.nanos / 10 ^ 9 * 10 ^ 9 := by
    omega
  exact congrArg SystemTime.mk hnanos

/-- What is documented of the HTTP date library: a formatted time starts with a day of the week and
is parsed to its whole seconds, and no date is before the epoch. -/
class LawfulHttpDateLib [HttpDateLib] : Prop where
  fmt_day : ∀ {t s}, HttpDateLib.fmt t = some s →
    ∃ day ∈ ["Mon", "Tue", "Wed", "Thu", "Fri", "Sat", "Sun"], ∃ rest, s = day.toList ++ ',' :: rest
  parse_fmt : ∀ {t s}, HttpDateLib.fmt t = some s → HttpDateLib.parse s = some t.wholeSeconds
  parse_nonneg : ∀ {s t}, HttpDateLib.parse s = some t → 0 ≤ t.nanos

namespace Static

/-! ### Validators -/

section Validators

variable {H E B : Type} [Multimap H HeaderName HeaderValue] [HttpDateLib]

/-- Whole seconds since the epoch; zero for earlier times. -/
def unixSeconds (time : SystemTime) : ℕ :=
  time.nanos.toNat / 10 ^ 9

/-- Weak comparison of entity tags. -/
def etagMatches (candidate etag : Str) : Bool :=
  candidate = etag || Text.stripPrefix "W/".toList candidate = some etag ||
    Text.stripPrefix "W/".toList etag = some candidate

/-- The request asks for nothing newer than the asset. -/
def isNotModified (req : Request H E B) (etag : HeaderValue) (modified : Option SystemTime) :
    Bool :=
  match (Multimap.get req.headers HeaderName.ifNoneMatch).bind HeaderValue.toStr, etag.toStr with
  | some header, some etag =>
    ((header.splitOn ',').map Text.trim).any fun candidate ↦
      candidate = ['*'] || etagMatches candidate etag
  | _, _ =>
    match modified, Multimap.get req.headers HeaderName.ifModifiedSince with
    | some modified, some value =>
      (value.toStr.bind HttpDateLib.parse).any fun since ↦ unixSeconds modified ≤ unixSeconds since
    | _, _ => false

/-- A range may be served: there is no `If-Range`, or it names this very version. -/
def ifRangeAllowsPartial (req : Request H E B) (etag : HeaderValue)
    (modified : Option SystemTime) : Bool :=
  match Multimap.get req.headers HeaderName.ifRange with
  | none => true
  | some raw =>
    match raw.toStr with
    | none => false
    | some value =>
      if value.head? = some '"' ∨ (Text.stripPrefix "W/".toList value).isSome then
        -- a weak validator never satisfies the strong comparison
        (Text.stripPrefix "W/".toList value).isNone && Text.utf8 value = etag.bytes
      else
        match modified with
        | some modified => (HttpDateLib.parse value).any (· = modified)
        | none => false

end Validators

/-! ### Ranges -/

/-- A range of an asset of `len` bytes, both ends included. -/
structure ByteRange (len : ℕ) where
  start : ℕ
  stop : ℕ
  le : start ≤ stop
  lt : stop < len
  deriving DecidableEq

/-- What to do about a range header. -/
inductive RangeDecision (len : ℕ)
  | full
  | part (range : ByteRange len)
  | unsatisfiable
  deriving DecidableEq

/-- The range between two texts of digits, one of which may be missing. -/
def parseSpec (start stop : Str) (len : ℕ) : RangeDecision len :=
  if hlen : len = 0 then .unsatisfiable
  else if start = [] then
    -- the last bytes, as many as there are
    match Text.parseUnsigned 64 stop with
    | none => .unsatisfiable
    | some suffix =>
      if hsuffix : suffix = 0 then .unsatisfiable
      else .part ⟨len - min suffix len, len - 1, by omega, by omega⟩
  else
    match Text.parseUnsigned 64 start with
    | none => .unsatisfiable
    | some first =>
      if hfirst : len ≤ first then .unsatisfiable
      -- up to the end
      else if stop = [] then .part ⟨first, len - 1, by omega, by omega⟩
      else
        match Text.parseUnsigned 64 stop with
        | none => .unsatisfiable
        | some last =>
          if hlast : last < first then .unsatisfiable
          else .part ⟨first, min last (len - 1), by omega, by omega⟩

/-- The range a header asks for. Unknown units and lists of ranges are ignored. -/
def parseRange (value : Option HeaderValue) (len : ℕ) : RangeDecision len :=
  match (value.bind HeaderValue.toStr).bind (Text.stripPrefix "bytes=".toList) with
  | none => .full
  | some spec =>
    if ',' ∈ spec ∨ spec = [] then .full
    else match Text.splitOnce '-' spec with
      | none => .unsatisfiable
      | some (start, stop) => parseSpec start stop len

/-! ### Responses -/

/-- An asset selected for serving; `B` is the type of bodies. -/
structure Asset (B : Type) where
  len : ℕ
  modified : Option SystemTime
  etag : HeaderValue
  contentType : HeaderValue
  contentEncoding : Option HeaderValue
  varyAcceptEncoding : Bool
  /-- The whole body. -/
  whole : B
  /-- The body of a range. -/
  slice : ByteRange len → B

section Responses

variable {H E B : Type} [Multimap H HeaderName HeaderValue] [Extensions E] [FromBytes B]
  [HttpDateLib]

/-- The `Vary` header of an asset with precompressed variants. -/
def varyValue (vary : Bool) : Option HeaderValue :=
  if vary then some (HeaderValue.fromStatic "Accept-Encoding") else none

/-- The response to a request for nothing newer. -/
def notModified (etag : HeaderValue) (modified : Option SystemTime)
    (cacheControl : Option HeaderValue) (vary : Bool) : Option (Response H E B) := do
  let builder := (ResponseBuilder.new.status .notModified).header HeaderName.etag etag
  let lastModified ← modified.mapM HttpDateLib.fmt
  let builder := builder.headerIf HeaderName.lastModified lastModified
  let builder := builder.headerIf HeaderName.cacheControl cacheControl
  let builder := builder.headerIf HeaderName.vary (varyValue vary)
  return builder.empty

/-- The response to an unsatisfiable range. -/
def rangeNotSatisfiable (len : ℕ) : Response H E B :=
  ((ResponseBuilder.new.status .rangeNotSatisfiable).header HeaderName.contentRange
    ("bytes */".toList ++ Nat.toDigits 10 len)).empty

/-- The text of a `Content-Range` header. -/
def contentRange {len : ℕ} (range : ByteRange len) : Str :=
  "bytes ".toList ++ Nat.toDigits 10 range.start ++ '-' :: Nat.toDigits 10 range.stop ++
    '/' :: Nat.toDigits 10 len

/-- The builder of the response carrying an asset, or a range of it. -/
def assetBuilder (asset : Asset B) (range : Option (ByteRange asset.len))
    (cacheControl : Option HeaderValue) (lastModified : Option Str) : ResponseBuilder H E :=
  let bodyLen := (range.map fun range ↦ range.stop - range.start + 1).getD asset.len
  let builder := ResponseBuilder.new.status (if range.isSome then .partialContent else .ok)
  let builder := builder.header HeaderName.contentType asset.contentType
  let builder := builder.header HeaderName.contentLength (HeaderValue.fromNat bodyLen)
  let builder := builder.header HeaderName.acceptRanges (HeaderValue.fromStatic "bytes")
  let builder := builder.header HeaderName.etag asset.etag
  let builder := builder.headerIf HeaderName.lastModified lastModified
  let builder := builder.headerIf HeaderName.cacheControl cacheControl
  let builder := builder.headerIf HeaderName.contentEncoding asset.contentEncoding
  let builder := builder.headerIf HeaderName.vary (varyValue asset.varyAcceptEncoding)
  builder.headerIf HeaderName.contentRange (range.map contentRange)

/-- The body asked for: that of the asset or of a range of it, or none for a `HEAD` request. -/
def assetBody (asset : Asset B) (range : Option (ByteRange asset.len)) (head : Bool) : B :=
  if head then FromBytes.empty
  else match range with
    | some range => asset.slice range
    | none => asset.whole

/-- The response carrying an asset, or a range of it. -/
def respond (asset : Asset B) (range : Option (ByteRange asset.len)) (head : Bool)
    (cacheControl : Option HeaderValue) : Option (Response H E B) := do
  let lastModified ← asset.modified.mapM HttpDateLib.fmt
  return (assetBuilder asset range cacheControl lastModified).body (assetBody asset range head)

/-- The range of an asset a request asks for and may have. -/
def rangeDecision (asset : Asset B) (req : Request H E B) : RangeDecision asset.len :=
  if ifRangeAllowsPartial req asset.etag asset.modified then
    parseRange (Multimap.get req.headers HeaderName.range) asset.len
  else .full

/-- The response to a request for an asset. -/
def serveAsset (asset : Asset B) (req : Request H E B) (head : Bool)
    (cacheControl : Option HeaderValue) : Option (Response H E B) :=
  if isNotModified req asset.etag asset.modified then
    notModified asset.etag asset.modified cacheControl asset.varyAcceptEncoding
  else
    match rangeDecision asset req with
    | .full => respond asset none head cacheControl
    | .part range => respond asset (some range) head cacheControl
    | .unsatisfiable => some (rangeNotSatisfiable asset.len)

/-! ### What the responses carry -/

omit [FromBytes B] [Multimap H HeaderName HeaderValue] [Extensions E] in
/-- Formatted times are visible. -/
theorem fmt_mapM_visible {modified : Option SystemTime} {lastModified : Option Str}
    (h : modified.mapM HttpDateLib.fmt = some lastModified) :
    ∀ s ∈ lastModified, ∀ c ∈ s, 32 ≤ c.toNat ∧ c.toNat < 127 := by
  rintro s rfl
  rcases modified with - | t
  · cases h
  · exact HttpDateLib.fmt_visible (by simpa using h)

omit [HttpDateLib] in
theorem contentRange_visible {len : ℕ} (range : ByteRange len) :
    ∀ c ∈ contentRange range, 32 ≤ c.toNat ∧ c.toNat < 127 := by
  have hbytes : "bytes ".toList.all fun c ↦ 32 ≤ c.toNat ∧ c.toNat < 127 := by decide
  have hdigits : ∀ {sep : Char} {n : ℕ} {c : Char}, 32 ≤ sep.toNat ∧ sep.toNat < 127 →
      c ∈ sep :: Nat.toDigits 10 n → 32 ≤ c.toNat ∧ c.toNat < 127 := by
    intro sep n c hsep hc
    rcases List.mem_cons.1 hc with rfl | hc
    · exact hsep
    · exact HeaderValue.toDigits_visible c hc
  intro c hc
  rcases List.mem_append.1 hc with hc | hc
  · rcases List.mem_append.1 hc with hc | hc
    · rcases List.mem_append.1 hc with hc | hc
      · exact of_decide_eq_true (List.all_eq_true.1 hbytes c hc)
      · exact HeaderValue.toDigits_visible c hc
    · exact hdigits (by decide) hc
  · exact hdigits (by decide) hc

/-- A 304 carries the entity tag, and no body. -/
theorem notModified_eq_some {etag : HeaderValue} {modified : Option SystemTime}
    {cacheControl : Option HeaderValue} {vary : Bool} {response : Response H E B}
    (h : notModified etag modified cacheControl vary = some response) :
    response.status = .notModified ∧
      Multimap.getAll response.headers HeaderName.etag = [etag] ∧
      response.body = FromBytes.empty := by
  simp only [notModified, Option.bind_eq_bind, Option.bind_eq_some_iff, Option.pure_def,
    Option.some.injEq] at h
  obtain ⟨lastModified, hlast, rfl⟩ := h
  obtain ⟨value, hvalue⟩ := ResponseBuilder.headerIf_ofPairs_of_visible (H := H) (E := E)
    HeaderName.lastModified (fmt_mapM_visible hlast)
  rw [ResponseBuilder.status_new, ResponseBuilder.header_ofPairs, hvalue]
  simp only [ResponseBuilder.headerIf_ofPairs, ResponseBuilder.empty]
  refine ⟨rfl, ?_, rfl⟩
  rw [ResponseBuilder.getAll_body_ofPairs]
  simp (disch := decide) only [Multimap.valuesFor_append, Multimap.valuesFor_map_toList_of_ne,
    Multimap.valuesFor_cons, Multimap.valuesFor_nil, List.nil_append, List.append_nil]
  rfl

omit [HttpDateLib] in
/-- The refusal of a range is a response with one header. -/
theorem rangeNotSatisfiable_eq (len : ℕ) : ∃ value, (rangeNotSatisfiable len : Response H E B) =
    (ResponseBuilder.ofPairs .rangeNotSatisfiable [(HeaderName.contentRange, value)]).empty := by
  have hbytes : "bytes */".toList.all fun c ↦ 32 ≤ c.toNat ∧ c.toNat < 127 := by decide
  have hvisible : ∀ c ∈ "bytes */".toList ++ Nat.toDigits 10 len, 32 ≤ c.toNat ∧ c.toNat < 127 := by
    intro c hc
    rcases List.mem_append.1 hc with hc | hc
    · exact of_decide_eq_true (List.all_eq_true.1 hbytes c hc)
    · exact HeaderValue.toDigits_visible c hc
  obtain ⟨value, hvalue, -⟩ := HeaderValue.fromStr_visible hvisible
  refine ⟨value, ?_⟩
  rw [rangeNotSatisfiable, ResponseBuilder.status_new,
    ResponseBuilder.header_ofPairs_of_fromStr _ hvalue]
  rfl

omit [HttpDateLib] in
theorem rangeNotSatisfiable_spec (len : ℕ) :
    (rangeNotSatisfiable len : Response H E B).status = .rangeNotSatisfiable ∧
      (rangeNotSatisfiable len : Response H E B).body = FromBytes.empty := by
  obtain ⟨value, hvalue⟩ := rangeNotSatisfiable_eq (H := H) (E := E) (B := B) len
  rw [hvalue]
  exact ⟨rfl, rfl⟩

omit [FromBytes B] in
/-- Nothing fails in the builder of an asset, and its one entity tag is that of the asset. -/
theorem assetBuilder_eq_ofPairs {asset : Asset B} (range : Option (ByteRange asset.len))
    (cacheControl : Option HeaderValue) {lastModified : Option Str}
    (h : asset.modified.mapM HttpDateLib.fmt = some lastModified) :
    ∃ items, (assetBuilder asset range cacheControl lastModified : ResponseBuilder H E) =
        .ofPairs (if range.isSome then .partialContent else .ok) items ∧
      Multimap.valuesFor HeaderName.etag items = [asset.etag] := by
  have hrange : ∀ s ∈ range.map contentRange, ∀ c ∈ s, 32 ≤ c.toNat ∧ c.toNat < 127 := by
    intro s hs
    obtain ⟨r, -, rfl⟩ := Option.map_eq_some_iff.1 hs
    exact contentRange_visible r
  simp only [assetBuilder, ResponseBuilder.status_new, ResponseBuilder.header_ofPairs]
  obtain ⟨modified, hmodified⟩ := ResponseBuilder.headerIf_ofPairs_of_visible (H := H) (E := E)
    HeaderName.lastModified (fmt_mapM_visible h)
  rw [hmodified]
  simp only [ResponseBuilder.headerIf_ofPairs]
  obtain ⟨value, hvalue⟩ := ResponseBuilder.headerIf_ofPairs_of_visible (H := H) (E := E)
    HeaderName.contentRange hrange
  rw [hvalue]
  refine ⟨_, rfl, ?_⟩
  simp (disch := decide) only [Multimap.valuesFor_append, Multimap.valuesFor_map_toList_of_ne,
    Multimap.valuesFor_cons, Multimap.valuesFor_nil, List.nil_append, List.append_nil]
  rfl

/-- A response carrying an asset has the status for a whole asset or a range, the entity tag of the
asset, and the body asked for. -/
theorem respond_eq_some {asset : Asset B} {range : Option (ByteRange asset.len)} {head : Bool}
    {cacheControl : Option HeaderValue} {response : Response H E B}
    (h : respond asset range head cacheControl = some response) :
    response.status = (if range.isSome then .partialContent else .ok) ∧
      Multimap.getAll response.headers HeaderName.etag = [asset.etag] ∧
      response.body = assetBody asset range head := by
  simp only [respond, Option.bind_eq_bind, Option.bind_eq_some_iff, Option.pure_def,
    Option.some.injEq] at h
  obtain ⟨lastModified, hlast, rfl⟩ := h
  obtain ⟨items, hbuilder, hetag⟩ := assetBuilder_eq_ofPairs (H := H) (E := E) range cacheControl
    hlast
  rw [hbuilder]
  exact ⟨rfl, (ResponseBuilder.getAll_body_ofPairs _ _).trans hetag, rfl⟩

/-- The response carrying an asset is made unless its modification time cannot be formatted. -/
theorem isSome_respond_iff {asset : Asset B} {range : Option (ByteRange asset.len)}
    {head : Bool} {cacheControl : Option HeaderValue} :
    (respond asset range head cacheControl : Option (Response H E B)).isSome ↔
      (asset.modified.mapM HttpDateLib.fmt).isSome := by
  rw [respond]
  rcases asset.modified.mapM HttpDateLib.fmt with - | lastModified
  · rfl
  · rfl

theorem exists_respond {asset : Asset B} (h : (asset.modified.mapM HttpDateLib.fmt).isSome)
    (range : Option (ByteRange asset.len)) (head : Bool) (cacheControl : Option HeaderValue) :
    ∃ response : Response H E B, respond asset range head cacheControl = some response :=
  Option.isSome_iff_exists.1 (isSome_respond_iff.2 h)

/-- So is a 304. -/
theorem isSome_notModified_iff {etag : HeaderValue} {modified : Option SystemTime}
    {cacheControl : Option HeaderValue} {vary : Bool} :
    (notModified etag modified cacheControl vary : Option (Response H E B)).isSome ↔
      (modified.mapM HttpDateLib.fmt).isSome := by
  rw [notModified]
  rcases modified.mapM HttpDateLib.fmt with - | lastModified
  · rfl
  · rfl

/-- There is an answer unless the modification time cannot be formatted; a range that cannot be
satisfied is refused without it. -/
theorem isSome_serveAsset_iff {asset : Asset B} {req : Request H E B} {head : Bool}
    {cacheControl : Option HeaderValue} :
    (serveAsset asset req head cacheControl : Option (Response H E B)).isSome ↔
      (asset.modified.mapM HttpDateLib.fmt).isSome ∨
        isNotModified req asset.etag asset.modified = false ∧
          rangeDecision asset req = .unsatisfiable := by
  rw [serveAsset]
  split
  · next hmod => simp [isSome_notModified_iff, hmod]
  · next hmod =>
    split
    · next hrange => simp [isSome_respond_iff, hrange]
    · next hrange => simp [isSome_respond_iff, hrange]
    · next hrange => simp [hmod, hrange]

/-- A body that is not empty is that of the asset, whose modification time was formatted. -/
theorem serveAsset_body {asset : Asset B} {req : Request H E B} {head : Bool}
    {cacheControl : Option HeaderValue} {response : Response H E B}
    (h : serveAsset asset req head cacheControl = some response) :
    response.body = FromBytes.empty ∨ (asset.modified.mapM HttpDateLib.fmt).isSome ∧
      ∃ range, response.body = assetBody asset range head := by
  rw [serveAsset] at h
  split at h
  · exact .inl (notModified_eq_some h).2.2
  · split at h
    · exact .inr ⟨isSome_respond_iff.1 (Option.isSome_of_eq_some h), _, (respond_eq_some h).2.2⟩
    · exact .inr ⟨isSome_respond_iff.1 (Option.isSome_of_eq_some h), _, (respond_eq_some h).2.2⟩
    · exact .inl (Option.some.inj h ▸ (rangeNotSatisfiable_spec _).2)

/-- The headers that make a request conditional or ask for a range. -/
def conditionalHeaders : List HeaderName :=
  [.ifNoneMatch, .ifModifiedSince, .ifRange, .range]

/-- A request without conditions is answered with the whole asset. -/
theorem serveAsset_of_unconditional {asset : Asset B} {req : Request H E B} {head : Bool}
    {cacheControl : Option HeaderValue}
    (h : ∀ name ∈ conditionalHeaders, Multimap.get req.headers name = none) :
    serveAsset asset req head cacheControl = respond asset none head cacheControl := by
  have hmatch := h HeaderName.ifNoneMatch (by decide)
  have hsince := h HeaderName.ifModifiedSince (by decide)
  have hif := h HeaderName.ifRange (by decide)
  have hrange := h HeaderName.range (by decide)
  have hmod : isNotModified req asset.etag asset.modified = false := by
    simp only [isNotModified, hmatch, hsince, Option.bind_none]
    rcases asset.modified with - | t
    · rfl
    · rfl
  have hfull : rangeDecision asset req = .full := by
    rw [rangeDecision, ifRangeAllowsPartial, hif, hrange]
    rfl
  rw [serveAsset, if_neg (by rw [hmod]; exact Bool.false_ne_true), hfull]

/-- What an answer to a request for an asset should be, given the validators of the asset: a 304
exactly for a client that has this version, the entity tag with everything that carries or stands
for the asset, and a body that is that of the asset. -/
structure Answers (etag : HeaderValue) (modified : Option SystemTime) (asset : Asset B)
    (req : Request H E B) (head : Bool) (response : Response H E B) : Prop where
  notModified_iff : response.status = .notModified ↔ isNotModified req etag modified
  etag_eq : response.status ∈ [StatusCode.ok, .partialContent, .notModified] →
    Multimap.getAll response.headers HeaderName.etag = [etag]
  body_eq : response.status ∈ [StatusCode.ok, .partialContent] →
    ∃ range, response.body = assetBody asset range head

/-- A response carrying the asset answers a client that does not have this version. -/
theorem respond_answers {asset : Asset B} {req : Request H E B}
    {range : Option (ByteRange asset.len)} {head : Bool} {cacheControl : Option HeaderValue}
    {response : Response H E B} (hmod : ¬ isNotModified req asset.etag asset.modified)
    (h : respond asset range head cacheControl = some response) :
    Answers asset.etag asset.modified asset req head response := by
  obtain ⟨hstatus, hetag, hbody⟩ := respond_eq_some h
  refine ⟨iff_of_false ?_ hmod, fun _ ↦ hetag, fun _ ↦ ⟨range, hbody⟩⟩
  rw [hstatus]
  split <;> decide

/-- The services answer with the validators the asset carries. -/
theorem serveAsset_answers {asset : Asset B} {req : Request H E B} {head : Bool}
    {cacheControl : Option HeaderValue} {response : Response H E B}
    (h : serveAsset asset req head cacheControl = some response) :
    Answers asset.etag asset.modified asset req head response := by
  rw [serveAsset] at h
  split at h
  · next hmod =>
    obtain ⟨hstatus, hetag, -⟩ := notModified_eq_some h
    refine ⟨iff_of_true hstatus hmod, fun _ ↦ hetag, fun hmem ↦ ?_⟩
    rw [hstatus] at hmem
    exact absurd hmem (by decide)
  · next hmod =>
    split at h
    · exact respond_answers hmod h
    · exact respond_answers hmod h
    · obtain rfl := Option.some.inj h
      obtain ⟨hstatus, -⟩ := rangeNotSatisfiable_spec (H := H) (E := E) (B := B) asset.len
      refine ⟨iff_of_false ?_ hmod, fun hmem ↦ ?_, fun hmem ↦ ?_⟩
      · rw [hstatus]
        decide
      · rw [hstatus] at hmem
        exact absurd hmem (by decide)
      · rw [hstatus] at hmem
        exact absurd hmem (by decide)

end Responses

end Static
