import Arvik.Static.Agreement

/-!
# Replaying a validator

A client that has part of a file asks for the rest of it under the condition that the file is still
the same, and names the version it has by a validator it was served: the entity tag or the
modification time. The date it was served has whole seconds, but `ifRangeAllowsPartial` compares it
with the modification time as the file system keeps it. So the time is recognized again exactly
where it has whole seconds (`replaysIfRange_iff`).

`ReplaysIfRange` quantifies over the validators that were really served (`Serves`), by whatever
response, and over every request that names one and asks for a range. Reading the served headers
back takes one lemma for each kind of response about an asset; after that a validator is the tag of
the file or its formatted date, and nothing else. Each field demands that there is a response at
all: formatting a date can panic, and such a file replays nothing.

The converse is by way of a request that is made up, with a tag no file has: it is served the whole
file and with it the modification time, which is then sent back.
-/

namespace Static

/-! ### Served validators -/

section Served

variable {H E B : Type} [Multimap H HeaderName HeaderValue] [Extensions E] [FromBytes B]
  [HttpDateLib]

variable (H E) in
/-- A value of a header in some response about an asset. -/
def Serves (asset : Asset B) (name : HeaderName) (value : HeaderValue) : Prop :=
  ∃ (req : Request H E B) (head : Bool) (cacheControl : Option HeaderValue)
    (response : Response H E B), serveAsset asset req head cacheControl = some response ∧
      value ∈ Multimap.getAll response.headers name

/-- The modification time a response carries. -/
theorem getAll_lastModified_respond {asset : Asset B} {range : Option (ByteRange asset.len)}
    {head : Bool} {cacheControl : Option HeaderValue} {response : Response H E B}
    (h : respond asset range head cacheControl = some response) :
    ∃ lastModified, asset.modified.mapM HttpDateLib.fmt = some lastModified ∧
      Multimap.getAll response.headers HeaderName.lastModified =
        (lastModified.bind HeaderValue.fromStr).toList := by
  simp only [respond, Option.bind_eq_bind, Option.bind_eq_some_iff, Option.pure_def,
    Option.some.injEq] at h
  obtain ⟨lastModified, hlast, rfl⟩ := h
  have hrange : ∀ s ∈ range.map contentRange, ∀ c ∈ s, 32 ≤ c.toNat ∧ c.toNat < 127 := by
    intro s hs
    obtain ⟨r, -, rfl⟩ := Option.map_eq_some_iff.1 hs
    exact contentRange_visible r
  refine ⟨lastModified, hlast, ?_⟩
  simp only [assetBuilder, ResponseBuilder.status_new, ResponseBuilder.header_ofPairs,
    headerIf_ofPairs_of_text HeaderName.lastModified (fmt_mapM_visible hlast),
    ResponseBuilder.headerIf_ofPairs, headerIf_ofPairs_of_text HeaderName.contentRange hrange,
    ResponseBuilder.getAll_body_ofPairs]
  simp (disch := decide) only [Multimap.valuesFor_append, Multimap.valuesFor_map_toList_of_ne,
    Multimap.valuesFor_cons, Multimap.valuesFor_nil, valuesFor_map_toList_self, List.nil_append,
    List.append_nil]
  rfl

/-- The modification time a 304 carries. -/
theorem getAll_lastModified_notModified {etag : HeaderValue} {modified : Option SystemTime}
    {cacheControl : Option HeaderValue} {vary : Bool} {response : Response H E B}
    (h : notModified etag modified cacheControl vary = some response) :
    ∃ lastModified, modified.mapM HttpDateLib.fmt = some lastModified ∧
      Multimap.getAll response.headers HeaderName.lastModified =
        (lastModified.bind HeaderValue.fromStr).toList := by
  simp only [notModified, Option.bind_eq_bind, Option.bind_eq_some_iff, Option.pure_def,
    Option.some.injEq] at h
  obtain ⟨lastModified, hlast, rfl⟩ := h
  refine ⟨lastModified, hlast, ?_⟩
  simp only [ResponseBuilder.status_new, ResponseBuilder.header_ofPairs,
    headerIf_ofPairs_of_text HeaderName.lastModified (fmt_mapM_visible hlast),
    ResponseBuilder.headerIf_ofPairs, ResponseBuilder.empty, ResponseBuilder.getAll_body_ofPairs]
  simp (disch := decide) only [Multimap.valuesFor_append, Multimap.valuesFor_map_toList_of_ne,
    Multimap.valuesFor_cons, Multimap.valuesFor_nil, valuesFor_map_toList_self, List.nil_append,
    List.append_nil]
  rfl

omit [HttpDateLib] in
/-- The refusal of a range carries no validator. -/
theorem getAll_rangeNotSatisfiable {name : HeaderName} (hname : HeaderName.contentRange ≠ name)
    (len : ℕ) :
    Multimap.getAll (rangeNotSatisfiable len : Response H E B).headers name = [] := by
  obtain ⟨value, hvalue⟩ := rangeNotSatisfiable_eq (H := H) (E := E) (B := B) len
  rw [hvalue, ResponseBuilder.empty, ResponseBuilder.getAll_body_ofPairs, Multimap.valuesFor_cons,
    if_neg hname, Multimap.valuesFor_nil]
  rfl

/-- The entity tag that is served is that of the asset. -/
theorem Serves.etag {asset : Asset B} {value : HeaderValue}
    (h : Serves H E asset HeaderName.etag value) :
    value = asset.etag ∧ (asset.modified.mapM HttpDateLib.fmt).isSome := by
  obtain ⟨req, head, cacheControl, response, hserve, hvalue⟩ := h
  rw [serveAsset] at hserve
  have hrespond : ∀ {range}, respond asset range head cacheControl = some response →
      value = asset.etag ∧ (asset.modified.mapM HttpDateLib.fmt).isSome := fun h ↦ by
    rw [(respond_eq_some h).2.1] at hvalue
    exact ⟨List.mem_singleton.1 hvalue, isSome_respond_iff.1 (Option.isSome_of_eq_some h)⟩
  split at hserve
  · rw [(notModified_eq_some hserve).2.1] at hvalue
    obtain ⟨lastModified, hlast, -⟩ := getAll_lastModified_notModified hserve
    exact ⟨List.mem_singleton.1 hvalue, Option.isSome_of_eq_some hlast⟩
  · split at hserve
    · exact hrespond hserve
    · exact hrespond hserve
    · rw [← Option.some.inj hserve, getAll_rangeNotSatisfiable (by decide)] at hvalue
      exact absurd hvalue List.not_mem_nil

/-- The date that is served is the modification time of the asset, formatted. -/
theorem Serves.lastModified {asset : Asset B} {value : HeaderValue}
    (h : Serves H E asset HeaderName.lastModified value) :
    ∃ time text, asset.modified = some time ∧ HttpDateLib.fmt time = some text ∧
      HeaderValue.fromStr text = some value := by
  obtain ⟨req, head, cacheControl, response, hserve, hvalue⟩ := h
  have hformatted : ∀ {lastModified}, asset.modified.mapM HttpDateLib.fmt = some lastModified →
      Multimap.getAll response.headers HeaderName.lastModified =
        (lastModified.bind HeaderValue.fromStr).toList →
      ∃ time text, asset.modified = some time ∧ HttpDateLib.fmt time = some text ∧
        HeaderValue.fromStr text = some value := fun hlast hall ↦ by
    rw [hall, Option.mem_toList] at hvalue
    obtain ⟨text, rfl, htext⟩ := Option.bind_eq_some_iff.1 hvalue
    rcases hmodified : asset.modified with - | time
    · rw [hmodified] at hlast
      cases hlast
    · rw [hmodified] at hlast
      exact ⟨time, text, rfl, by simpa using hlast, htext⟩
  rw [serveAsset] at hserve
  split at hserve
  · obtain ⟨lastModified, hlast, hall⟩ := getAll_lastModified_notModified hserve
    exact hformatted hlast hall
  · split at hserve
    · obtain ⟨lastModified, hlast, hall⟩ := getAll_lastModified_respond hserve
      exact hformatted hlast hall
    · obtain ⟨lastModified, hlast, hall⟩ := getAll_lastModified_respond hserve
      exact hformatted hlast hall
    · rw [← Option.some.inj hserve, getAll_rangeNotSatisfiable (by decide)] at hvalue
      exact absurd hvalue List.not_mem_nil

end Served

/-! ### Naming a version -/

/-- An entity tag for the strong comparison. -/
def IsStrongTag (bytes : Bytes) : Prop :=
  ∃ tag, bytes = 34 :: tag ++ [34] ∧ 34 ∉ tag

/-- A weak entity tag. -/
def IsWeakTag (bytes : Bytes) : Prop :=
  ∃ tag, IsStrongTag tag ∧ bytes = 87 :: 47 :: tag

section Named

variable {H E B : Type} [Multimap H HeaderName HeaderValue] [HttpDateLib]
  {req : Request H E B} {named etag : HeaderValue} {modified : Option SystemTime}

/-- A tag is compared byte by byte. -/
theorem ifRangeAllowsPartial_of_strongTag
    (hnamed : Multimap.get req.headers HeaderName.ifRange = some named)
    (htag : IsStrongTag named.bytes) :
    ifRangeAllowsPartial req etag modified ↔ named.toStr.isSome ∧ named.bytes = etag.bytes := by
  obtain ⟨tag, htag, -⟩ := htag
  cases htext : named.toStr with
  | none => simp [ifRangeAllowsPartial, hnamed, htext]
  | some text =>
    have hbytes := HeaderValue.utf8_of_toStr htext
    have hall := (Option.ite_none_right_eq_some.1 htext).2
    have hhead : text.head? = some '"' := by
      rw [← Option.some.inj hall, htag]
      rfl
    obtain ⟨rest, rfl⟩ := List.head?_eq_some_iff.1 hhead
    simp only [ifRangeAllowsPartial, hnamed, htext, List.head?_cons, true_or, if_true,
      Option.isSome_some, true_and, hbytes]
    show (true && decide (named.bytes = etag.bytes)) = true ↔ _
    rw [Bool.true_and, decide_eq_true_iff]

/-- A weak tag names no version. -/
theorem ifRangeAllowsPartial_of_weakTag
    (hnamed : Multimap.get req.headers HeaderName.ifRange = some named)
    (htag : IsWeakTag named.bytes) : ifRangeAllowsPartial req etag modified = false := by
  obtain ⟨tag, -, htag⟩ := htag
  cases htext : named.toStr with
  | none => simp only [ifRangeAllowsPartial, hnamed, htext]
  | some text =>
    have hall := (Option.ite_none_right_eq_some.1 htext).2
    rw [htag] at hall
    obtain rfl : 'W' :: '/' :: tag.map (fun b ↦ Char.ofNat b.toNat) = text := Option.some.inj hall
    simp only [ifRangeAllowsPartial, hnamed, htext]
    rfl

/-- A date is compared with the whole of the modification time. -/
theorem ifRangeAllowsPartial_of_date [LawfulHttpDateLib] {time : SystemTime} {text : Str}
    (hnamed : Multimap.get req.headers HeaderName.ifRange = some named)
    (hfmt : HttpDateLib.fmt time = some text) (htext : HeaderValue.fromStr text = some named) :
    ifRangeAllowsPartial req etag modified ↔ modified = some time.wholeSeconds := by
  obtain ⟨value, hvalue, htoStr⟩ := HeaderValue.fromStr_visible (HttpDateLib.fmt_visible hfmt)
  obtain rfl := Option.some.inj (hvalue.symm.trans htext)
  have hquote : text.head? ≠ some '"' ∧ Text.stripPrefix "W/".toList text = none := by
    obtain ⟨day, hday, rest, rfl⟩ := LawfulHttpDateLib.fmt_day hfmt
    simp only [List.mem_cons, List.not_mem_nil, or_false] at hday
    rcases hday with rfl | rfl | rfl | rfl | rfl | rfl | rfl <;> exact ⟨nofun, rfl⟩
  rw [ifRangeAllowsPartial, hnamed]
  simp only [htoStr, hquote.1, hquote.2, Option.isSome_none, Bool.false_eq_true, or_self, if_false]
  rcases modified with - | modified
  · simp
  · simp only [LawfulHttpDateLib.parse_fmt hfmt, Option.any_some, decide_eq_true_iff,
      Option.some.injEq]
    exact eq_comm

end Named

/-- The entity tag of a file is strong, and readable. -/
theorem isStrongTag_fsEtag (len : ℕ) (modified : Option SystemTime) :
    IsStrongTag (fsEtag len modified).bytes ∧
      (fsEtag len modified).toStr = some (fsEtagText len modified) := by
  refine ⟨?_, HeaderValue.toStr_ofVisible (fsEtagText_visible len modified)⟩
  have hdigit : ∀ d : Fin 16, Nat.digitChar d ≠ '"' := by decide
  have hdigits : ∀ {n : ℕ}, '"' ∉ Nat.toDigits 16 n := fun hmem ↦ by
    obtain ⟨d, hd, hquote⟩ := Text.exists_digitChar_of_mem_toDigits (by decide) hmem
    exact hdigit ⟨d, hd⟩ hquote.symm
  generalize htag : Nat.toDigits 16 len ++
    '-' :: Nat.toDigits 16 (((modified.map SystemTime.nanos).getD 0).toNat / 10 ^ 9) ++
    '-' :: Nat.toDigits 16 (((modified.map SystemTime.nanos).getD 0).toNat % 10 ^ 9) = tag
  have hquote : '"' ∉ tag := by
    simp [← htag, hdigits]
  have htext : fsEtagText len modified = ['"'] ++ tag ++ ['"'] := by
    rw [fsEtagText, ← htag]
    simp
  refine ⟨Text.utf8 tag, ?_, fun hmem ↦ ?_⟩
  · show Text.utf8 (fsEtagText len modified) = _
    rw [htext, Text.utf8_append, Text.utf8_append]
    rfl
  · exact hquote ((Text.mem_utf8_iff (c := '"') (by decide)).1 hmem)

/-! ### Replays -/

section Replay

variable {H E : Type} [Multimap H HeaderName HeaderValue] [Extensions E] [HttpDateLib]

/-- The request asks for a range of the asset, on the condition that its version is the one named,
and no other condition of it is answered with a 304. -/
structure AsksForRange {B : Type} (asset : Asset B) (req : Request H E B) (named : HeaderValue) :
    Prop where
  ifRange : Multimap.get req.headers HeaderName.ifRange = some named
  range : ∃ range, parseRange (Multimap.get req.headers HeaderName.range) asset.len = .part range
  fresh : ¬ isNotModified req asset.etag asset.modified

variable (H E) in
/-- Every request for a range of a file under a condition of the given kind is answered with the
given status. -/
def RangeAnswer (files : Files) (candidate : FsCandidate) (chunkSize : ℕ)
    (cacheControl : Option HeaderValue) (file : OpenFile) (kind : HeaderValue → Prop)
    (code : StatusCode) : Prop :=
  ∀ (req : Request H E FileBody) (head : Bool) (named : HeaderValue), kind named →
    AsksForRange (fsAsset file candidate chunkSize) req named →
      ∃ response, serveFsAsset files candidate req head chunkSize cacheControl = .own response ∧
        response.status = code

variable (H E) in
/-- What a client makes of a validator: the range it asks for if it names the version that is
served, and the whole file else. -/
structure ReplaysIfRange (files : Files) (candidate : FsCandidate) (chunkSize : ℕ)
    (cacheControl : Option HeaderValue) (file : OpenFile) : Prop where
  etag : RangeAnswer H E files candidate chunkSize cacheControl file
    (Serves H E (fsAsset file candidate chunkSize) HeaderName.etag) .partialContent
  lastModified : RangeAnswer H E files candidate chunkSize cacheControl file
    (Serves H E (fsAsset file candidate chunkSize) HeaderName.lastModified) .partialContent
  otherTag : RangeAnswer H E files candidate chunkSize cacheControl file
    (fun named ↦ IsStrongTag named.bytes ∧
      named ≠ fsEtag file.data.content.length file.data.modified) .ok
  weakTag : RangeAnswer H E files candidate chunkSize cacheControl file
    (fun named ↦ IsWeakTag named.bytes) .ok
  otherSecond : RangeAnswer H E files candidate chunkSize cacheControl file
    (fun named ↦ ∃ time text, HttpDateLib.fmt time = some text ∧
      HeaderValue.fromStr text = some named ∧
        some time.wholeSeconds ≠ file.data.modified.map SystemTime.wholeSeconds) .ok

variable {files : Files} {candidate : FsCandidate} {chunkSize : ℕ}
  {cacheControl : Option HeaderValue} {file : OpenFile}

variable {B : Type} [FromBytes B] in
/-- The status that answers a request for a range: that of a part if the condition holds. -/
theorem serveAsset_of_asksForRange {asset : Asset B} {req : Request H E B} {named : HeaderValue}
    (h : AsksForRange asset req named) (hfmt : (asset.modified.mapM HttpDateLib.fmt).isSome)
    (head : Bool) (cacheControl : Option HeaderValue) :
    ∃ response, serveAsset asset req head cacheControl = some response ∧
      response.status = if ifRangeAllowsPartial req asset.etag asset.modified
        then .partialContent else .ok := by
  obtain ⟨range, hrange⟩ := h.range
  have hrespond : ∀ range : Option (ByteRange asset.len), ∃ response : Response H E B,
      respond asset range head cacheControl = some response ∧
        response.status = if range.isSome then .partialContent else .ok := fun range ↦ by
    obtain ⟨response, hresponse⟩ := exists_respond (H := H) (E := E) hfmt range head cacheControl
    exact ⟨response, hresponse, (respond_eq_some hresponse).1⟩
  rw [serveAsset, if_neg h.fresh, rangeDecision, hrange]
  rcases ifRangeAllowsPartial req asset.etag asset.modified with - | -
  · exact hrespond none
  · exact hrespond (some range)

variable {B : Type} [FromBytes B] in
/-- A request for a range is answered if the modification time of the asset can be formatted. -/
theorem AsksForRange.isSome_serveAsset_iff {asset : Asset B} {req : Request H E B} {head : Bool}
    {named : HeaderValue} (h : AsksForRange asset req named) :
    (serveAsset asset req head cacheControl : Option (Response H E B)).isSome ↔
      (asset.modified.mapM HttpDateLib.fmt).isSome := by
  obtain ⟨range, hrange⟩ := h.range
  refine Static.isSome_serveAsset_iff.trans (or_iff_left fun hrefused ↦ ?_)
  obtain ⟨-, hunsatisfiable⟩ := hrefused
  rw [rangeDecision, hrange] at hunsatisfiable
  split at hunsatisfiable
  · cases hunsatisfiable
  · cases hunsatisfiable

/-- Where the answer does not panic, a kind of condition is answered with one status as far as it
is decided alike. -/
theorem rangeAnswer_of_allows (hopen : files.openFile candidate.path = some file)
    (hfmt : (file.data.modified.mapM HttpDateLib.fmt).isSome) {kind : HeaderValue → Prop}
    (allows : Bool)
    (h : ∀ (req : Request H E FileBody) (named : HeaderValue), kind named →
      Multimap.get req.headers HeaderName.ifRange = some named →
        ifRangeAllowsPartial req (fsEtag file.data.content.length file.data.modified)
          file.data.modified = allows) :
    RangeAnswer H E files candidate chunkSize cacheControl file kind
      (if allows then .partialContent else .ok) := by
  intro req head named hkind hasks
  obtain ⟨response, hresponse, hstatus⟩ := serveAsset_of_asksForRange hasks hfmt head cacheControl
  refine ⟨response, ?_, ?_⟩
  · rw [serveFsAsset, hopen]
    exact congrArg Handled.ofOption hresponse
  · rw [← h req named hkind hasks.ifRange]
    exact hstatus

/-- The request for a file with the given headers. -/
def requestWith (items : List (HeaderName × HeaderValue)) : Request H E FileBody where
  inner := ⟨.get, { path := ['/'] },
    items.foldl (fun m p ↦ Multimap.append m p.1 p.2) Multimap.empty, Extensions.empty, .bytes [],
    .http11⟩
  extensions := Extensions.empty

omit [HttpDateLib] in
theorem get_requestWith (items : List (HeaderName × HeaderValue)) (name : HeaderName) :
    Multimap.get (requestWith items : Request H E FileBody).headers name =
      (Multimap.valuesFor name items).head? := by
  show (Multimap.getAll (items.foldl _ (Multimap.empty : H)) name).head? = _
  rw [Multimap.getAll_foldl_append, Multimap.getAll_empty, List.nil_append]

/-- A request for all the bytes of a file as a range, if it is still the version named. -/
def requestIfRange (named : HeaderValue) : Request H E FileBody :=
  requestWith [(HeaderName.ifRange, named), (HeaderName.range, HeaderValue.fromStatic "bytes=0-")]

theorem asksForRange_requestIfRange {asset : Asset FileBody} (hlen : asset.len ≠ 0)
    (named : HeaderValue) :
    AsksForRange asset (requestIfRange named : Request H E FileBody) named where
  ifRange := get_requestWith _ _
  range := by
    rw [requestIfRange, get_requestWith]
    have hspec : (some (HeaderValue.fromStatic "bytes=0-")).bind HeaderValue.toStr =
        some "bytes=0-".toList := by decide
    have hparse : parseRange (some (HeaderValue.fromStatic "bytes=0-")) asset.len =
        parseSpec ['0'] [] asset.len := by
      rw [parseRange, hspec]
      rfl
    refine ⟨⟨0, asset.len - 1, Nat.zero_le _, by omega⟩, hparse.trans ?_⟩
    rw [parseSpec, dif_neg hlen, if_neg (List.cons_ne_nil _ _)]
    show (if hfirst : asset.len ≤ 0 then RangeDecision.unsatisfiable else _) = _
    rw [dif_neg (by omega)]
    rfl
  fresh := by
    have hmatch : Multimap.get (requestIfRange named : Request H E FileBody).headers
        HeaderName.ifNoneMatch = none := get_requestWith _ _
    have hsince : Multimap.get (requestIfRange named : Request H E FileBody).headers
        HeaderName.ifModifiedSince = none := get_requestWith _ _
    simp only [isNotModified, hmatch, hsince, Option.bind_none]
    rcases asset.modified with - | time
    · exact Bool.false_ne_true
    · exact Bool.false_ne_true

/-- The modification time of a file can be formatted and has whole seconds, or there is none. -/
def OpenFile.WholeSeconds (file : OpenFile) : Prop :=
  ∀ time ∈ file.data.modified, (HttpDateLib.fmt time).isSome ∧ time.wholeSeconds = time

omit [Multimap H HeaderName HeaderValue] [Extensions E] in
theorem OpenFile.WholeSeconds.formatted {file : OpenFile} (h : file.WholeSeconds) :
    (file.data.modified.mapM HttpDateLib.fmt).isSome := by
  rcases hmodified : file.data.modified with - | time
  · rfl
  · obtain ⟨text, htext⟩ := Option.isSome_iff_exists.1 (h time hmodified).1
    simp [htext]

/-- A modification time in whole seconds is recognized in every form. -/
theorem ReplaysIfRange.of_wholeSeconds [LawfulHttpDateLib]
    (hopen : files.openFile candidate.path = some file) (hwhole : file.WholeSeconds) :
    ReplaysIfRange H E files candidate chunkSize cacheControl file where
  etag := rangeAnswer_of_allows hopen hwhole.formatted true fun req named hserves hnamed ↦ by
    obtain ⟨rfl, -⟩ := hserves.etag
    obtain ⟨hstrong, htext⟩ := isStrongTag_fsEtag file.data.content.length file.data.modified
    exact (ifRangeAllowsPartial_of_strongTag hnamed hstrong).2
      ⟨Option.isSome_of_eq_some htext, rfl⟩
  lastModified := rangeAnswer_of_allows hopen hwhole.formatted true
    fun req named hserves hnamed ↦ by
      obtain ⟨time, text, hmodified, hfmt, htext⟩ := hserves.lastModified
      exact (ifRangeAllowsPartial_of_date hnamed hfmt htext).2
        (hmodified.trans (congrArg some (hwhole time hmodified).2.symm))
  otherTag := rangeAnswer_of_allows hopen hwhole.formatted false fun req named hother hnamed ↦ by
    rw [← Bool.not_eq_true, ifRangeAllowsPartial_of_strongTag hnamed hother.1]
    rintro ⟨-, hbytes⟩
    exact hother.2 (HeaderValue.bytes_injective hbytes)
  weakTag := rangeAnswer_of_allows hopen hwhole.formatted false fun req named hweak hnamed ↦
    ifRangeAllowsPartial_of_weakTag hnamed hweak
  otherSecond := rangeAnswer_of_allows hopen hwhole.formatted false
    fun req named hother hnamed ↦ by
      obtain ⟨time, text, hfmt, htext, hne⟩ := hother
      rw [← Bool.not_eq_true, ifRangeAllowsPartial_of_date hnamed hfmt htext]
      intro hmodified
      rw [hmodified] at hne
      exact hne (congrArg some (SystemTime.wholeSeconds_wholeSeconds time).symm)

/-- A tag no file has. -/
def emptyTag : HeaderValue :=
  HeaderValue.fromStatic "\"\""

/-- A request without conditions is served the modification time. -/
theorem serves_lastModified {asset : Asset FileBody} {time : SystemTime} {text : Str}
    {value : HeaderValue} (hmodified : asset.modified = some time)
    (hfmt : HttpDateLib.fmt time = some text) (hvalue : HeaderValue.fromStr text = some value) :
    Serves H E asset HeaderName.lastModified value := by
  have hplain : ∀ name ∈ conditionalHeaders,
      Multimap.get (requestWith [] : Request H E FileBody).headers name = none :=
    fun name _ ↦ get_requestWith [] name
  have hsome : (asset.modified.mapM HttpDateLib.fmt).isSome := by
    rw [hmodified]
    simp [hfmt]
  obtain ⟨response, hresponse⟩ := exists_respond (H := H) (E := E) hsome none false none
  obtain ⟨lastModified, hlast, hall⟩ := getAll_lastModified_respond hresponse
  obtain rfl : lastModified = some text := by
    rw [hmodified] at hlast
    exact (Option.some.inj (by simpa [hfmt] using hlast)).symm
  refine ⟨requestWith [], false, none, response,
    (serveAsset_of_unconditional hplain).trans hresponse, ?_⟩
  rw [hall, Option.bind_some, hvalue]
  exact List.mem_singleton_self _

omit [HttpDateLib] in
theorem emptyTag_ne_fsEtag (len : ℕ) (modified : Option SystemTime) :
    emptyTag ≠ fsEtag len modified := by
  intro h
  have htext := congrArg HeaderValue.toStr h
  rw [(isStrongTag_fsEtag len modified).2, fsEtagText] at htext
  have hdash : '-' ∈ "\"\"".toList := by
    have hempty : emptyTag.toStr = some "\"\"".toList := by decide
    rw [Option.some.inj (hempty.symm.trans htext)]
    simp
  exact absurd hdash (by decide)

/-- What replays rightly has its modification time in whole seconds. -/
theorem ReplaysIfRange.wholeSeconds [LawfulHttpDateLib]
    (hopen : files.openFile candidate.path = some file) (hcontent : file.data.content ≠ [])
    (h : ReplaysIfRange H E files candidate chunkSize cacheControl file) : file.WholeSeconds := by
  have hasks : ∀ named, AsksForRange (fsAsset file candidate chunkSize)
      (requestIfRange named : Request H E FileBody) named :=
    asksForRange_requestIfRange (List.length_pos_iff.2 hcontent).ne'
  have hserve : ∀ {req : Request H E FileBody} {response : Response H E FileBody},
      serveFsAsset files candidate req false chunkSize cacheControl = .own response →
        serveAsset (fsAsset file candidate chunkSize) req false cacheControl = some response :=
    fun hown ↦ by
      rw [serveFsAsset, hopen] at hown
      exact Handled.ofOption_eq_own hown
  -- The request under another tag is answered, so the time can be formatted.
  have hformatted : (file.data.modified.mapM HttpDateLib.fmt).isSome := by
    obtain ⟨response, hown, -⟩ := h.otherTag (requestIfRange emptyTag) false emptyTag
      ⟨⟨[], rfl, List.not_mem_nil⟩, emptyTag_ne_fsEtag _ _⟩ (hasks _)
    exact (hasks _).isSome_serveAsset_iff.1 (Option.isSome_of_eq_some (hserve hown))
  intro time hmodified
  have hfmt : (HttpDateLib.fmt time).isSome := by
    rw [hmodified] at hformatted
    simpa using hformatted
  obtain ⟨text, htext⟩ := Option.isSome_iff_exists.1 hfmt
  obtain ⟨value, hvalue, -⟩ := HeaderValue.fromStr_visible (HttpDateLib.fmt_visible htext)
  -- Replaying the time that is served gets the range, so the time has whole seconds.
  obtain ⟨response, hown, hstatus⟩ := h.lastModified (requestIfRange value) false value
    (serves_lastModified hmodified htext hvalue) (hasks _)
  obtain ⟨response', hresponse', hstatus'⟩ := serveAsset_of_asksForRange (hasks value) hformatted
    false cacheControl
  obtain rfl : response' = response := Option.some.inj (hresponse'.symm.trans (hserve hown))
  have hallows : ifRangeAllowsPartial (requestIfRange value : Request H E FileBody)
      (fsEtag file.data.content.length file.data.modified) file.data.modified := by
    by_contra hnot
    rw [hstatus] at hstatus'
    exact absurd (hstatus'.trans (if_neg hnot)) (by decide)
  have hsame := (ifRangeAllowsPartial_of_date (hasks value).ifRange htext hvalue).1 hallows
  exact ⟨hfmt, Option.some.inj (hsame.symm.trans hmodified)⟩

/-- **A file is replayed rightly** exactly if it is empty, so that no range of it can be had, or its
modification time is in whole seconds. The date that is served has no fractions, but it is compared
with a time that may have them. -/
theorem replaysIfRange_iff [LawfulHttpDateLib]
    (hopen : files.openFile candidate.path = some file) :
    ReplaysIfRange H E files candidate chunkSize cacheControl file ↔
      file.data.content = [] ∨ file.WholeSeconds := by
  constructor
  · intro h
    by_cases hcontent : file.data.content = []
    · exact .inl hcontent
    · exact .inr (h.wholeSeconds hopen hcontent)
  · rintro (hcontent | hwhole)
    · -- No range of an empty file can be satisfied.
      have hnot : ∀ kind code,
          RangeAnswer H E files candidate chunkSize cacheControl file kind code := by
        rintro kind code req head named - ⟨-, ⟨range, -⟩, -⟩
        have hlt : range.stop < file.data.content.length := range.lt
        rw [hcontent] at hlt
        exact absurd hlt (Nat.not_lt_zero _)
      exact ⟨hnot _ _, hnot _ _, hnot _ _, hnot _ _, hnot _ _⟩
    · exact .of_wholeSeconds hopen hwhole

end Replay

/-! ### The first seconds of the epoch -/

section Epoch

/-- The date of one of the first seconds. -/
def epochDate (second : Fin 10) : Str :=
  "Thu, 01 Jan 1970 00:00:0".toList ++ Nat.digitChar second :: " GMT".toList

theorem epochDate_visible :
    ∀ second, (epochDate second).all fun c ↦ 32 ≤ c.toNat ∧ c.toNat < 127 := by
  decide

/-- The date library, as far as the first seconds go. -/
@[reducible]
def epochDates : HttpDateLib where
  fmt time :=
    if h : 0 ≤ time.nanos ∧ time.nanos < 10 ^ 10 then
      some (epochDate ⟨(time.nanos / 10 ^ 9).toNat, by omega⟩)
    else none
  parse s := ((List.finRange 10).find? fun second ↦ epochDate second = s).map
    fun second : Fin 10 ↦ .ofSeconds second
  fmt_visible := by
    intro time s hs c hc
    obtain ⟨htime, hs⟩ := Option.dite_none_right_eq_some.1 hs
    obtain rfl := Option.some.inj hs
    exact of_decide_eq_true (List.all_eq_true.1 (epochDate_visible _) c hc)

attribute [local instance] epochDates

theorem parse_epochDate (second : Fin 10) :
    HttpDateLib.parse (epochDate second) = some (.ofSeconds second) := by
  have hfind : ∀ second : Fin 10,
      (List.finRange 10).find? (fun d ↦ epochDate d = epochDate second) = some second := by
    decide
  show ((List.finRange 10).find? fun d ↦ epochDate d = epochDate second).map _ = _
  rw [hfind]
  rfl

instance lawful_epochDates : LawfulHttpDateLib where
  fmt_day := by
    intro time s hs
    obtain ⟨htime, hs⟩ := Option.dite_none_right_eq_some.1 hs
    obtain rfl := Option.some.inj hs
    exact ⟨"Thu", by decide, _, rfl⟩
  parse_fmt := by
    intro time s hs
    obtain ⟨htime, hs⟩ := Option.dite_none_right_eq_some.1 hs
    obtain rfl := Option.some.inj hs
    rw [parse_epochDate]
    refine congrArg some (congrArg SystemTime.mk ?_)
    show ((time.nanos / 10 ^ 9).toNat : ℤ) * 10 ^ 9 = time.nanos / 10 ^ 9 * 10 ^ 9
    omega
  parse_nonneg := by
    intro s time htime
    obtain ⟨second, -, rfl⟩ := Option.map_eq_some_iff.1 htime
    exact Int.mul_nonneg (Int.natCast_nonneg _) (by decide)

/-- A file of one byte in the root directory, with a modification time. -/
def fileOf (nanos : ℤ) : Files where
  root := .dir [([102], .file ⟨[0], some ⟨nanos⟩⟩)]
  workingDir := []
  isDir_workingDir := rfl
  maxLinks := 40

/-- The file, selected for serving. -/
def fileCandidate : FsCandidate :=
  ⟨⟨true, [.name [102]]⟩, .textPlainUtf8, none, false⟩

/-- The file, modified in the middle of a second, is not recognized by the time it is served with:
a client that replays it gets the whole file. -/
theorem not_replaysIfRange_midSecond :
    ¬ ReplaysIfRange (AssocList HeaderName HeaderValue) (Option OriginalUri)
      (fileOf 1500000000) fileCandidate 65536 none ⟨[[102]], ⟨[0], some ⟨1500000000⟩⟩⟩ := by
  intro h
  have hwhole := (h.wholeSeconds rfl (List.cons_ne_nil _ _) _ rfl).2
  exact absurd hwhole (by decide)

/-- Modified on the second, it is recognized. -/
theorem replaysIfRange_onSecond :
    ReplaysIfRange (AssocList HeaderName HeaderValue) (Option OriginalUri)
      (fileOf 1000000000) fileCandidate 65536 none ⟨[[102]], ⟨[0], some ⟨1000000000⟩⟩⟩ :=
  (replaysIfRange_iff rfl).2 (.inr fun _ htime ↦ by
    obtain rfl := Option.some.inj htime
    exact ⟨by decide, by decide⟩)

end Epoch

end Static
