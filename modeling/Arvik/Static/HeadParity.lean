import Arvik.Static.Agreement

/-!
# `HEAD` requests

A `HEAD` request is answered like a `GET` request, without the body. Both services pass the flag for
it on by hand, and lose it where a directory is answered with a page: its index page is served as to
a `GET` request, and so is its listing (`headParity_iff`).

The two halves of parity are kept apart. The heads are the same because nothing but the body depends
on the flag, and that holds on every branch (`sameHead_respond`, `ServeDir.handle_withMethod`). The
body is what goes wrong, so the exact condition is about when there would be one: an asset is sent
unless it is empty or the request is answered with a 304 or a 416 (`Asset.IsSent`), and a directory
is answered with a page unless it is redirected or left to the fallback (`SendsPage`). An empty
index page therefore does no harm, and the condition says so.
-/

namespace Static

/-! ### The same answer without a body -/

section Parity

variable {H E : Type}

/-- The request with another method. -/
def withMethod {B : Type} (method : Method) (req : Request H E B) : Request H E B :=
  { req with inner := { req.inner with method := method } }

/-- Two answers of a service are the same up to their bodies. -/
def Handled.SameHead : Handled (Response H E FileBody) → Handled (Response H E FileBody) → Prop
  | own response, own response' =>
    response.status = response'.status ∧ response.headers = response'.headers
  | panicked, panicked => True
  | fallback, fallback => True
  | _, _ => False

/-- The answer, if it is a response of the service, has no body. -/
def Handled.Bodiless : Handled (Response H E FileBody) → Prop
  | own response => response.body.content = []
  | _ => True

/-- A pair of answers to a `HEAD` and a `GET` request as it should be: the same status and the same
headers, and no body in the first. -/
structure HeadParity (head get : Handled (Response H E FileBody)) : Prop where
  same : head.SameHead get
  bodiless : head.Bodiless

@[refl]
theorem Handled.SameHead.refl (answer : Handled (Response H E FileBody)) :
    answer.SameHead answer := by
  rcases answer with response | - | -
  · exact ⟨rfl, rfl⟩
  · exact trivial
  · exact trivial

/-- Where the method makes no difference, there has to be no body. -/
theorem headParity_self_iff {answer : Handled (Response H E FileBody)} :
    HeadParity answer answer ↔ answer.Bodiless :=
  ⟨HeadParity.bodiless, fun h ↦ ⟨.refl answer, h⟩⟩

/-! ### Assets -/

variable [Multimap H HeaderName HeaderValue] [Extensions E]

/-- The head of a built response does not depend on its body. -/
theorem sameHead_body (builder : ResponseBuilder H E) (body body' : FileBody) :
    (Handled.own (builder.body body)).SameHead (.own (builder.body body')) := by
  obtain ⟨- | head⟩ := builder
  · exact ⟨rfl, rfl⟩
  · exact ⟨rfl, rfl⟩

variable [HttpDateLib]

/-- The asset is sent to the client: it is not empty, and the request is answered neither with a
304 nor with a 416. -/
structure Asset.IsSent (asset : Asset FileBody) (req : Request H E FileBody) : Prop where
  ne_empty : asset.len ≠ 0
  modified : ¬ isNotModified req asset.etag asset.modified
  range : rangeDecision asset req ≠ .unsatisfiable
  formatted : (asset.modified.mapM HttpDateLib.fmt).isSome

/-- The bodies of an asset have what the asset has. -/
def Asset.Faithful (asset : Asset FileBody) : Prop :=
  ∀ range, (assetBody asset range false).content = [] ↔ asset.len = 0

theorem sameHead_respond (asset : Asset FileBody) (range : Option (ByteRange asset.len))
    (cacheControl : Option HeaderValue) :
    Handled.SameHead
      (.ofOption (respond asset range true cacheControl : Option (Response H E FileBody)))
      (.ofOption (respond asset range false cacheControl)) := by
  rw [respond, respond]
  rcases asset.modified.mapM HttpDateLib.fmt with - | lastModified
  · exact trivial
  · exact sameHead_body _ _ _

/-- An asset is answered with the same head for both methods, and without a body for `HEAD`. -/
theorem headParity_serveAsset (asset : Asset FileBody) (req : Request H E FileBody)
    (cacheControl : Option HeaderValue) :
    HeadParity (.ofOption (serveAsset asset req true cacheControl))
      (.ofOption (serveAsset asset req false cacheControl)) := by
  constructor
  · rw [serveAsset, serveAsset]
    split
    · exact .refl _
    · rcases rangeDecision asset req with - | range | -
      · exact sameHead_respond asset none cacheControl
      · exact sameHead_respond asset (some range) cacheControl
      · exact .refl _
  · rcases hserve : serveAsset asset req true cacheControl with - | response
    · exact trivial
    · show response.body.content = []
      obtain hbody | ⟨-, range, hbody⟩ := serveAsset_body hserve
      · rw [hbody]
        rfl
      · rw [hbody]
        rfl

/-- As to a `GET` request, an asset is answered without a body if it is not sent. -/
theorem bodiless_serveAsset_iff {asset : Asset FileBody} (hasset : asset.Faithful)
    (req : Request H E FileBody) (cacheControl : Option HeaderValue) :
    (Handled.ofOption (serveAsset asset req false cacheControl)).Bodiless ↔ ¬ asset.IsSent req := by
  have hrespond : ∀ range, ¬ isNotModified req asset.etag asset.modified →
      rangeDecision asset req ≠ .unsatisfiable →
        ((Handled.ofOption (respond asset range false cacheControl :
          Option (Response H E FileBody))).Bodiless ↔ ¬ asset.IsSent req) := by
    intro range hmod hrange
    rcases hrespond : (respond asset range false cacheControl : Option (Response H E FileBody)) with
      - | response
    · refine iff_of_true trivial fun h ↦ ?_
      obtain ⟨response, hresponse⟩ := exists_respond (H := H) (E := E) h.formatted range false
        cacheControl
      cases hrespond.symm.trans hresponse
    · have hfmt := isSome_respond_iff.1 (Option.isSome_of_eq_some hrespond)
      show response.body.content = [] ↔ _
      rw [(respond_eq_some hrespond).2.2, hasset range]
      exact ⟨fun hlen h ↦ h.ne_empty hlen, fun h ↦ by_contra fun hlen ↦
        h ⟨hlen, hmod, hrange, hfmt⟩⟩
  -- The branches of the source: a 304, and then what the Range header asks for.
  rw [serveAsset]
  split
  · next hmod =>
    refine iff_of_true ?_ fun h ↦ h.modified hmod
    rcases hnot : (notModified asset.etag asset.modified cacheControl asset.varyAcceptEncoding :
      Option (Response H E FileBody)) with - | response
    · exact trivial
    · exact congrArg FileBody.content (notModified_eq_some hnot).2.2
  · next hmod =>
    rcases hdecision : rangeDecision asset req with - | range | -
    · exact hrespond none hmod (by simp [hdecision])
    · exact hrespond (some range) hmod (by simp [hdecision])
    · exact iff_of_true (congrArg FileBody.content (rangeNotSatisfiable_spec asset.len).2)
        fun h ↦ h.range hdecision

omit [Multimap H HeaderName HeaderValue] [Extensions E] [HttpDateLib] in
theorem fsAsset_faithful (file : OpenFile) (candidate : FsCandidate) (chunkSize : ℕ) :
    (fsAsset file candidate chunkSize).Faithful := by
  rintro (- | range)
  · show (file.data.content.drop 0).take file.data.content.length = [] ↔
      file.data.content.length = 0
    rw [List.drop_zero, List.take_length, List.length_eq_zero_iff]
  · have hlt : range.stop < file.data.content.length := range.lt
    have hle := range.le
    show (file.data.content.drop range.start).take (range.stop - range.start + 1) = [] ↔
      file.data.content.length = 0
    rw [List.take_eq_nil_iff, List.drop_eq_nil_iff]
    omega

omit [Multimap H HeaderName HeaderValue] [Extensions E] [HttpDateLib] in
theorem embeddedAsset_faithful (file : EmbeddedFile) (found : EmbeddedMeta)
    (contentType : HeaderValue) (contentEncoding : Option HeaderValue) (vary : Bool) :
    (embeddedAsset file found contentType contentEncoding vary : Asset FileBody).Faithful := by
  rintro (- | range)
  · exact List.length_eq_zero_iff.symm
  · have hlt : range.stop < file.data.length := range.lt
    have hle := range.le
    show (file.data.take (range.stop + 1)).drop range.start = [] ↔ file.data.length = 0
    rw [List.drop_eq_nil_iff, List.length_take]
    omega

/-! ### Services -/

omit [Multimap H HeaderName HeaderValue] [Extensions E] [HttpDateLib] in
theorem forall_mem_ite_some_iff {α : Type*} {c : Bool} {a : α} {p : α → Prop} :
    (∀ x ∈ if c then some a else none, p x) ↔ (c → p a) := by
  rcases c with - | -
  · exact iff_of_true nofun nofun
  · simp

omit [HttpDateLib] in
/-- A listing is never empty. -/
theorem listingResponse_ne_nil (requestPath : Str) (entries : List Str) :
    (listingResponse requestPath entries : Response H E FileBody).body.content ≠ [] := by
  have hend : "</ul>".toList ≠ [] := by decide
  rw [content_listingResponse, Ne, Text.utf8_eq_nil_iff]
  exact List.append_ne_nil_of_right_ne_nil _ hend

variable {files : Files} [QualityLib] [MimeGuessLib]

omit [Multimap H HeaderName HeaderValue] [Extensions E] [HttpDateLib] [QualityLib] in
/-- What is selected can be opened. -/
theorem isSome_openFile_of_selectFile {self : ServeDir} {path : FilePath Bytes}
    {location : List Bytes} {existing : FileTree Bytes FileData} {assetPath : Str}
    {acceptsBr acceptsGzip : Bool} {candidate : FsCandidate}
    (hfind : files.find path = some (location, existing))
    (h : self.selectFile files path existing assetPath acceptsBr acceptsGzip = some candidate) :
    (files.openFile candidate.path).isSome := by
  unfold ServeDir.selectFile at h
  split at h
  · next hbr =>
    rw [← Option.some.inj h]
    exact (Bool.and_eq_true_iff.1 hbr).2
  · split at h
    · next hgz =>
      rw [← Option.some.inj h]
      exact (Bool.and_eq_true_iff.1 hgz).2
    · split at h
      · rw [← Option.some.inj h]
        exact isSome_openFile_of_find hfind
      · cases h

/-- The file selected for a path is sent to the client. -/
def ServeDir.SendsSelected (files : Files) (self : ServeDir) (req : Request H E FileBody)
    (path : FilePath Bytes) (existing : FileTree Bytes FileData) (assetPath : Str) : Prop :=
  let accepts := acceptedPrecompressed req self.precompressedBr self.precompressedGzip
  ∃ candidate file, self.selectFile files path existing assetPath accepts.1 accepts.2 =
      some candidate ∧
    files.openFile candidate.path = some file ∧
      (fsAsset file candidate self.chunkSize).IsSent req

/-- A selected file is answered with the same head for both methods, without a body for `HEAD`, and
without one for `GET` if it is not sent. -/
theorem headParity_serveSelected {self : ServeDir} {path : FilePath Bytes}
    {location : List Bytes} {existing : FileTree Bytes FileData}
    (hfind : files.find path = some (location, existing)) (req : Request H E FileBody)
    (assetPath : Str) :
    HeadParity (self.serveSelected files req path existing assetPath true)
        (self.serveSelected files req path existing assetPath false) ∧
      ((self.serveSelected files req path existing assetPath false).Bodiless ↔
        ¬ self.SendsSelected files req path existing assetPath) := by
  simp only [ServeDir.serveSelected, ServeDir.SendsSelected]
  rcases hselect : self.selectFile files path existing assetPath
    (acceptedPrecompressed req self.precompressedBr self.precompressedGzip).1
    (acceptedPrecompressed req self.precompressedBr self.precompressedGzip).2 with - | candidate
  · refine ⟨⟨trivial, trivial⟩, iff_of_true trivial ?_⟩
    rintro ⟨candidate, file, hcandidate, -⟩
    cases hcandidate
  · obtain ⟨file, hfile⟩ :=
      Option.isSome_iff_exists.1 (isSome_openFile_of_selectFile hfind hselect)
    simp only [serveFsAsset, hfile]
    refine ⟨headParity_serveAsset _ req _, ?_⟩
    rw [bodiless_serveAsset_iff (fsAsset_faithful file candidate self.chunkSize)]
    simp [hfile]

variable [Extensions.Slot E OriginalUri]

omit [HttpDateLib] [QualityLib] [MimeGuessLib] in
/-- The redirect has no body, unless its location is no valid header. -/
theorem bodiless_redirectToSlash_iff (req : Request H E FileBody) :
    (Handled.own (redirectToSlash req : Response H E FileBody)).Bodiless ↔
      HeaderValue.fromStr (slashLocation (redirectedUri req)) ≠ none := by
  show (redirectToSlash req : Response H E FileBody).body.content = [] ↔ _
  rw [redirectToSlash_eq]
  rcases HeaderValue.fromStr (slashLocation (redirectedUri req)) with - | value
  · exact iff_of_false (List.cons_ne_nil _ _) fun h ↦ h rfl
  · exact iff_of_true rfl nofun

/-- What a request for a directory is answered with has a body. -/
def ServeDir.SendsPage (files : Files) (self : ServeDir) (req : Request H E FileBody)
    (relative : RelativePath) : Prop :=
  if req.uri.path.getLast? ≠ some '/' ∧
      (self.appendIndexHtmlOnDirectories || self.directoryListing) then
    HeaderValue.fromStr (slashLocation (redirectedUri req)) = none
  else
    match if self.appendIndexHtmlOnDirectories then files.find (self.indexPath relative)
      else none with
    | some (_, .file data) => self.SendsSelected files req (self.indexPath relative) (.file data)
        (joinAssetPath relative.assetPath indexFile)
    | _ => self.directoryListing

omit [HttpDateLib] [QualityLib] [MimeGuessLib] [Extensions.Slot E OriginalUri] in
theorem directoryListingResponse_ne_nil (dir : FilePath Bytes) (requestPath : Str) :
    (directoryListingResponse files dir requestPath : Response H E FileBody).body.content ≠ [] := by
  rw [directoryListingResponse]
  split
  · exact listingResponse_ne_nil _ _
  · exact List.cons_ne_nil _ _

theorem bodiless_handleDirectory_iff (self : ServeDir) (req : Request H E FileBody)
    (relative : RelativePath) :
    (self.handleDirectory files req relative (self.candidate relative)).Bodiless ↔
      ¬ self.SendsPage files req relative := by
  have hlisting : (if self.directoryListing then
      Handled.own (directoryListingResponse files (self.candidate relative) req.uri.path :
        Response H E FileBody) else .fallback).Bodiless ↔ ¬ self.directoryListing := by
    split
    · next h => exact iff_of_false (directoryListingResponse_ne_nil _ _) fun hnot ↦ hnot h
    · next h => exact iff_of_true trivial h
  unfold ServeDir.handleDirectory ServeDir.SendsPage
  split
  · exact bodiless_redirectToSlash_iff req
  · show (match if self.appendIndexHtmlOnDirectories then files.find (self.indexPath relative)
        else none with
      | some (_, .file data) => self.serveSelected files req (self.indexPath relative) (.file data)
          (joinAssetPath relative.assetPath indexFile) false
      | _ => if self.directoryListing then
          .own (directoryListingResponse files (self.candidate relative) req.uri.path)
        else .fallback).Bodiless ↔ _
    rcases hindex : (if self.appendIndexHtmlOnDirectories then files.find (self.indexPath relative)
      else none) with - | ⟨location, data | target | entries⟩
    · exact hlisting
    · obtain ⟨-, hfind⟩ := Option.ite_none_right_eq_some.1 hindex
      exact (headParity_serveSelected hfind req _).2
    · exact hlisting
    · exact hlisting

/-- The directory a request names, as far as links may be followed. -/
def ServeDir.directory (files : Files) (self : ServeDir) (req : Request H E FileBody) :
    Option RelativePath :=
  (relativePath req.uri.path).filter fun relative ↦
    (self.followSymlinks || pathContained files self.root (self.candidate relative)) &&
      (files.find (self.candidate relative)).any fun found ↦ found.2.isDir

/-- The method of a request decides about the body of a file only. -/
theorem ServeDir.handle_withMethod (self : ServeDir) (req : Request H E FileBody) {method : Method}
    (hmethod : isGetOrHead method) :
    self.handle files (withMethod method req) =
      match relativePath req.uri.path with
      | none => .fallback
      | some relative =>
        if !self.followSymlinks && !pathContained files self.root (self.candidate relative) then
          .fallback
        else
          match files.find (self.candidate relative) with
          | none => .fallback
          | some (_, existing) =>
            if existing.isDir then
              self.handleDirectory files req relative (self.candidate relative)
            else
              self.serveSelected files req (self.candidate relative) existing relative.assetPath
                (method = .head) := by
  rw [ServeDir.handle, if_neg]
  · rfl
  · show ¬ (!isGetOrHead method) = true
    rw [hmethod]
    exact Bool.false_ne_true

/-- The directory service answers `HEAD` as it should, unless it sends a page for a directory. -/
theorem ServeDir.headParity_handle_iff (self : ServeDir) (req : Request H E FileBody) :
    HeadParity (self.handle files (withMethod .head req))
        (self.handle files (withMethod .get req)) ↔
      ∀ relative ∈ self.directory files req, ¬ self.SendsPage files req relative := by
  rw [self.handle_withMethod req (by decide), self.handle_withMethod req (by decide),
    ServeDir.directory]
  rcases relativePath req.uri.path with - | relative
  · exact iff_of_true ⟨trivial, trivial⟩ nofun
  · rw [Option.filter_some, forall_mem_ite_some_iff]
    dsimp only
    rw [← Bool.not_or]
    rcases self.followSymlinks || pathContained files self.root (self.candidate relative) with - | -
    · exact iff_of_true ⟨trivial, trivial⟩ nofun
    · rcases hfind : files.find (self.candidate relative) with - | ⟨location, existing⟩
      · exact iff_of_true ⟨trivial, trivial⟩ nofun
      · rw [Option.any_some, Bool.true_and, Bool.not_true, if_neg Bool.false_ne_true,
          if_neg Bool.false_ne_true]
        dsimp only
        rcases existing.isDir with - | -
        · exact iff_of_true (headParity_serveSelected hfind req _).1 nofun
        · -- A directory is answered alike for both methods, so only the body counts.
          refine headParity_self_iff.trans
            ((bodiless_handleDirectory_iff self req relative).trans ?_)
          exact ⟨fun h _ ↦ h, fun h ↦ h rfl⟩

/-! ### Embedded assets -/

variable {assets : RustEmbed}

/-- The file selected for a path is sent to the client. -/
def EmbeddedCandidate.IsSent (cache : Memo Str EmbeddedMeta) (contended : Bool)
    (candidate : EmbeddedCandidate) (req : Request H E FileBody) : Prop :=
  ∃ found, (embeddedMeta cache ⟨candidate.assetPath, candidate.file, contended⟩).1 = some found ∧
    (embeddedAsset candidate.file found candidate.contentType candidate.contentEncoding
      candidate.varyAcceptEncoding : Asset FileBody).IsSent req

omit [QualityLib] [MimeGuessLib] [Extensions.Slot E OriginalUri] in
/-- A selected file is answered with the same head for both methods, without a body for `HEAD`, and
without one for `GET` if it is not sent. -/
theorem headParity_serveCandidate (cache : Memo Str EmbeddedMeta) (contended : Bool)
    (candidate : EmbeddedCandidate) (req : Request H E FileBody)
    (cacheControl : Option HeaderValue) :
    HeadParity (serveCandidate cache contended candidate req true cacheControl).1
        (serveCandidate cache contended candidate req false cacheControl).1 ∧
      ((serveCandidate cache contended candidate req false cacheControl).1.Bodiless ↔
        ¬ candidate.IsSent cache contended req) := by
  rw [serveCandidate, serveCandidate, EmbeddedCandidate.IsSent]
  rcases embeddedMeta cache ⟨candidate.assetPath, candidate.file, contended⟩ with
    ⟨- | found, after⟩
  · refine ⟨⟨trivial, trivial⟩, iff_of_true trivial ?_⟩
    rintro ⟨found, hfound, -⟩
    cases hfound
  · refine ⟨headParity_serveAsset _ req _, ?_⟩
    have hfaithful := embeddedAsset_faithful candidate.file found candidate.contentType
      candidate.contentEncoding candidate.varyAcceptEncoding
    refine (bodiless_serveAsset_iff hfaithful req cacheControl).trans ?_
    simp

/-- What a request for a directory is answered with has a body. -/
def EmbeddedFileService.SendsPage (assets : RustEmbed) (self : EmbeddedFileService)
    (cache : Memo Str EmbeddedMeta) (contended : Bool) (req : Request H E FileBody)
    (relative : RelativePath) : Prop :=
  if req.uri.path.getLast? ≠ some '/' ∧
      (self.appendIndexHtmlOnDirectories || self.directoryListing) then
    HeaderValue.fromStr (slashLocation (redirectedUri req)) = none
  else
    match if self.appendIndexHtmlOnDirectories then
        self.selectFile assets (joinAssetPath relative.assetPath indexFile) req
      else none with
    | some candidate => candidate.IsSent cache contended req
    | none => self.directoryListing

theorem EmbeddedFileService.bodiless_handleDirectory_iff (self : EmbeddedFileService)
    (cache : Memo Str EmbeddedMeta) (contended : Bool) (req : Request H E FileBody)
    (relative : RelativePath) :
    (self.handleDirectory assets cache contended req relative).1.Bodiless ↔
      ¬ self.SendsPage assets cache contended req relative := by
  unfold EmbeddedFileService.handleDirectory EmbeddedFileService.SendsPage
  split
  · exact bodiless_redirectToSlash_iff req
  · rcases (if self.appendIndexHtmlOnDirectories then
      self.selectFile assets (joinAssetPath relative.assetPath indexFile) req else none) with
      - | candidate
    · dsimp only
      split
      · next h => exact iff_of_false (listingResponse_ne_nil _ _) fun hnot ↦ hnot h
      · next h => exact iff_of_true trivial h
    · exact (headParity_serveCandidate cache contended candidate req self.cacheControl).2

/-- The directory a request names, if it names no file. -/
def EmbeddedFileService.directory (assets : RustEmbed) (self : EmbeddedFileService)
    (req : Request H E FileBody) : Option RelativePath :=
  (relativePath req.uri.path).filter fun relative ↦
    (self.selectFile assets relative.assetPath req).isNone &&
      embeddedDirExists assets relative.assetPath

/-- The method of a request decides about the body of a file only. -/
theorem EmbeddedFileService.handle_withMethod (self : EmbeddedFileService)
    (cache : Memo Str EmbeddedMeta) (contended : Bool) (req : Request H E FileBody)
    {method : Method} (hmethod : isGetOrHead method) :
    self.handle assets cache contended (withMethod method req) =
      match relativePath req.uri.path with
      | none => (.fallback, cache)
      | some relative =>
        match self.selectFile assets relative.assetPath req with
        | some candidate =>
          serveCandidate cache contended candidate req (method = .head) self.cacheControl
        | none =>
          if embeddedDirExists assets relative.assetPath then
            self.handleDirectory assets cache contended req relative
          else (.fallback, cache) := by
  rw [EmbeddedFileService.handle, if_neg]
  · rfl
  · show ¬ (!isGetOrHead method) = true
    rw [hmethod]
    exact Bool.false_ne_true

/-- The service for embedded assets answers `HEAD` as it should, unless it sends a page for a
directory. -/
theorem EmbeddedFileService.headParity_handle_iff (self : EmbeddedFileService)
    (cache : Memo Str EmbeddedMeta) (contended : Bool) (req : Request H E FileBody) :
    HeadParity (self.handle assets cache contended (withMethod .head req)).1
        (self.handle assets cache contended (withMethod .get req)).1 ↔
      ∀ relative ∈ self.directory assets req,
        ¬ self.SendsPage assets cache contended req relative := by
  rw [self.handle_withMethod cache contended req (by decide),
    self.handle_withMethod cache contended req (by decide), EmbeddedFileService.directory]
  rcases relativePath req.uri.path with - | relative
  · exact iff_of_true ⟨trivial, trivial⟩ nofun
  · rw [Option.filter_some, forall_mem_ite_some_iff]
    dsimp only
    rcases self.selectFile assets relative.assetPath req with - | candidate
    · rw [Option.isNone_none, Bool.true_and]
      dsimp only
      rcases embeddedDirExists assets relative.assetPath with - | -
      · exact iff_of_true ⟨trivial, trivial⟩ nofun
      · refine headParity_self_iff.trans
          ((self.bodiless_handleDirectory_iff cache contended req relative).trans ?_)
        exact ⟨fun h _ ↦ h, fun h ↦ h rfl⟩
    · exact iff_of_true (headParity_serveCandidate cache contended candidate req _).1 nofun

/-- **The services answer `HEAD` as they should** exactly where they do not send a page for a
directory. The pages are built with their text for every method. -/
theorem headParity_iff :
    (∀ (files : Files) (self : ServeDir) (req : Request H E FileBody),
      HeadParity (self.handle files (withMethod .head req))
          (self.handle files (withMethod .get req)) ↔
        ∀ relative ∈ self.directory files req, ¬ self.SendsPage files req relative) ∧
    ∀ (assets : RustEmbed) (self : EmbeddedFileService) (cache : Memo Str EmbeddedMeta)
      (contended : Bool) (req : Request H E FileBody),
      HeadParity (self.handle assets cache contended (withMethod .head req)).1
          (self.handle assets cache contended (withMethod .get req)).1 ↔
        ∀ relative ∈ self.directory assets req,
          ¬ self.SendsPage assets cache contended req relative :=
  ⟨fun _ self req ↦ self.headParity_handle_iff req,
    fun _ self cache contended req ↦ self.headParity_handle_iff cache contended req⟩

end Parity

/-! ### A listing for `HEAD` -/

section Listing

attribute [local instance] noDates unweighted octets

/-- The service for a directory with a listing and without index pages. -/
def listingDir : ServeDir :=
  { plainDir with directoryListing := true }

/-- A request for the directory. -/
def rootRequest : Request (AssocList HeaderName HeaderValue) (Option OriginalUri) FileBody :=
  Request.new ⟨.head, { path := ['/'] }, Multimap.empty, Extensions.empty, .bytes [], .http11⟩

/-- A `HEAD` request for the directory is answered with the page of its listing. -/
theorem not_headParity_listing :
    ¬ HeadParity (listingDir.handle plantedLink (withMethod .head rootRequest))
      (listingDir.handle plantedLink (withMethod .get rootRequest)) := by
  rw [listingDir.headParity_handle_iff rootRequest]
  intro h
  have hpath : relativePath rootRequest.uri.path = some ⟨[], nofun⟩ :=
    relativePath_requestPath ⟨[], nofun⟩ false
  refine h ⟨[], nofun⟩ ?_ rfl
  rw [ServeDir.directory, hpath]
  rfl

end Listing

end Static
