import Arvik.Static.Embedded
import Arvik.Static.ServeDir

/-!
# What a directory service gives access to

Which files of a tree a directory service streams to some request or other (`streams_iff`): those
its candidates lead to, and those a precompressed sibling or an index page leads to. Only the
candidate is checked for lying below the root, so the siblings and the index pages have to be there
of themselves (`streamsInside_iff`).

## Requests and paths

What is claimed of the service is about requests, what can go wrong is about paths of the tree. The
two are brought together in both directions. A file that is streamed was opened at one of the paths
of `ServeDir.Opens` (`handle_streamed`), by following the service through its branches. And for
every such path there is a request that gets the file there: one for the relative path it was made
from, accepting the coding of the sibling (`exists_handle_streamed_of_names`). What is left is about
the tree alone: where a path leads when all links are resolved.

A file whose modification time cannot be formatted is opened and never streamed, since the answer
panics; so the condition is only about files that can be served.
-/

namespace Static

variable {H E : Type}

/-- The file a request is answered with by the service itself, if its bytes are streamed. -/
def Handled.streamed : Handled (Response H E FileBody) → Option OpenFile
  | own response => response.body.streamed
  | _ => none

/-- The modification time of the file can be formatted; a response for any other file panics. -/
def OpenFile.Servable [HttpDateLib] (file : OpenFile) : Prop :=
  (file.data.modified.mapM HttpDateLib.fmt).isSome

/-- The path of the candidate for a relative path. -/
def ServeDir.candidate (self : ServeDir) (relative : RelativePath) : FilePath Bytes :=
  self.root.join (pathOfText relative.assetPath)

/-- The path of the index page of a candidate. -/
def ServeDir.indexPath (self : ServeDir) (relative : RelativePath) : FilePath Bytes :=
  (self.candidate relative).join (pathOfText indexFile)

/-- The candidate passes the check that it lies below the root. -/
def ServeDir.Admits (files : Files) (self : ServeDir) (relative : RelativePath) : Prop :=
  self.followSymlinks ∨ pathContained files self.root (self.candidate relative)

/-- The suffixes of the precompressed variants the service looks for. -/
def ServeDir.suffixes (self : ServeDir) : List Str :=
  (if self.precompressedBr then [".br".toList] else []) ++
    if self.precompressedGzip then [".gz".toList] else []

/-- The files a request can name: candidates, and the index pages of candidates. -/
inductive ServeDir.Names (files : Files) (self : ServeDir) : FilePath Bytes → Prop
  | candidate (relative : RelativePath) (hadmits : self.Admits files relative) :
      Names files self (self.candidate relative)
  | index (relative : RelativePath) (hadmits : self.Admits files relative)
      (hindex : self.appendIndexHtmlOnDirectories)
      (hdir : (files.find (self.candidate relative)).any fun found ↦ found.2.isDir) :
      Names files self (self.indexPath relative)

/-- The paths opened without having been checked. -/
inductive ServeDir.Unchecked (files : Files) (self : ServeDir) : FilePath Bytes → Prop
  | sibling {path : FilePath Bytes} {suffix : Str} (hpath : self.Names files path)
      (hfile : (files.openFile path).isSome) (hsuffix : suffix ∈ self.suffixes) :
      Unchecked files self (appendSuffix path suffix)
  | index (relative : RelativePath) (hadmits : self.Admits files relative)
      (hindex : self.appendIndexHtmlOnDirectories)
      (hdir : (files.find (self.candidate relative)).any fun found ↦ found.2.isDir) :
      Unchecked files self (self.indexPath relative)

/-- The paths opened to answer a request. -/
def ServeDir.Opens (files : Files) (self : ServeDir) (path : FilePath Bytes) : Prop :=
  (∃ relative, self.Admits files relative ∧ path = self.candidate relative) ∨
    self.Unchecked files path

/-- The files a request can name are opened. -/
theorem ServeDir.Names.opens {files : Files} {self : ServeDir} {path : FilePath Bytes}
    (h : self.Names files path) : self.Opens files path := by
  obtain ⟨relative, hadmits⟩ | ⟨relative, hadmits, hindex, hdir⟩ := h
  · exact .inl ⟨relative, hadmits, rfl⟩
  · exact .inr (.index relative hadmits hindex hdir)

/-- The file lies below the root, all links resolved. -/
def ServeDir.Inside (files : Files) (self : ServeDir) (file : OpenFile) : Prop :=
  ∃ canonicalRoot, files.canonicalize self.root = some canonicalRoot ∧
    canonicalRoot <+: file.canonical

/-! ### What is streamed is opened -/

section Streamed

variable [Multimap H HeaderName HeaderValue] [Extensions E]

/-- A built response streams what its body does. -/
theorem streamed_body (builder : ResponseBuilder H E) {body : FileBody}
    (h : body.streamed = none) : (builder.body body).body.streamed = none := by
  rw [ResponseBuilder.body]
  split
  · exact h
  · rfl

theorem streamed_directoryListingResponse (files : Files) (dir : FilePath Bytes)
    (requestPath : Str) :
    (directoryListingResponse files dir requestPath : Response H E FileBody).body.streamed =
      none := by
  rw [directoryListingResponse]
  split
  · exact streamed_body _ rfl
  · exact streamed_body _ rfl

omit [Multimap H HeaderName HeaderValue] [Extensions E] in
/-- The body asked for, if it streams a file, streams the file of the asset. -/
theorem streamed_assetBody {opened file : OpenFile} {candidate : FsCandidate} {chunkSize : ℕ}
    {range : Option (ByteRange (fsAsset opened candidate chunkSize).len)} {head : Bool}
    (h : (assetBody (fsAsset opened candidate chunkSize) range head).streamed = some file) :
    opened = file := by
  rcases head with _ | _
  · rcases range with - | range
    · exact Option.some.inj h
    · exact Option.some.inj h
  · cases h

variable [HttpDateLib] {files : Files} {self : ServeDir} {req : Request H E FileBody}
  {file : OpenFile}

/-- What is streamed for a selected file is that file. -/
theorem serveFsAsset_streamed {candidate : FsCandidate} {head : Bool} {chunkSize : ℕ}
    {cacheControl : Option HeaderValue}
    (h : (serveFsAsset files candidate req head chunkSize cacheControl).streamed = some file) :
    files.openFile candidate.path = some file ∧ file.Servable := by
  rw [serveFsAsset] at h
  split at h
  · have hnone : (notFound : Response H E FileBody).body.streamed = none := streamed_body _ rfl
    exact absurd (hnone.symm.trans h) nofun
  · next opened hopened =>
    rcases hserve : serveAsset (fsAsset opened candidate chunkSize) req head cacheControl with
      - | response
    · rw [hserve] at h
      cases h
    · rw [hserve] at h
      replace h : response.body.streamed = some file := h
      obtain hbody | ⟨hfmt, range, hbody⟩ := serveAsset_body hserve
      · rw [hbody] at h
        cases h
      · rw [hbody] at h
        obtain rfl := streamed_assetBody h
        exact ⟨hopened, hfmt⟩

variable [QualityLib] [MimeGuessLib]

omit [HttpDateLib] [Extensions E] [MimeGuessLib] in
/-- The variants accepted are among those the service looks for. -/
theorem acceptedPrecompressed_le (req : Request H E FileBody) (wantBr wantGzip : Bool) :
    ((acceptedPrecompressed req wantBr wantGzip).1 → wantBr) ∧
      ((acceptedPrecompressed req wantBr wantGzip).2 → wantGzip) := by
  rw [acceptedPrecompressed]
  split
  · exact ⟨fun h ↦ (Bool.and_eq_true_iff.1 h).1, fun h ↦ (Bool.and_eq_true_iff.1 h).1⟩
  · exact ⟨nofun, nofun⟩

/-- What is streamed for a file is the file or a sibling of it. -/
theorem serveSelected_streamed {path : FilePath Bytes} {data : FileData} {assetPath : Str}
    {head : Bool}
    (h : (self.serveSelected files req path (.file data) assetPath head).streamed = some file) :
    file.Servable ∧ ∃ opened, (opened = path ∨ ∃ suffix ∈ self.suffixes,
      opened = appendSuffix path suffix) ∧ files.openFile opened = some file := by
  obtain ⟨hbr, hgzip⟩ := acceptedPrecompressed_le req self.precompressedBr self.precompressedGzip
  rw [ServeDir.serveSelected, ServeDir.selectFile] at h
  split at h
  · next asset hasset =>
    obtain ⟨hopen, hservable⟩ := serveFsAsset_streamed h
    refine ⟨hservable, asset.path, ?_, hopen⟩
    split at hasset
    · next hcond =>
      have hwant := hbr (Bool.and_eq_true_iff.1 hcond).1
      refine .inr ⟨".br".toList, ?_, by rw [← Option.some.inj hasset]⟩
      rw [ServeDir.suffixes, if_pos hwant]
      exact List.mem_cons_self
    · split at hasset
      · next hcond =>
        have hwant := hgzip (Bool.and_eq_true_iff.1 hcond).1
        refine .inr ⟨".gz".toList, ?_, by rw [← Option.some.inj hasset]⟩
        rw [ServeDir.suffixes, if_pos hwant]
        exact List.mem_append_right _ List.mem_cons_self
      · exact .inl (by rw [← Option.some.inj hasset])
  · cases h

omit [Multimap H HeaderName HeaderValue] [Extensions E] [HttpDateLib] [QualityLib]
  [MimeGuessLib] in
theorem isSome_openFile_of_find {path : FilePath Bytes} {location : List Bytes} {data : FileData}
    (h : files.find path = some (location, .file data)) : (files.openFile path).isSome := by
  rw [Files.openFile, FileSystem.findFile, h]
  rfl

/-- What is streamed for a file a request can name is opened for it. -/
theorem opens_of_serveSelected_streamed {path : FilePath Bytes} {location : List Bytes}
    {data : FileData} {assetPath : Str} {head : Bool} (hpath : self.Names files path)
    (hfind : files.find path = some (location, .file data))
    (h : (self.serveSelected files req path (.file data) assetPath head).streamed = some file) :
    file.Servable ∧ ∃ opened, self.Opens files opened ∧ files.openFile opened = some file := by
  obtain ⟨hservable, opened, rfl | ⟨suffix, hsuffix, rfl⟩, hopen⟩ := serveSelected_streamed h
  · exact ⟨hservable, opened, hpath.opens, hopen⟩
  · exact ⟨hservable, _, .inr (.sibling hpath (isSome_openFile_of_find hfind) hsuffix), hopen⟩

variable [Extensions.Slot E OriginalUri]

theorem handleDirectory_streamed {relative : RelativePath} (hadmits : self.Admits files relative)
    (hdir : (files.find (self.candidate relative)).any fun found ↦ found.2.isDir)
    (h : (self.handleDirectory files req relative (self.candidate relative)).streamed =
      some file) :
    file.Servable ∧ ∃ opened, self.Opens files opened ∧ files.openFile opened = some file := by
  rw [ServeDir.handleDirectory] at h
  split at h
  · have hnone : (redirectToSlash req : Response H E FileBody).body.streamed = none :=
      streamed_body _ rfl
    exact absurd (hnone.symm.trans h) nofun
  · simp only at h
    split at h
    · next hindex =>
      obtain ⟨happend, hfind⟩ := Option.ite_none_right_eq_some.1 hindex
      exact opens_of_serveSelected_streamed (.index relative hadmits happend hdir) hfind h
    · split at h
      · have hnone := streamed_directoryListingResponse (H := H) (E := E) files
          (self.candidate relative) req.uri.path
        exact absurd (hnone.symm.trans h) nofun
      · cases h

/-- What is streamed is a file opened for some request. -/
theorem handle_streamed (h : (self.handle files req).streamed = some file) :
    file.Servable ∧ ∃ opened, self.Opens files opened ∧ files.openFile opened = some file := by
  rw [ServeDir.handle] at h
  split at h
  · split at h
    · cases h
    · have hnone : (methodNotAllowed : Response H E FileBody).body.streamed = none :=
        streamed_body _ rfl
      exact absurd (hnone.symm.trans h) nofun
  · split at h
    · cases h
    · next relative hrelative =>
      simp only at h
      split at h
      · cases h
      · next hcheck =>
        have hadmits : self.Admits files relative := by
          rw [Bool.and_eq_true_iff, not_and_or, Bool.not_eq_true', Bool.not_eq_true',
            Bool.not_eq_false, Bool.not_eq_false] at hcheck
          exact hcheck
        split at h
        · cases h
        · next location existing hfind =>
          split at h
          · next hdir =>
            refine handleDirectory_streamed hadmits ?_ h
            rw [ServeDir.candidate, hfind]
            exact hdir
          · next hdir =>
            -- a path never leads to a link, so this is a file
            have hlink := FileSystem.find_isLink hfind
            rcases existing with data | target | entries
            · exact opens_of_serveSelected_streamed (.candidate relative hadmits) hfind h
            · cases hlink
            · exact absurd rfl hdir

end Streamed

/-! ### What is opened is streamed -/

section Requested

variable [Multimap H HeaderName HeaderValue] [Extensions E]

/-- A request for a path without conditions, accepting at most one coding. -/
def fileRequest (path : Str) (coding : Option HeaderValue) : Request H E FileBody :=
  .new {
    method := .get
    uri := { path }
    headers := (coding.map (Multimap.append Multimap.empty HeaderName.acceptEncoding)).getD
      Multimap.empty
    extensions := Extensions.empty
    body := .bytes [] }

theorem getAll_fileRequest (path : Str) (coding : Option HeaderValue) (name : HeaderName) :
    Multimap.getAll (fileRequest path coding : Request H E FileBody).headers name =
      if name = HeaderName.acceptEncoding then coding.toList else [] := by
  show Multimap.getAll ((coding.map _).getD (Multimap.empty : H)) name = _
  rcases coding with - | value
  · simp
  · simp

theorem combinedAcceptEncoding_fileRequest (path : Str) (coding : Option HeaderValue) :
    combinedAcceptEncoding (fileRequest path coding : Request H E FileBody) =
      ((coding.bind HeaderValue.toStr).getD []) := by
  rw [combinedAcceptEncoding, getAll_fileRequest, if_pos rfl]
  rcases coding with - | value
  · rfl
  · rw [Option.toList_some, List.foldl_cons, List.foldl_nil, Option.bind_some]
    rcases value.toStr with - | v
    · rfl
    · rfl

theorem get_fileRequest_eq_none (path : Str) (coding : Option HeaderValue) :
    ∀ name ∈ conditionalHeaders,
      Multimap.get (fileRequest path coding : Request H E FileBody).headers name = none := by
  intro name hname
  have hne : name ≠ HeaderName.acceptEncoding := by
    rintro rfl
    exact absurd hname (by decide)
  rw [Multimap.get, getAll_fileRequest, if_neg hne, List.head?_nil]

/-- The variants accepted when no coding, or one of the two, is. -/
theorem acceptedPrecompressed_fileRequest [QualityLib] (path : Str) (wantBr wantGzip : Bool) :
    acceptedPrecompressed (fileRequest path none : Request H E FileBody) wantBr wantGzip =
        (false, false) ∧
      acceptedPrecompressed (fileRequest path (some .br) : Request H E FileBody) true wantGzip =
        (true, false) ∧
      acceptedPrecompressed (fileRequest path (some .gzip) : Request H E FileBody) wantBr true =
        (false, true) := by
  have hbr : (Accept.negotiate ["br".toList] "br".toList).isSome := by
    have hallowed : (("br".toList.splitOn ',').foldl (Accept.Verdict.entry "br".toList)
        {}).allowed = QualityLib.positive QualityLib.one := rfl
    rw [Accept.negotiate_singleton, hallowed, QualityLib.positive_one]
    rfl
  have hgzip : (Accept.negotiate ["gzip".toList] "gzip".toList).isSome := by
    have hallowed : (("gzip".toList.splitOn ',').foldl (Accept.Verdict.entry "gzip".toList)
        {}).allowed = QualityLib.positive QualityLib.one := rfl
    rw [Accept.negotiate_singleton, hallowed, QualityLib.positive_one]
    rfl
  have hbr' : Accept.negotiate ["br".toList] "gzip".toList = none := rfl
  have hgzip' : Accept.negotiate ["gzip".toList] "br".toList = none := rfl
  have hnone : ∀ coding ∈ ["br".toList, "gzip".toList], Accept.negotiate [coding] [] = none := by
    intro coding hcoding
    rcases List.mem_pair.1 hcoding with rfl | rfl <;> rfl
  have htextBr : HeaderValue.br.toStr = some "br".toList := by decide
  have htextGzip : HeaderValue.gzip.toStr = some "gzip".toList := by decide
  simp only [acceptedPrecompressed, combinedAcceptEncoding_fileRequest, Option.bind_none,
    Option.bind_some, Option.getD_none, Option.getD_some, htextBr, htextGzip]
  refine ⟨?_, ?_, ?_⟩
  · rw [hnone _ (by simp), hnone _ (by simp)]
    split <;> simp
  · rw [hbr, hgzip']
    simp
  · rw [hbr', hgzip]
    simp

variable [HttpDateLib] {files : Files} {self : ServeDir} {file : OpenFile}

/-- A file selected for a request without conditions is streamed. -/
theorem streamed_serveFsAsset_fileRequest {candidate : FsCandidate} {path : Str}
    {coding : Option HeaderValue} {chunkSize : ℕ} {cacheControl : Option HeaderValue}
    (hopen : files.openFile candidate.path = some file) (hservable : file.Servable) :
    (serveFsAsset files candidate (fileRequest path coding : Request H E FileBody) false chunkSize
      cacheControl).streamed = some file := by
  rw [serveFsAsset, hopen]
  simp only
  rw [serveAsset_of_unconditional (get_fileRequest_eq_none path coding)]
  have hsome : (respond (fsAsset file candidate chunkSize) none false cacheControl :
      Option (Response H E FileBody)).isSome := isSome_respond_iff.2 hservable
  obtain ⟨response, hresponse⟩ := Option.isSome_iff_exists.1 hsome
  rw [hresponse]
  show response.body.streamed = some file
  rw [(respond_eq_some hresponse).2.2]
  rfl

variable [QualityLib] [MimeGuessLib]

/-- A file is streamed to a request that accepts no coding, and a precompressed sibling to one that
accepts its coding only. -/
theorem streamed_serveSelected_fileRequest {base opened : FilePath Bytes} (data : FileData)
    (assetPath path : Str)
    (hopened : opened = base ∨ ∃ suffix ∈ self.suffixes, opened = appendSuffix base suffix)
    (hopen : files.openFile opened = some file) (hservable : file.Servable) :
    ∃ coding, (self.serveSelected files (fileRequest path coding : Request H E FileBody) base
      (.file data) assetPath false).streamed = some file := by
  have hsome : (files.openFile opened).isSome := Option.isSome_of_eq_some hopen
  obtain rfl | ⟨suffix, hsuffix, rfl⟩ := hopened
  · refine ⟨none, ?_⟩
    rw [ServeDir.serveSelected, (acceptedPrecompressed_fileRequest path _ _).1]
    exact streamed_serveFsAsset_fileRequest hopen hservable
  · rcases List.mem_append.1 hsuffix with hsuffix | hsuffix
    · obtain ⟨hbr, hmem⟩ := List.mem_ite_nil_right.1 hsuffix
      obtain rfl := List.mem_singleton.1 hmem
      refine ⟨some .br, ?_⟩
      rw [ServeDir.serveSelected, hbr, (acceptedPrecompressed_fileRequest path false _).2.1,
        ServeDir.selectFile]
      simp only [hsome, Bool.and_self, if_true]
      exact streamed_serveFsAsset_fileRequest hopen hservable
    · obtain ⟨hgzip, hmem⟩ := List.mem_ite_nil_right.1 hsuffix
      obtain rfl := List.mem_singleton.1 hmem
      refine ⟨some .gzip, ?_⟩
      rw [ServeDir.serveSelected, hgzip, (acceptedPrecompressed_fileRequest path _ false).2.2,
        ServeDir.selectFile]
      simp only [hsome, Bool.and_self, Bool.false_and, if_true]
      exact streamed_serveFsAsset_fileRequest hopen hservable

omit [Multimap H HeaderName HeaderValue] [Extensions E] [HttpDateLib] [QualityLib]
  [MimeGuessLib] in
theorem exists_find_of_isSome_openFile {path : FilePath Bytes}
    (h : (files.openFile path).isSome) :
    ∃ location data, files.find path = some (location, .file data) := by
  rw [Files.openFile, FileSystem.findFile, Option.isSome_map] at h
  split at h
  · next location data hfind => exact ⟨location, data, hfind⟩
  · cases h

omit [Multimap H HeaderName HeaderValue] [Extensions E] [HttpDateLib] [QualityLib]
  [MimeGuessLib] in
theorem check_of_admits {relative : RelativePath} (h : self.Admits files relative) :
    (!self.followSymlinks && !pathContained files self.root
      (self.root.join (pathOfText relative.assetPath))) = false := by
  rw [Bool.and_eq_false_iff, Bool.not_eq_false', Bool.not_eq_false']
  exact h

variable [Extensions.Slot E OriginalUri]

/-- A request for a file is answered from that file. -/
theorem handle_fileRequest_of_file {relative : RelativePath} {coding : Option HeaderValue}
    {location : List Bytes} {data : FileData} (hadmits : self.Admits files relative)
    (hfind : files.find (self.candidate relative) = some (location, .file data)) :
    self.handle files (fileRequest (relative.requestPath false) coding : Request H E FileBody) =
      self.serveSelected files (fileRequest (relative.requestPath false) coding)
        (self.candidate relative) (.file data) relative.assetPath false := by
  have hpath : relativePath (fileRequest (relative.requestPath false) coding :
      Request H E FileBody).uri.path = some relative := relativePath_requestPath relative false
  rw [ServeDir.candidate] at hfind ⊢
  rw [ServeDir.handle, hpath]
  simp only [check_of_admits hadmits, hfind]
  rfl

/-- A request for a directory, with a slash after it, is answered from its index page. -/
theorem handle_fileRequest_of_index {relative : RelativePath} {coding : Option HeaderValue}
    {location : List Bytes} {data : FileData} (hadmits : self.Admits files relative)
    (hindex : self.appendIndexHtmlOnDirectories)
    (hdir : (files.find (self.candidate relative)).any fun found ↦ found.2.isDir)
    (hfind : files.find (self.indexPath relative) = some (location, .file data)) :
    self.handle files (fileRequest (relative.requestPath true) coding : Request H E FileBody) =
      self.serveSelected files (fileRequest (relative.requestPath true) coding)
        (self.indexPath relative) (.file data) (joinAssetPath relative.assetPath indexFile)
        false := by
  have hpath : relativePath (fileRequest (relative.requestPath true) coding :
      Request H E FileBody).uri.path = some relative := relativePath_requestPath relative true
  have hslash : (fileRequest (relative.requestPath true) coding :
      Request H E FileBody).uri.path.getLast? = some '/' := List.getLast?_concat
  obtain ⟨⟨there, existing⟩, hexisting, hisDir⟩ := (Option.any_eq_true _ _).1 hdir
  rw [ServeDir.indexPath, ServeDir.candidate] at hfind ⊢
  rw [ServeDir.candidate] at hexisting
  rw [ServeDir.handle, hpath]
  simp only [check_of_admits hadmits, hexisting, hisDir, if_true]
  show self.handleDirectory files _ relative _ = _
  rw [ServeDir.handleDirectory, if_neg fun h ↦ h.1 hslash]
  simp only [hindex, if_true, hfind]

end Requested

/-! ### Containment -/

section Containment

variable [Multimap H HeaderName HeaderValue] [Extensions E] [Extensions.Slot E OriginalUri]
  [HttpDateLib] [QualityLib] [MimeGuessLib] {files : Files} {self : ServeDir} {file : OpenFile}

/-- Whatever names a file is answered from that file, or from any of its siblings. -/
theorem exists_handle_streamed_of_names {base opened : FilePath Bytes}
    (hbase : self.Names files base) (hfile : (files.openFile base).isSome)
    (hopened : opened = base ∨ ∃ suffix ∈ self.suffixes, opened = appendSuffix base suffix)
    (hopen : files.openFile opened = some file) (hservable : file.Servable) :
    ∃ req : Request H E FileBody, (self.handle files req).streamed = some file := by
  obtain ⟨location, data, hfind⟩ := exists_find_of_isSome_openFile hfile
  obtain ⟨relative, hadmits⟩ | ⟨relative, hadmits, hindex, hdir⟩ := hbase
  · obtain ⟨coding, hstreamed⟩ := streamed_serveSelected_fileRequest (H := H) (E := E)
      data relative.assetPath (relative.requestPath false) hopened hopen hservable
    exact ⟨_, (congrArg _ (handle_fileRequest_of_file hadmits hfind)).trans hstreamed⟩
  · obtain ⟨coding, hstreamed⟩ := streamed_serveSelected_fileRequest (H := H) (E := E)
      data (joinAssetPath relative.assetPath indexFile) (relative.requestPath true) hopened hopen
      hservable
    exact ⟨_, (congrArg _ (handle_fileRequest_of_index hadmits hindex hdir hfind)).trans hstreamed⟩

/-- The files streamed to some request are those at the paths opened, as far as their modification
times can be formatted. -/
theorem streams_iff :
    (∃ req : Request H E FileBody, (self.handle files req).streamed = some file) ↔
      file.Servable ∧ ∃ path, self.Opens files path ∧ files.openFile path = some file := by
  constructor
  · rintro ⟨req, h⟩
    exact handle_streamed h
  · rintro ⟨hservable, path, ⟨relative, hadmits, rfl⟩ | hunchecked, hopen⟩
    · exact exists_handle_streamed_of_names (.candidate relative hadmits)
        (Option.isSome_of_eq_some hopen) (.inl rfl) hopen hservable
    · obtain ⟨hbase, hfile, hsuffix⟩ | ⟨relative, hadmits, hindex, hdir⟩ := hunchecked
      · exact exists_handle_streamed_of_names hbase hfile (.inr ⟨_, hsuffix, rfl⟩) hopen hservable
      · exact exists_handle_streamed_of_names (.index relative hadmits hindex hdir)
          (Option.isSome_of_eq_some hopen) (.inl rfl) hopen hservable

omit [HttpDateLib] [QualityLib] [MimeGuessLib] [Extensions.Slot E OriginalUri] [Extensions E]
  [Multimap H HeaderName HeaderValue] in
/-- The check is right about the candidate itself. -/
theorem inside_of_pathContained {path : FilePath Bytes}
    (h : pathContained files self.root path) (hopen : files.openFile path = some file) :
    self.Inside files file := by
  obtain ⟨⟨location, data⟩, hfile, rfl⟩ := Option.map_eq_some_iff.1 hopen
  have hcanonical : files.canonicalize path = some location := by
    rw [FileSystem.findFile] at hfile
    split at hfile
    · next found _ hfind =>
      obtain ⟨found, hfound, hmap⟩ := Option.bind_eq_some_iff.1 hfind
      obtain ⟨tree, -, heq⟩ := Option.map_eq_some_iff.1 hmap
      rw [hfound, (Prod.mk.inj heq).1, (Prod.mk.inj (Option.some.inj hfile)).1]
    · cases hfile
  rw [pathContained, hcanonical] at h
  split at h
  · cases h
  · next canonicalRoot hroot => exact ⟨canonicalRoot, hroot, List.isPrefixOf_iff_prefix.1 h⟩

variable (H E) in
/-- Everything the service streams, to any request, lies below its root, by the location of the file
that was opened and not by the path it was opened under. -/
def ServeDir.StreamsInside (files : Files) (self : ServeDir) : Prop :=
  ∀ (req : Request H E FileBody) (file : OpenFile),
    (self.handle files req).streamed = some file → self.Inside files file

omit [Multimap H HeaderName HeaderValue] [Extensions E] [Extensions.Slot E OriginalUri]
  [QualityLib] [MimeGuessLib] in
/-- The files opened unchecked lie below the root, as far as they are streamed at all. -/
def ServeDir.UncheckedInside (files : Files) (self : ServeDir) : Prop :=
  ∀ path, self.Unchecked files path → ∀ file, files.openFile path = some file → file.Servable →
    self.Inside files file

/-- A service that must not follow links out of its root does not exactly if no precompressed
sibling, no index page and no sibling of an index page leads out of it. -/
theorem streamsInside_iff (hlinks : self.followSymlinks = false) :
    self.StreamsInside H E files ↔ self.UncheckedInside files := by
  constructor
  · intro h path hpath file hopen hservable
    obtain ⟨req, hstreamed⟩ := (streams_iff (H := H) (E := E)).2
      ⟨hservable, path, .inr hpath, hopen⟩
    exact h req file hstreamed
  · intro h req file hstreamed
    obtain ⟨hservable, path, ⟨relative, hadmits, rfl⟩ | hunchecked, hopen⟩ :=
      streams_iff.1 ⟨req, hstreamed⟩
    · obtain hfollow | hcontained := hadmits
      · rw [hlinks] at hfollow
        cases hfollow
      · exact inside_of_pathContained hcontained hopen
    · exact h path hunchecked file hopen hservable

end Containment

/-! ### A planted link -/

section PlantedLink

attribute [local instance] noDates

/-- Qualities of which only the largest is ever read. -/
local instance unweighted : QualityLib where
  Quality := Bool
  one := true
  parse _ := none
  positive := id
  positive_one := rfl

/-- A library that knows no content type. -/
local instance octets : MimeGuessLib where
  essence _ := "application/octet-stream".toList
  essence_visible _ := List.forall_iff_forall_mem.1 (by decide)

/-- A file holding one byte. -/
def oneByte (b : UInt8) : FileData where
  content := [b]
  modified := none

/-- A name in the tree. -/
def osName (s : String) : Bytes :=
  Text.utf8 s.toList

/-- A tree with a secret beside the directory served, and a link to it in there, named as the
compressed form of a page. -/
def plantedLink : Files where
  root := .dir
    [(osName "srv", .dir
      [(osName "a.txt", .file (oneByte 0)),
        (osName "a.txt.br", .link ⟨true, [.name (osName "secret")]⟩)]),
    (osName "secret", .file (oneByte 1))]
  workingDir := []
  isDir_workingDir := rfl
  maxLinks := 40

/-- The service for the directory, without variants and index pages. -/
def plainDir : ServeDir where
  root := ⟨true, [.name (osName "srv")]⟩
  appendIndexHtmlOnDirectories := false

/-- The service for the directory, looking for compressed forms. -/
def brDir : ServeDir :=
  { plainDir with precompressedBr := true }

/-- The secret is streamed as the compressed form of the page. -/
theorem not_brDir_streamsInside :
    ¬ brDir.StreamsInside (AssocList HeaderName HeaderValue) (Option OriginalUri) plantedLink := by
  intro h
  let page : RelativePath := ⟨["a.txt".toList], by decide⟩
  have hopens : brDir.Unchecked plantedLink (appendSuffix (brDir.candidate page) ".br".toList) :=
    .sibling (.candidate page (.inr (by decide))) (by decide) (by decide)
  let secret : OpenFile := ⟨[osName "secret"], oneByte 1⟩
  have hsecret : secret.Servable ∧
      ∃ path, brDir.Opens plantedLink path ∧ plantedLink.openFile path = some secret :=
    ⟨rfl, _, .inr hopens, rfl⟩
  obtain ⟨req, hstreamed⟩ := (streams_iff (H := AssocList HeaderName HeaderValue)
    (E := Option OriginalUri)).2 hsecret
  obtain ⟨canonicalRoot, hroot, hle⟩ := h req _ hstreamed
  have hsrv : plantedLink.canonicalize brDir.root = some [osName "srv"] := by decide
  rw [hsrv] at hroot
  rw [← Option.some.inj hroot] at hle
  exact absurd hle (by decide)

end PlantedLink

end Static
