import Arvik.Foundation.FileTree
import Arvik.Static.Asset
import Arvik.Static.RelativePath
import Arvik.Static.Responses

/-!
# Serving a directory

The service for a directory tree of the file system. A request names a candidate below the root;
unless links may be followed freely, the candidate is resolved and has to lie below the resolved
root. What is opened in the end is the candidate, a precompressed sibling of it, or the index page
of the directory it is.

Names are byte strings. The tree does not change while a request is handled, so the resolved root,
which the source keeps from its first use, is always that of the tree.

Only definitions stand here. The service is cut where the source is, into the choice of a file, the
answer for a file and the answer for a directory, and each of the modules that follow analyses one
of these under its own heading: containment, validators, ranges, redirects, listings. An answer may
also be that the service leaves the request to its fallback, or that it panics, since the date of a
file may be one that cannot be formatted (`Handled`).
-/

namespace Static

/-! ### Files -/

/-- The text of a path, cut into components. -/
def pathOfText (s : Str) : FilePath Bytes :=
  if s = [] then ⟨false, []⟩
  else
    ⟨s.head? = some '/', (s.splitOn '/').map fun part ↦
      if part = [] ∨ part = ['.'] then .here
      else if part = ['.', '.'] then .up
      else .name (Text.utf8 part)⟩

/-- The path with a suffix appended to its last name. -/
def appendSuffix (path : FilePath Bytes) (suffix : Str) : FilePath Bytes :=
  path.withFileName (path.fileName.getD [] ++ Text.utf8 suffix)

/-- What there is in a file. -/
structure FileData where
  content : Bytes
  /-- The modification time, where the file system keeps one. -/
  modified : Option SystemTime

/-- An open file. -/
structure OpenFile where
  /-- The location of the file, all links resolved. -/
  canonical : List Bytes
  data : FileData

/-- A body: bytes, or a stretch of an open file to be streamed in chunks. -/
inductive FileBody
  | bytes (data : Bytes)
  | stream (file : OpenFile) (start len chunkSize : ℕ)

instance : FromBytes FileBody where
  empty := .bytes []
  fromBytes := .bytes

/-- The file a body streams. -/
def FileBody.streamed : FileBody → Option OpenFile
  | bytes _ => none
  | stream file _ _ _ => some file

/-- The text of the entity tag of a file. -/
def fsEtagText (len : ℕ) (modified : Option SystemTime) : Str :=
  let nanos := ((modified.map SystemTime.nanos).getD 0).toNat
  '"' :: Nat.toDigits 16 len ++ '-' :: Nat.toDigits 16 (nanos / 10 ^ 9) ++
    '-' :: Nat.toDigits 16 (nanos % 10 ^ 9) ++ ['"']

theorem fsEtagText_visible (len : ℕ) (modified : Option SystemTime) :
    ∀ c ∈ fsEtagText len modified, 32 ≤ c.toNat ∧ c.toNat < 127 := by
  have hdigits : ∀ {sep : Char} {n : ℕ} {c : Char}, 32 ≤ sep.toNat ∧ sep.toNat < 127 →
      c ∈ sep :: Nat.toDigits 16 n → 32 ≤ c.toNat ∧ c.toNat < 127 := by
    intro sep n c hsep hc
    rcases List.mem_cons.1 hc with rfl | hc
    · exact hsep
    · exact HeaderValue.visible_of_mem_toDigits (by decide) (by decide) hc
  intro c hc
  rcases List.mem_append.1 hc with hc | hc
  · rcases List.mem_append.1 hc with hc | hc
    · rcases List.mem_append.1 hc with hc | hc
      · exact hdigits (by decide) hc
      · exact hdigits (by decide) hc
    · exact hdigits (by decide) hc
  · rw [List.mem_singleton.1 hc]
    decide

/-- The entity tag of a file: its length and its modification time. -/
def fsEtag (len : ℕ) (modified : Option SystemTime) : HeaderValue :=
  .ofVisible (fsEtagText len modified) (fsEtagText_visible len modified)

/-- A file selected for serving. -/
structure FsCandidate where
  path : FilePath Bytes
  contentType : HeaderValue
  contentEncoding : Option HeaderValue
  varyAcceptEncoding : Bool

/-- The asset in an open file. -/
def fsAsset (file : OpenFile) (candidate : FsCandidate) (chunkSize : ℕ) : Asset FileBody where
  len := file.data.content.length
  modified := file.data.modified
  etag := fsEtag file.data.content.length file.data.modified
  contentType := candidate.contentType
  contentEncoding := candidate.contentEncoding
  varyAcceptEncoding := candidate.varyAcceptEncoding
  whole := .stream file 0 file.data.content.length chunkSize
  slice range := .stream file range.start (range.stop - range.start + 1) chunkSize

/-- What becomes of a request: a response of the service itself, a panic, or the fallback. -/
inductive Handled (R : Type)
  | own (response : R)
  | panicked
  | fallback

/-- The response of an operation that may panic. -/
def Handled.ofOption {R : Type} : Option R → Handled R
  | some response => own response
  | none => panicked

theorem Handled.ofOption_eq_own {R : Type} {x : Option R} {response : R}
    (h : ofOption x = .own response) : x = some response := by
  rcases x with - | response'
  · exact nomatch h
  · exact congrArg some (own.inj h)

section ServeDir

variable {H E : Type} [Multimap H HeaderName HeaderValue] [Extensions E] [HttpDateLib]

/-- A file tree with contents. -/
abbrev Files := FileSystem Bytes FileData

/-- Open a file. A path to a directory is not opened here: what is selected is a file. -/
def Files.openFile (files : Files) (path : FilePath Bytes) : Option OpenFile :=
  (files.findFile path).map fun (canonical, data) ↦ ⟨canonical, data⟩

/-- The response to a request for a selected file. -/
def serveFsAsset (files : Files) (candidate : FsCandidate) (req : Request H E FileBody)
    (head : Bool) (chunkSize : ℕ) (cacheControl : Option HeaderValue) :
    Handled (Response H E FileBody) :=
  match files.openFile candidate.path with
  | none => .own notFound
  | some file => .ofOption (serveAsset (fsAsset file candidate chunkSize) req head cacheControl)

/-- The path resolves to a location below that of the root. -/
def pathContained (files : Files) (root path : FilePath Bytes) : Bool :=
  match files.canonicalize root with
  | none => false
  | some canonicalRoot =>
    match files.canonicalize path with
    | none => false
    | some canonicalPath => canonicalRoot.isPrefixOf canonicalPath

/-- The listing of a directory. Links are listed as files. -/
def directoryListingResponse (files : Files) (dir : FilePath Bytes) (requestPath : Str) :
    Response H E FileBody :=
  match files.find dir with
  | some (_, .dir entries) =>
    let entries := entries.map fun (name, entry) ↦
      Text.fromUtf8Lossy name ++ if entry.isDir then ['/'] else []
    listingResponse requestPath
      (entries.mergeSort fun s t ↦ !(t.lex s fun c d ↦ c.toNat < d.toNat))
  | _ => notFound

/-- A service for a directory tree. -/
structure ServeDir where
  root : FilePath Bytes
  precompressedGzip : Bool := false
  precompressedBr : Bool := false
  callFallbackOnMethodNotAllowed : Bool := false
  appendIndexHtmlOnDirectories : Bool := true
  directoryListing : Bool := false
  chunkSize : ℕ := 64 * 1024
  cacheControl : Option HeaderValue := none
  /-- Links may lead out of the root. -/
  followSymlinks : Bool := false

/-- The name of the page shown for a directory. -/
def indexFile : Str := "index.html".toList

variable [QualityLib] [MimeGuessLib] [Extensions.Slot E OriginalUri]

/-- The file to serve for a path: a precompressed variant if there is one, else the file itself. -/
def ServeDir.selectFile (files : Files) (self : ServeDir) (path : FilePath Bytes)
    (existing : FileTree Bytes FileData) (assetPath : Str) (acceptsBr acceptsGzip : Bool) :
    Option FsCandidate :=
  let candidate (path : FilePath Bytes) (contentEncoding : Option HeaderValue) : FsCandidate :=
    { path, contentEncoding, contentType := contentType assetPath,
      varyAcceptEncoding := self.precompressedGzip || self.precompressedBr }
  if acceptsBr && (files.openFile (appendSuffix path ".br".toList)).isSome then
    some (candidate (appendSuffix path ".br".toList) (some .br))
  else if acceptsGzip && (files.openFile (appendSuffix path ".gz".toList)).isSome then
    some (candidate (appendSuffix path ".gz".toList) (some .gzip))
  -- only a variant may stand for what is no file
  else match existing with
    | .file _ => some (candidate path none)
    | _ => none

/-- Select a file and serve it. -/
def ServeDir.serveSelected (files : Files) (self : ServeDir) (req : Request H E FileBody)
    (path : FilePath Bytes) (existing : FileTree Bytes FileData) (assetPath : Str) (head : Bool) :
    Handled (Response H E FileBody) :=
  let accepts := acceptedPrecompressed req self.precompressedBr self.precompressedGzip
  match self.selectFile files path existing assetPath accepts.1 accepts.2 with
  | some asset => serveFsAsset files asset req head self.chunkSize self.cacheControl
  | none => .fallback

/-- A request for a directory. -/
def ServeDir.handleDirectory (files : Files) (self : ServeDir) (req : Request H E FileBody)
    (relative : RelativePath) (dir : FilePath Bytes) : Handled (Response H E FileBody) :=
  if req.uri.path.getLast? ≠ some '/' ∧
      (self.appendIndexHtmlOnDirectories || self.directoryListing) then
    .own (redirectToSlash req)
  else
    let indexPath := dir.join (pathOfText indexFile)
    match if self.appendIndexHtmlOnDirectories then files.find indexPath else none with
    | some (_, .file data) =>
      -- the index page is served as to a `GET` request
      self.serveSelected files req indexPath (.file data)
        (joinAssetPath relative.assetPath indexFile) false
    | _ =>
      if self.directoryListing then
        .own (directoryListingResponse files dir req.uri.path)
      else .fallback

/-- A request to the service. -/
def ServeDir.handle (files : Files) (self : ServeDir) (req : Request H E FileBody) :
    Handled (Response H E FileBody) :=
  if !isGetOrHead req.method then
    if self.callFallbackOnMethodNotAllowed then .fallback else .own methodNotAllowed
  else
    match relativePath req.uri.path with
    | none => .fallback
    | some relative =>
      let candidate := self.root.join (pathOfText relative.assetPath)
      -- containment is checked before the file system is asked what is there
      if !self.followSymlinks && !pathContained files self.root candidate then .fallback
      else
        match files.find candidate with
        | none => .fallback
        | some (_, existing) =>
          if existing.isDir then self.handleDirectory files req relative candidate
          else
            self.serveSelected files req candidate existing relative.assetPath
              (req.method = .head)

/-- The service with its fallback; without one, a request for it is answered with a 404. -/
def ServeDir.call (files : Files) (self : ServeDir)
    (notFoundService : Option (Request H E FileBody → Option (Response H E FileBody)))
    (req : Request H E FileBody) : Option (Response H E FileBody) :=
  match self.handle files req with
  | .own response => some response
  | .panicked => none
  | .fallback =>
    match notFoundService with
    | some service => service req
    | none => some notFound

end ServeDir

end Static
