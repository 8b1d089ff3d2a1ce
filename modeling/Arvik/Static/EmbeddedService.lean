import Arvik.Static.Embedded
import Arvik.Static.RelativePath
import Arvik.Static.Responses
import Arvik.Static.ServeDir

/-!
# Serving embedded assets

The service for a set of assets embedded in the program. There are no directories in such a set: a
directory is there when a file below it is, and its listing is made up from the paths that lead
below it. A request that selects a file, or a precompressed variant of it, is answered from that;
only otherwise is its path looked for among the directories.

That order is the difference to the directory service that `Divergence` finds: the variant of a file
answers for a path at which there is no file. Only the metadata of what is served goes through the
cache, and a lock that is contended makes the service compute them again; both are inputs of a call
here, so that the results can be stated for any state of the cache.
-/

namespace Static

/-- A set of embedded assets: the paths of its files, and the file at a path. -/
structure RustEmbed where
  iter : List Str
  get : Str → Option EmbeddedFile

/-- A file selected for serving, with the path it is kept under. -/
structure EmbeddedCandidate where
  assetPath : Str
  file : EmbeddedFile
  contentType : HeaderValue
  contentEncoding : Option HeaderValue
  varyAcceptEncoding : Bool

/-- A service for embedded assets. -/
structure EmbeddedFileService where
  precompressedGzip : Bool := false
  precompressedBr : Bool := false
  callFallbackOnMethodNotAllowed : Bool := false
  appendIndexHtmlOnDirectories : Bool := true
  directoryListing : Bool := false
  cacheControl : Option HeaderValue := none

/-- What the paths below a directory start with. -/
def dirPrefix (assetPath : Str) : Str :=
  if assetPath = [] then []
  else (assetPath.reverse.dropWhile fun c ↦ c = '/').reverse ++ ['/']

/-- A file lies below the directory. -/
def embeddedDirExists (assets : RustEmbed) (assetPath : Str) : Bool :=
  assets.iter.any fun path ↦
    (dirPrefix assetPath).isPrefixOf path && (dirPrefix assetPath).length < path.length

/-- The entry of a directory that a path leads through, if it leads below the directory. -/
def embeddedEntry (assetPath path : Str) : Option Str :=
  if !(dirPrefix assetPath).isPrefixOf path || path.length = (dirPrefix assetPath).length then none
  else
    let rest := path.drop (dirPrefix assetPath).length
    some ((rest.splitOn '/').headD [] ++ if '/' ∈ rest then ['/'] else [])

/-- The members of a set of texts, in order. -/
def sortedSet (entries : List Str) : List Str :=
  entries.dedup.mergeSort fun s t ↦ !(t.lex s fun c d ↦ c.toNat < d.toNat)

section EmbeddedService

variable {H E B : Type} [Multimap H HeaderName HeaderValue] [Extensions E] [FromBytes B]

/-- The listing of a directory, made up from the paths below it. -/
def embeddedDirectoryListing (assets : RustEmbed) (assetPath requestPath : Str) :
    Response H E B :=
  listingResponse requestPath (sortedSet (assets.iter.filterMap (embeddedEntry assetPath)))

variable [HttpDateLib]

/-- The response to a request for a selected file, whose metadata is looked up in the cache. -/
def serveCandidate (cache : Memo Str EmbeddedMeta) (contended : Bool)
    (candidate : EmbeddedCandidate) (req : Request H E B) (head : Bool)
    (cacheControl : Option HeaderValue) : Handled (Response H E B) × Memo Str EmbeddedMeta :=
  match embeddedMeta cache ⟨candidate.assetPath, candidate.file, contended⟩ with
  | (some found, cache) =>
    (.ofOption (serveEmbeddedAsset candidate.file found candidate.contentType
      candidate.contentEncoding candidate.varyAcceptEncoding req head cacheControl), cache)
  | (none, cache) => (.panicked, cache)

namespace EmbeddedFileService

variable [QualityLib] [MimeGuessLib]

omit [Extensions E] [FromBytes B] [HttpDateLib] in
/-- The file to serve for a path: a precompressed variant if there is one, else the file itself. -/
def selectFile (assets : RustEmbed) (self : EmbeddedFileService) (assetPath : Str)
    (req : Request H E B) : Option EmbeddedCandidate :=
  let accepts := acceptedPrecompressed req self.precompressedBr self.precompressedGzip
  let candidate (path : Str) (contentEncoding : Option HeaderValue) (file : EmbeddedFile) :
      EmbeddedCandidate :=
    { assetPath := path, file, contentEncoding, contentType := contentType assetPath,
      varyAcceptEncoding := self.precompressedGzip || self.precompressedBr }
  match if accepts.1 then assets.get (assetPath ++ ".br".toList) else none with
  | some file => some (candidate (assetPath ++ ".br".toList) (some .br) file)
  | none =>
    match if accepts.2 then assets.get (assetPath ++ ".gz".toList) else none with
    | some file => some (candidate (assetPath ++ ".gz".toList) (some .gzip) file)
    | none => (assets.get assetPath).map (candidate assetPath none)

variable [Extensions.Slot E OriginalUri]

/-- A request for a directory. -/
def handleDirectory (assets : RustEmbed) (self : EmbeddedFileService)
    (cache : Memo Str EmbeddedMeta) (contended : Bool) (req : Request H E B)
    (relative : RelativePath) : Handled (Response H E B) × Memo Str EmbeddedMeta :=
  if req.uri.path.getLast? ≠ some '/' ∧
      (self.appendIndexHtmlOnDirectories || self.directoryListing) then
    (.own (redirectToSlash req), cache)
  else
    match if self.appendIndexHtmlOnDirectories then
        self.selectFile assets (joinAssetPath relative.assetPath indexFile) req
      else none with
    -- the index page is served as to a `GET` request
    | some candidate => serveCandidate cache contended candidate req false self.cacheControl
    | none =>
      if self.directoryListing then
        (.own (embeddedDirectoryListing assets relative.assetPath req.uri.path), cache)
      else (.fallback, cache)

/-- A request to the service, and the cache after it. -/
def handle (assets : RustEmbed) (self : EmbeddedFileService) (cache : Memo Str EmbeddedMeta)
    (contended : Bool) (req : Request H E B) :
    Handled (Response H E B) × Memo Str EmbeddedMeta :=
  if !isGetOrHead req.method then
    (if self.callFallbackOnMethodNotAllowed then .fallback else .own methodNotAllowed, cache)
  else
    match relativePath req.uri.path with
    | none => (.fallback, cache)
    | some relative =>
      -- a file comes before a directory of the same path
      match self.selectFile assets relative.assetPath req with
      | some candidate =>
        serveCandidate cache contended candidate req (req.method = .head) self.cacheControl
      | none =>
        if embeddedDirExists assets relative.assetPath then
          self.handleDirectory assets cache contended req relative
        else (.fallback, cache)

/-- The service with its fallback; without one, a request for it is answered with a 404. -/
def call (assets : RustEmbed) (self : EmbeddedFileService)
    (notFoundService : Option (Request H E B → Option (Response H E B)))
    (cache : Memo Str EmbeddedMeta) (contended : Bool) (req : Request H E B) :
    Option (Response H E B) × Memo Str EmbeddedMeta :=
  match self.handle assets cache contended req with
  | (.own response, cache) => (some response, cache)
  | (.panicked, cache) => (none, cache)
  | (.fallback, cache) =>
    (match notFoundService with
      | some service => service req
      | none => some notFound, cache)

end EmbeddedFileService

end EmbeddedService

end Static
