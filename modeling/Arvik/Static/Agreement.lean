import Arvik.Static.Selection

/-!
# Two services for one tree

The directory service looks a path up first, and for a variant only where there is a file; the
service for embedded assets looks for the file and its variants first, and knows a directory by the
files below it. On trees where each variant stands beside its file and each directory holds a file
this comes to the same (`sameAnswer_of_servedAlike`).

Two services cannot be compared by their responses: one answers with an open file and the other with
a buffer, and each has entity tags of its own. So what is compared is an `Observation`, the status,
the headers that say where to go and how to read the body, and the bytes of the body, and the
requests are those without validators.

The argument goes from the inside out. Both services make the same observation of an asset with the
same content (`observation_eq`); both select the same variant of a file; and where neither selects
anything, both see the same directory and list the same entries. `ServedAlike` is the conjunction of
what these three steps need from the tree.
-/

namespace Static

/-! ### What is seen of a response -/

/-- The status of a response, some of its headers, and its body. -/
structure Observation where
  status : StatusCode
  location : List HeaderValue
  contentType : List HeaderValue
  contentEncoding : List HeaderValue
  contentRange : List HeaderValue
  body : Bytes
  deriving DecidableEq

/-- The bytes of a body. -/
def FileBody.content : FileBody → Bytes
  | bytes data => data
  | stream file start len _ => (file.data.content.drop start).take len

section Observe

variable {H E : Type} [Multimap H HeaderName HeaderValue]

def observe (response : Response H E FileBody) : Observation where
  status := response.status
  location := Multimap.getAll response.headers HeaderName.location
  contentType := Multimap.getAll response.headers HeaderName.contentType
  contentEncoding := Multimap.getAll response.headers HeaderName.contentEncoding
  contentRange := Multimap.getAll response.headers HeaderName.contentRange
  body := response.body.content

/-- Two services answer alike themselves, or leave a request to their fallbacks alike. -/
def Handled.SameAnswer : Handled (Response H E FileBody) → Handled (Response H E FileBody) → Prop
  | own response, own response' => observe response = observe response'
  | fallback, fallback => True
  | _, _ => False

/-- What is seen of the response for an asset, given the range asked for. -/
def Asset.observation (asset : Asset FileBody) : RangeDecision asset.len → Observation
  | .full => ⟨.ok, [], [asset.contentType], asset.contentEncoding.toList, [], asset.whole.content⟩
  | .part range => ⟨.partialContent, [], [asset.contentType], asset.contentEncoding.toList,
      (HeaderValue.fromStr (contentRange range)).toList, (asset.slice range).content⟩
  | .unsatisfiable => ⟨.rangeNotSatisfiable, [], [], [],
      (HeaderValue.fromStr ("bytes */".toList ++ Nat.toDigits 10 asset.len)).toList, []⟩

variable [Extensions E]

omit [Multimap H HeaderName HeaderValue] [Extensions E] in
/-- The text of the page listing the entries of a directory. -/
def listingPage (requestPath : Str) (entries : List Str) : Str :=
  "<!doctype html><meta charset=\"utf-8\"><title>Index of ".toList ++
    escapeHtml requestPath ++ "</title><h1>Index of ".toList ++ escapeHtml requestPath ++
    "</h1><ul>".toList ++ entries.flatMap listingItem ++ "</ul>".toList

theorem content_listingResponse (requestPath : Str) (entries : List Str) :
    (listingResponse requestPath entries : Response H E FileBody).body.content =
      Text.utf8 (listingPage requestPath entries) := by
  have hnew : (ResponseBuilder.new : ResponseBuilder H E) = .ofPairs .ok [] := rfl
  rw [listingResponse, hnew, ResponseBuilder.header_ofPairs]
  rfl

omit [Multimap H HeaderName HeaderValue] [Extensions E] in
/-- The headers of a request that make it conditional. -/
def validatorHeaders : List HeaderName :=
  [.ifNoneMatch, .ifModifiedSince, .ifRange]

/-- What is seen of a built response is listed in its builder. -/
theorem observe_body_ofPairs (code : StatusCode) (items : List (HeaderName × HeaderValue))
    (body : FileBody) :
    observe ((ResponseBuilder.ofPairs code items : ResponseBuilder H E).body body) =
      ⟨code, Multimap.valuesFor HeaderName.location items,
        Multimap.valuesFor HeaderName.contentType items,
        Multimap.valuesFor HeaderName.contentEncoding items,
        Multimap.valuesFor HeaderName.contentRange items, body.content⟩ := by
  simp only [observe, ResponseBuilder.getAll_body_ofPairs]
  rfl

/-- A visible text, if there is one, is appended as the value it is. -/
theorem headerIf_ofPairs_of_text {code : StatusCode} {items : List (HeaderName × HeaderValue)}
    (key : HeaderName) {text : Option Str}
    (h : ∀ s ∈ text, ∀ c ∈ s, 32 ≤ c.toNat ∧ c.toNat < 127) :
    (ResponseBuilder.ofPairs code items : ResponseBuilder H E).headerIf key text =
      .ofPairs code (items ++
        ((text.bind HeaderValue.fromStr).map fun v ↦ (key, v)).toList) := by
  rcases text with - | s
  · exact (congrArg (ResponseBuilder.ofPairs code) (List.append_nil items)).symm
  · obtain ⟨value, hvalue, -⟩ := HeaderValue.fromStr_visible (h s rfl)
    rw [Option.bind_some, hvalue]
    exact ResponseBuilder.header_ofPairs_of_fromStr key hvalue

omit [Multimap H HeaderName HeaderValue] [Extensions E] in
theorem valuesFor_map_toList_self (key : HeaderName) (value : Option HeaderValue) :
    Multimap.valuesFor key (value.map fun v ↦ (key, v)).toList = value.toList := by
  rcases value with - | v
  · rfl
  · rw [Option.map_some, Option.toList_some, Multimap.valuesFor_cons, if_pos rfl]
    rfl

variable [HttpDateLib]

/-- What is seen of a response carrying an asset. -/
theorem observe_respond {asset : Asset FileBody} (range : Option (ByteRange asset.len))
    (cacheControl : Option HeaderValue) (hfmt : (asset.modified.mapM HttpDateLib.fmt).isSome) :
    ∃ response : Response H E FileBody, respond asset range false cacheControl = some response ∧
      observe response = asset.observation (match range with
        | some range => .part range
        | none => .full) := by
  obtain ⟨lastModified, hlast⟩ := Option.isSome_iff_exists.1 hfmt
  have hrange : ∀ s ∈ range.map contentRange, ∀ c ∈ s, 32 ≤ c.toNat ∧ c.toNat < 127 := by
    intro s hs
    obtain ⟨r, -, rfl⟩ := Option.map_eq_some_iff.1 hs
    exact contentRange_visible r
  refine ⟨_, by rw [respond, hlast]; rfl, ?_⟩
  simp only [assetBuilder, ResponseBuilder.status_new, ResponseBuilder.header_ofPairs,
    headerIf_ofPairs_of_text HeaderName.lastModified (fmt_mapM_visible hlast),
    ResponseBuilder.headerIf_ofPairs, headerIf_ofPairs_of_text HeaderName.contentRange hrange,
    observe_body_ofPairs]
  simp (disch := decide) only [Multimap.valuesFor_append, Multimap.valuesFor_map_toList_of_ne,
    Multimap.valuesFor_cons, Multimap.valuesFor_nil, valuesFor_map_toList_self, List.nil_append,
    List.append_nil]
  rcases range with - | range
  · rfl
  · rfl

/-- **What is seen of the response** to a request without validators, where the modification time
of the asset can be formatted. -/
theorem observe_serveAsset (asset : Asset FileBody) {req : Request H E FileBody}
    (cacheControl : Option HeaderValue) (hfmt : (asset.modified.mapM HttpDateLib.fmt).isSome)
    (hplain : ∀ name ∈ validatorHeaders, Multimap.get req.headers name = none) :
    ∃ response : Response H E FileBody, serveAsset asset req false cacheControl = some response ∧
      observe response =
        asset.observation (parseRange (Multimap.get req.headers HeaderName.range) asset.len) := by
  have hmatch := hplain HeaderName.ifNoneMatch (by decide)
  have hsince := hplain HeaderName.ifModifiedSince (by decide)
  have hif := hplain HeaderName.ifRange (by decide)
  have hmod : isNotModified req asset.etag asset.modified = false := by
    simp only [isNotModified, hmatch, hsince, Option.bind_none]
    rcases asset.modified with - | t
    · rfl
    · rfl
  have hdecision : rangeDecision asset req =
      parseRange (Multimap.get req.headers HeaderName.range) asset.len := by
    rw [rangeDecision, ifRangeAllowsPartial, hif]
    rfl
  rw [serveAsset, if_neg (by rw [hmod]; exact Bool.false_ne_true), hdecision]
  rcases parseRange (Multimap.get req.headers HeaderName.range) asset.len with - | range | -
  · exact observe_respond none cacheControl hfmt
  · exact observe_respond (some range) cacheControl hfmt
  · refine ⟨_, rfl, ?_⟩
    have hbytes : "bytes */".toList.all fun c ↦ 32 ≤ c.toNat ∧ c.toNat < 127 := by decide
    have hvisible : ∀ c ∈ "bytes */".toList ++ Nat.toDigits 10 asset.len,
        32 ≤ c.toNat ∧ c.toNat < 127 := by
      intro c hc
      rcases List.mem_append.1 hc with hc | hc
      · exact of_decide_eq_true (List.all_eq_true.1 hbytes c hc)
      · exact HeaderValue.toDigits_visible c hc
    obtain ⟨value, hvalue, -⟩ := HeaderValue.fromStr_visible hvisible
    rw [rangeNotSatisfiable, ResponseBuilder.status_new,
      ResponseBuilder.header_ofPairs_of_fromStr _ hvalue, ResponseBuilder.empty,
      observe_body_ofPairs, Asset.observation, hvalue]
    rfl

end Observe

/-! ### Serving a file -/

/-- The options the services share are set alike. -/
structure SameOptions (dir : ServeDir) (service : EmbeddedFileService) : Prop where
  gzip : dir.precompressedGzip = service.precompressedGzip
  br : dir.precompressedBr = service.precompressedBr
  index : dir.appendIndexHtmlOnDirectories = service.appendIndexHtmlOnDirectories
  listing : dir.directoryListing = service.directoryListing

/-- The modification times of the files can be formatted: those in the tree, and those found in the
cache for the embedded files. -/
def AssetTree.Dated [HttpDateLib] (tree : AssetTree) (assets : RustEmbed)
    (cache : Memo Str EmbeddedMeta) (contended : Bool) : Prop :=
  ∀ (relative : RelativePath) (data : FileData), tree.fileAt relative.parts = some data →
    (data.modified.mapM HttpDateLib.fmt).isSome ∧
      ∃ file found, assets.get relative.assetPath = some file ∧
        (embeddedMeta cache ⟨relative.assetPath, file, contended⟩).1 = some found ∧
          (found.modified.mapM HttpDateLib.fmt).isSome

section Serve

variable {tree : AssetTree} {files : Files} {dir : ServeDir} {assets : RustEmbed}
  {service : EmbeddedFileService} {cache : Memo Str EmbeddedMeta} {contended : Bool}
  {relative : RelativePath} {H E : Type} [Multimap H HeaderName HeaderValue] [Extensions E]
  [HttpDateLib] {req : Request H E FileBody}

omit [Multimap H HeaderName HeaderValue] [Extensions E] [HttpDateLib] in
/-- Both assets made of a file look the same. -/
theorem observation_eq {opened : OpenFile} {file : EmbeddedFile}
    (hdata : file.data = opened.data.content) (candidate : FsCandidate) (chunkSize : ℕ)
    (found : EmbeddedMeta) (vary : Bool) (value : Option HeaderValue) :
    (fsAsset opened candidate chunkSize).observation (parseRange value _) =
      (embeddedAsset file found candidate.contentType candidate.contentEncoding vary :
        Asset FileBody).observation (parseRange value _) := by
  obtain ⟨content, sha256, lastModified⟩ := file
  obtain ⟨canonical, ⟨content', modified⟩⟩ := opened
  obtain rfl : content = content' := hdata
  show (fsAsset ⟨canonical, ⟨content, modified⟩⟩ candidate chunkSize).observation
      (parseRange value content.length) =
    (embeddedAsset ⟨content, sha256, lastModified⟩ found candidate.contentType
      candidate.contentEncoding vary : Asset FileBody).observation
      (parseRange value content.length)
  rcases parseRange value content.length with - | range | -
  · have hwhole : (content.drop 0).take content.length = content := List.take_length
    simp only [Asset.observation, fsAsset, embeddedAsset, FileBody.content, hwhole]
    rfl
  · have hslice : (content.drop range.start).take (range.stop - range.start + 1) =
        (content.take (range.stop + 1)).drop range.start := by
      have hle := range.le
      rw [List.drop_take]
      congr 1
      omega
    simp only [Asset.observation, fsAsset, embeddedAsset, FileBody.content, hslice]
    rfl
  · rfl

/-- **A file is served alike** by both services. -/
theorem sameAnswer_chosen (hlies : tree.LiesAt files dir.root) (hembeds : assets.Embeds tree)
    (hdated : tree.Dated assets cache contended)
    (hplain : ∀ name ∈ validatorHeaders, Multimap.get req.headers name = none) (here : Bool)
    {data : FileData} (hdata : tree.fileAt relative.parts = some data)
    (contentType : HeaderValue) (contentEncoding : Option HeaderValue) (vary vary' : Bool)
    (chunkSize : ℕ) (cacheControl cacheControl' : Option HeaderValue) :
    ∃ file, assets.get relative.assetPath = some file ∧
      (serveFsAsset files ⟨dir.pathTo here relative.parts, contentType, contentEncoding, vary⟩ req
        false chunkSize cacheControl).SameAnswer
      (serveCandidate cache contended
        ⟨relative.assetPath, file, contentType, contentEncoding, vary'⟩ req false
        cacheControl').1 := by
  obtain ⟨location, hopen⟩ := openFile_pathTo hlies
  obtain ⟨hmodified, file, found, hfile, hfound, hkept⟩ := hdated relative data hdata
  refine ⟨file, hfile, ?_⟩
  have hcontent : file.data = data.content := by
    have hget := hembeds.get relative
    rw [hfile, hdata] at hget
    exact Option.some.inj hget
  -- What the directory service answers.
  obtain ⟨response, hresponse, hobserve⟩ := observe_serveAsset
    (fsAsset ⟨location ++ relative.parts.map Text.utf8, data⟩
      ⟨dir.pathTo here relative.parts, contentType, contentEncoding, vary⟩ chunkSize)
    cacheControl hmodified hplain
  have hfs : serveFsAsset files ⟨dir.pathTo here relative.parts, contentType, contentEncoding, vary⟩
      req false chunkSize cacheControl = .own response := by
    rw [serveFsAsset, hopen, hdata]
    exact congrArg Handled.ofOption hresponse
  -- What the service for embedded assets answers.
  obtain ⟨response', hresponse', hobserve'⟩ := observe_serveAsset
    (embeddedAsset file found contentType contentEncoding vary') cacheControl' hkept hplain
  have hembedded : (serveCandidate cache contended
      ⟨relative.assetPath, file, contentType, contentEncoding, vary'⟩ req false cacheControl').1 =
        .own response' := by
    rw [serveCandidate]
    generalize embeddedMeta cache ⟨relative.assetPath, file, contended⟩ = answer at hfound ⊢
    obtain ⟨answer, after⟩ := answer
    obtain rfl : answer = some found := hfound
    exact congrArg Handled.ofOption hresponse'
  rw [hfs, hembedded]
  exact hobserve.trans ((observation_eq hcontent _ _ _ _ _).trans hobserve'.symm)

variable [QualityLib] [MimeGuessLib]

/-- A path to a file is served alike, whichever variant is chosen. -/
theorem sameAnswer_selected (hlies : tree.LiesAt files dir.root) (hembeds : assets.Embeds tree)
    (hoptions : SameOptions dir service) (hdated : tree.Dated assets cache contended)
    (hplain : ∀ name ∈ validatorHeaders, Multimap.get req.headers name = none) (here : Bool)
    {data : FileData} (hdata : tree.fileAt relative.parts = some data) :
    ∃ candidate, service.selectFile assets relative.assetPath req = some candidate ∧
      (dir.serveSelected files req (dir.pathTo here relative.parts) (.file data)
        relative.assetPath false).SameAnswer
      (serveCandidate cache contended candidate req false service.cacheControl).1 := by
  obtain ⟨chosen, hchosen⟩ := Option.isSome_iff_exists.1 (isSome_fileAt_choose
    (acceptedPrecompressed req dir.precompressedBr dir.precompressedGzip)
    (Option.isSome_of_eq_some hdata))
  obtain ⟨file, hfile, hsame⟩ := sameAnswer_chosen hlies hembeds hdated hplain here hchosen
    (contentType relative.assetPath) (tree.choose
      (acceptedPrecompressed req dir.precompressedBr dir.precompressedGzip) relative).2
    (dir.precompressedGzip || dir.precompressedBr) (dir.precompressedGzip || dir.precompressedBr)
    dir.chunkSize dir.cacheControl service.cacheControl
  rw [ServeDir.serveSelected, ServeDir.selectFile_eq hlies here hdata,
    EmbeddedFileService.selectFile_eq hembeds, ← hoptions.br, ← hoptions.gzip, hfile]
  exact ⟨_, rfl, hsame⟩

omit [Extensions E] [HttpDateLib] in
/-- Where each variant stands beside its file, nothing is selected for a path without one. -/
theorem selectFile_eq_none (hembeds : assets.Embeds tree) (hoptions : SameOptions dir service)
    (hvariants : ∀ suffix ∈ dir.suffixes, (tree.fileAt (withSuffix suffix relative.parts)).isSome →
      (tree.fileAt relative.parts).isSome)
    (hnone : tree.fileAt relative.parts = none) :
    service.selectFile assets relative.assetPath req = none := by
  rw [EmbeddedFileService.selectFile_eq hembeds, Option.map_eq_none_iff, ← hoptions.br,
    ← hoptions.gzip, ← Option.not_isSome_iff_eq_none, isSome_get hembeds]
  have hnot : ¬ (tree.fileAt relative.parts).isSome := by
    rw [hnone]
    exact Bool.false_ne_true
  obtain ⟨hbr, hgzip⟩ := acceptedPrecompressed_le req dir.precompressedBr dir.precompressedGzip
  obtain hself | ⟨suffix, hsuffix, hacceptsBr, hacceptsGz, -, hfile⟩ := choose_cases tree
    (acceptedPrecompressed req dir.precompressedBr dir.precompressedGzip) relative
  · rwa [hself]
  · refine absurd (hvariants suffix ?_ hfile) hnot
    rw [ServeDir.suffixes]
    rcases List.mem_pair.1 hsuffix with rfl | rfl
    · rw [if_pos (hbr (hacceptsBr rfl))]
      exact List.mem_append_left _ (List.mem_singleton_self _)
    · rw [if_pos (hgzip (hacceptsGz rfl))]
      exact List.mem_append_right _ (List.mem_singleton_self _)

variable [Extensions.Slot E OriginalUri]

/-! ### What the services do with a path -/

/-- The directory service goes by what is at the path. -/
theorem ServeDir.handle_eq (hlies : tree.LiesAt files dir.root) (hmethod : req.method = .get)
    (hpath : relativePath req.uri.path = some relative) :
    dir.handle files req = match tree.get relative.parts with
      | none => .fallback
      | some existing =>
        if existing.isDir then dir.handleDirectory files req relative (dir.candidate relative)
        else dir.serveSelected files req (dir.candidate relative) existing relative.assetPath
          false := by
  obtain ⟨location, -, hfind⟩ := find_pathTo hlies
  have hcandidate := candidate_eq hlies relative
  have hget : files.find (dir.root.join (pathOfText relative.assetPath)) =
      (tree.get relative.parts).map fun found ↦
        (location ++ relative.parts.map Text.utf8, found) := by
    rw [← (hfind relative.parts.isEmpty relative.parts).2, ← hcandidate]
    rfl
  rw [ServeDir.handle, hmethod, if_neg (by decide), hpath]
  simp only [hget]
  rcases hfound : tree.get relative.parts with - | existing
  · split
    · rfl
    · rfl
  · rw [check_of_admits (admits_of_get hlies hfound), if_neg Bool.false_ne_true]
    rfl

/-- The service for embedded assets goes by what is selected for the path. -/
theorem EmbeddedFileService.handle_eq (hmethod : req.method = .get)
    (hpath : relativePath req.uri.path = some relative) :
    service.handle assets cache contended req =
      match service.selectFile assets relative.assetPath req with
      | some candidate => serveCandidate cache contended candidate req false service.cacheControl
      | none =>
        if embeddedDirExists assets relative.assetPath then
          service.handleDirectory assets cache contended req relative
        else (.fallback, cache) := by
  rw [EmbeddedFileService.handle, hmethod, if_neg (by decide), hpath]
  rfl

/-- The directory service lists the entries of the directory. -/
theorem ServeDir.handleDirectory_eq (hlies : tree.LiesAt files dir.root)
    {entries : List (Bytes × FileTree Bytes FileData)}
    (hdir : tree.get relative.parts = some (.dir entries)) :
    dir.handleDirectory files req relative (dir.candidate relative) =
      if req.uri.path.getLast? ≠ some '/' ∧
          (dir.appendIndexHtmlOnDirectories || dir.directoryListing) then
        .own (redirectToSlash req)
      else match if dir.appendIndexHtmlOnDirectories then tree.fileAt relative.index.parts
          else none with
        | some data => dir.serveSelected files req
            (dir.pathTo relative.parts.isEmpty relative.index.parts) (.file data)
            relative.index.assetPath false
        | none =>
          if dir.directoryListing then
            .own (listingResponse req.uri.path ((entries.map entryLabel).mergeSort
              fun s t ↦ !(t.lex s fun c d ↦ c.toNat < d.toNat)))
          else .fallback := by
  obtain ⟨location, -, hfind⟩ := find_pathTo hlies
  have hindex : (dir.candidate relative).join (pathOfText indexFile) =
    dir.pathTo relative.parts.isEmpty relative.index.parts := indexPath_eq hlies relative
  have hlisting : directoryListingResponse files (dir.candidate relative) req.uri.path =
      (listingResponse req.uri.path ((entries.map entryLabel).mergeSort
        fun s t ↦ !(t.lex s fun c d ↦ c.toNat < d.toNat)) : Response H E FileBody) := by
    rw [directoryListingResponse, candidate_eq hlies, (hfind _ _).2, hdir]
    rfl
  rw [ServeDir.handleDirectory, joinAssetPath_indexFile, hlisting]
  -- What the file system has at the index path is what the tree has there.
  simp only [hindex, (hfind _ _).2]
  split
  · rfl
  · rcases dir.appendIndexHtmlOnDirectories with - | -
    · rfl
    · have hroot : tree.root.get (relative.index.parts.map Text.utf8) =
        tree.get relative.index.parts := rfl
      rw [if_pos rfl, if_pos rfl, AssetTree.fileAt, FileTree.fileAt, hroot]
      rcases tree.get relative.index.parts with - | data | target | entries'
      · rfl
      · rfl
      · rfl
      · rfl

/-! ### When the services agree -/

omit [Multimap H HeaderName HeaderValue] [Extensions E] [QualityLib] [MimeGuessLib]
  [Extensions.Slot E OriginalUri] in
/-- A tree the services treat alike, at the options they have: what one of them finds by its path,
the other finds by the names of the files. -/
structure ServedAlike (tree : AssetTree) (dir : ServeDir) (assets : RustEmbed)
    (cache : Memo Str EmbeddedMeta) (contended : Bool) : Prop where
  /-- Each variant stands beside its file. -/
  variants : ∀ relative : RelativePath, ∀ suffix ∈ dir.suffixes,
    (tree.fileAt (withSuffix suffix relative.parts)).isSome → (tree.fileAt relative.parts).isSome
  /-- Each directory that a request can name holds a file, if directories are answered at all. -/
  reached : dir.appendIndexHtmlOnDirectories || dir.directoryListing →
    ∀ (relative : RelativePath) entries, tree.get relative.parts = some (.dir entries) →
      (FileTree.dir entries).HoldsFile
  /-- So does each entry of a directory that is listed. -/
  listed : dir.directoryListing →
    ∀ (relative : RelativePath) entries, tree.get relative.parts = some (.dir entries) →
      (dir.appendIndexHtmlOnDirectories → tree.fileAt relative.index.parts = none) →
        ∀ entry ∈ entries, entry.2.HoldsFile
  dated : tree.Dated assets cache contended

/-- A directory is answered alike. -/
theorem sameAnswer_handleDirectory (hlies : tree.LiesAt files dir.root)
    (hembeds : assets.Embeds tree) (hoptions : SameOptions dir service)
    (halike : ServedAlike tree dir assets cache contended)
    (hplain : ∀ name ∈ validatorHeaders, Multimap.get req.headers name = none)
    {entries : List (Bytes × FileTree Bytes FileData)}
    (hdir : tree.get relative.parts = some (.dir entries)) :
    (dir.handleDirectory files req relative (dir.candidate relative)).SameAnswer
      (service.handleDirectory assets cache contended req relative).1 := by
  rw [ServeDir.handleDirectory_eq hlies hdir, EmbeddedFileService.handleDirectory,
    joinAssetPath_indexFile, ← hoptions.index, ← hoptions.listing]
  split
  · exact rfl
  · rcases hindex : (if dir.appendIndexHtmlOnDirectories then tree.fileAt relative.index.parts
        else none) with - | data
    · -- Without an index page both look whether they list.
      have hselect : (if dir.appendIndexHtmlOnDirectories then
          service.selectFile assets relative.index.assetPath req else none) = none := by
        rcases happend : dir.appendIndexHtmlOnDirectories with - | -
        · rfl
        · rw [happend, if_pos rfl] at hindex
          exact selectFile_eq_none hembeds hoptions (halike.variants relative.index) hindex
      rw [hselect]
      rcases hlisting : dir.directoryListing with - | -
      · exact trivial
      · have hentries : sortedSet (assets.iter.filterMap (embeddedEntry relative.assetPath)) =
            (entries.map entryLabel).mergeSort
              fun s t ↦ !(t.lex s fun c d ↦ c.toNat < d.toNat) := by
          have hplain := (AssetTree.names_of_get hdir).2
          -- Every entry holds a file, so the embedded paths give the labels of all entries.
          refine sortedSet_eq (nodup_map_entryLabel hplain) fun label ↦ ?_
          rw [mem_filterMap_embeddedEntry hembeds hdir, List.mem_map]
          constructor
          · rintro ⟨entry, hentry, -, rfl⟩
            exact ⟨entry, hentry, rfl⟩
          · rintro ⟨entry, hentry, rfl⟩
            refine ⟨entry, hentry, ?_, rfl⟩
            refine halike.listed hlisting relative entries hdir ?_ entry hentry
            intro happend
            rwa [happend, if_pos rfl] at hindex
        rw [if_pos rfl, if_pos rfl, embeddedDirectoryListing, hentries]
        exact rfl
    · obtain ⟨happend, hdata⟩ := Option.ite_none_right_eq_some.1 hindex
      obtain ⟨candidate, hcandidate, hsame⟩ := sameAnswer_selected hlies hembeds hoptions
        halike.dated hplain relative.parts.isEmpty hdata
      rw [happend, if_pos rfl, hcandidate]
      exact hsame

/-- **The services agree** on a tree they treat alike. A path is that of a file, of a directory or
of nothing, and in each case both services take the same branch. -/
theorem sameAnswer_of_servedAlike (hlies : tree.LiesAt files dir.root)
    (hembeds : assets.Embeds tree) (hoptions : SameOptions dir service)
    (halike : ServedAlike tree dir assets cache contended) (hmethod : req.method = .get)
    (hplain : ∀ name ∈ validatorHeaders, Multimap.get req.headers name = none) :
    (dir.handle files req).SameAnswer (service.handle assets cache contended req).1 := by
  rcases hpath : relativePath req.uri.path with - | relative
  · have hfs : dir.handle files req = .fallback := by
      rw [ServeDir.handle, hmethod, if_neg (by decide), hpath]
    have hembedded : service.handle assets cache contended req = (.fallback, cache) := by
      rw [EmbeddedFileService.handle, hmethod, if_neg (by decide), hpath]
    rw [hfs, hembedded]
    exact trivial
  · rw [ServeDir.handle_eq hlies hmethod hpath, EmbeddedFileService.handle_eq hmethod hpath]
    rcases hget : tree.get relative.parts with - | data | target | entries
    · have hnone := AssetTree.fileAt_eq_none hget
      have hexists : ¬ embeddedDirExists assets relative.assetPath := by
        rw [embeddedDirExists_iff hembeds, hget]
        rintro ⟨entries, hentries, -⟩
        cases hentries
      rw [selectFile_eq_none hembeds hoptions (halike.variants relative) hnone]
      simp only [if_neg hexists]
      exact trivial
    · -- A file is found by both services, under the same variant.
      obtain ⟨candidate, hcandidate, hsame⟩ := sameAnswer_selected hlies hembeds hoptions
        halike.dated hplain relative.parts.isEmpty (AssetTree.fileAt_eq_some_iff.2 hget)
      rw [hcandidate, candidate_eq hlies]
      exact hsame
    · -- The tree has no links.
      cases (AssetTree.names_of_get hget).2
    · have hnone := AssetTree.fileAt_eq_none_of_dir hget
      rw [selectFile_eq_none hembeds hoptions (halike.variants relative) hnone]
      show (dir.handleDirectory files req relative (dir.candidate relative)).SameAnswer
        (if embeddedDirExists assets relative.assetPath then
          service.handleDirectory assets cache contended req relative else (.fallback, cache)).1
      by_cases hexists : embeddedDirExists assets relative.assetPath
      · rw [if_pos hexists]
        exact sameAnswer_handleDirectory hlies hembeds hoptions halike hplain hget
      · -- There is no file below, so directories are not answered.
        have hneither : (dir.appendIndexHtmlOnDirectories || dir.directoryListing) = false := by
          rw [← Bool.not_eq_true]
          exact fun h ↦ hexists ((embeddedDirExists_iff hembeds relative).2
            ⟨entries, hget, halike.reached h relative entries hget⟩)
        obtain ⟨happend, hlisting⟩ := Bool.or_eq_false_iff.1 hneither
        rw [if_neg hexists, ServeDir.handleDirectory_eq hlies hget, happend, hlisting,
          if_neg fun h ↦ Bool.false_ne_true h.2]
        exact trivial

end Serve

end Static
