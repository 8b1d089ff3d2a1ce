import Arvik.Static.Agreement
import Mathlib.Data.List.Flatten

/-!
# Where the two services differ

On every tree that the two services do not treat alike there is a request that they answer
differently: one that accepts the coding of a variant without its file, one for a directory without
files, or one for the listing of a directory with such an entry. So `ServedAlike` says exactly when
they agree (`agreeOn_iff`).

`Agreement` has one direction, and here is the other: each way in which a tree may fail the
condition gives a request of its own (`AgreeOn.variants`, `AgreeOn.reached`, `AgreeOn.listed`,
`AgreeOn.dated`). For the listings this takes more than a pair of pages that look different, since a
page is one text: that a label was left out must show in the text, and does, because a page with
fewer labels is shorter (`length_flatMap_listingItem_lt`).

The two trees at the end are a page with its compressed form, on which the services agree, and a
compressed form alone, on which they do not.
-/

namespace Static

/-! ### Listings -/

/-- Fewer labels make a shorter listing. -/
theorem length_flatMap_listingItem_lt {members labels : List Str} (hnodup : members.Nodup)
    (hsub : members ⊆ labels) {label : Str} (hlabel : label ∈ labels) (hnot : label ∉ members) :
    (members.flatMap listingItem).length < (labels.flatMap listingItem).length := by
  obtain ⟨found, hperm, hsublist⟩ := List.subperm_of_subset (List.nodup_cons.2 ⟨hnot, hnodup⟩)
    (List.cons_subset.2 ⟨hlabel, hsub⟩)
  have hle := (hsublist.flatMap listingItem).length_le
  rw [(hperm.flatMap_right listingItem).length_eq, List.flatMap_cons, List.length_append] at hle
  have hpos : 0 < (listingItem label).length := Nat.succ_pos _
  omega

/-- What a listing shows of its labels. -/
theorem listingPage_eq (requestPath : Str) :
    ∃ before behind : Str, ∀ labels,
      listingPage requestPath labels = before ++ labels.flatMap listingItem ++ behind :=
  ⟨"<!doctype html><meta charset=\"utf-8\"><title>Index of ".toList ++
    escapeHtml requestPath ++ "</title><h1>Index of ".toList ++ escapeHtml requestPath ++
    "</h1><ul>".toList, "</ul>".toList, fun _ ↦ rfl⟩

/-- No label can be left out of a listing unnoticed. -/
theorem subset_of_content_listingResponse_eq {H E : Type} [Multimap H HeaderName HeaderValue]
    [Extensions E] {requestPath : Str} {members labels : List Str} (hnodup : members.Nodup)
    (hsub : members ⊆ labels)
    (h : (listingResponse requestPath labels : Response H E FileBody).body.content =
      (listingResponse requestPath members : Response H E FileBody).body.content) :
    labels ⊆ members := by
  intro label hlabel
  by_contra hnot
  obtain ⟨before, behind, hpage⟩ := listingPage_eq requestPath
  rw [content_listingResponse, content_listingResponse, hpage, hpage] at h
  have hitems := List.append_cancel_left (List.append_cancel_right (Text.utf8_injective h))
  have hlt := length_flatMap_listingItem_lt hnodup hsub hlabel hnot
  rw [hitems] at hlt
  exact absurd hlt (Nat.lt_irrefl _)

/-! ### Requests that tell the services apart -/

section Differ

variable {tree : AssetTree} {files : Files} {dir : ServeDir} {assets : RustEmbed}
  {service : EmbeddedFileService} {cache : Memo Str EmbeddedMeta} {contended : Bool}
  {relative : RelativePath} {H E : Type} [Multimap H HeaderName HeaderValue] [Extensions E]
  [HttpDateLib] {req : Request H E FileBody} [QualityLib] [MimeGuessLib]
  [Extensions.Slot E OriginalUri]

omit [HttpDateLib] [QualityLib] [MimeGuessLib] [Extensions E] [Extensions.Slot E OriginalUri] in
theorem sameAnswer_cases {x y : Handled (Response H E FileBody)} (h : x.SameAnswer y) :
    (∃ response response', x = .own response ∧ y = .own response' ∧
      observe response = observe response') ∨ x = .fallback ∧ y = .fallback := by
  rcases x with response | - | -
  · rcases y with response' | - | -
    · exact .inl ⟨response, response', rfl, rfl, h⟩
    · exact h.elim
    · exact h.elim
  · exact h.elim
  · rcases y with response' | - | -
    · exact h.elim
    · exact h.elim
    · exact .inr ⟨rfl, rfl⟩

omit [QualityLib] [MimeGuessLib] [Extensions.Slot E OriginalUri] in
/-- A whole asset is answered with status 200, if its modification time can be formatted. -/
theorem serveAsset_fileRequest {asset : Asset FileBody} {path : Str} {coding : Option HeaderValue}
    {cacheControl : Option HeaderValue} {response : Response H E FileBody}
    (h : serveAsset asset (fileRequest path coding) false cacheControl = some response) :
    (asset.modified.mapM HttpDateLib.fmt).isSome ∧ response.status = .ok := by
  rw [serveAsset_of_unconditional (get_fileRequest_eq_none path coding)] at h
  exact ⟨isSome_respond_iff.1 (Option.isSome_of_eq_some h), (respond_eq_some h).1⟩

omit [QualityLib] [MimeGuessLib] [Extensions.Slot E OriginalUri] in
/-- What is answered for a selected file. -/
theorem serveCandidate_fileRequest {candidate : EmbeddedCandidate} {path : Str}
    {coding : Option HeaderValue} {cacheControl : Option HeaderValue}
    {response : Response H E FileBody}
    (h : (serveCandidate cache contended candidate (fileRequest path coding) false
      cacheControl).1 = .own response) :
    response.status = .ok ∧ ∃ found,
      (embeddedMeta cache ⟨candidate.assetPath, candidate.file, contended⟩).1 = some found ∧
        (found.modified.mapM HttpDateLib.fmt).isSome := by
  rw [serveCandidate] at h
  generalize embeddedMeta cache ⟨candidate.assetPath, candidate.file, contended⟩ = answer at h ⊢
  obtain ⟨- | found, after⟩ := answer
  · cases h
  · obtain ⟨hfmt, hstatus⟩ := serveAsset_fileRequest (Handled.ofOption_eq_own h)
    exact ⟨hstatus, found, rfl, hfmt⟩

omit [QualityLib] [MimeGuessLib] [Extensions.Slot E OriginalUri] in
/-- A selected file is never left to the fallback. -/
theorem serveCandidate_ne_fallback (candidate : EmbeddedCandidate) (head : Bool)
    (cacheControl : Option HeaderValue) :
    (serveCandidate cache contended candidate req head cacheControl).1 ≠ .fallback := by
  rw [serveCandidate]
  generalize embeddedMeta cache ⟨candidate.assetPath, candidate.file, contended⟩ = answer
  obtain ⟨- | found, after⟩ := answer
  · intro h
    cases h
  · show Handled.ofOption _ ≠ _
    generalize serveEmbeddedAsset candidate.file found candidate.contentType
      candidate.contentEncoding candidate.varyAcceptEncoding req head cacheControl = response
    rcases response with - | response
    · intro h
      cases h
    · intro h
      cases h

omit [HttpDateLib] [QualityLib] [MimeGuessLib] in
/-- A redirect is not a plain success. -/
theorem status_redirectToSlash_ne_ok (req : Request H E FileBody) :
    (redirectToSlash req : Response H E FileBody).status ≠ .ok := by
  rw [redirectToSlash, ResponseBuilder.status_new]
  rcases hvalue : HeaderValue.fromStr (slashLocation
    (((Extensions.Slot.get req.extensions).map OriginalUri.uri).getD req.uri)) with - | value
  · have hfailed : ((ResponseBuilder.ofPairs .temporaryRedirect [] : ResponseBuilder H E).header
        HeaderName.location (slashLocation
          (((Extensions.Slot.get req.extensions).map OriginalUri.uri).getD req.uri))).inner =
        none := by
      show Option.map _ (HeaderValue.fromStr _) = none
      rw [hvalue]
      rfl
    rw [ResponseBuilder.empty, ResponseBuilder.body, hfailed]
    exact (by decide : StatusCode.internalServerError ≠ .ok)
  · rw [ResponseBuilder.header_ofPairs_of_fromStr _ hvalue]
    exact (by decide : StatusCode.temporaryRedirect ≠ .ok)

variable (H E) in
/-- The services answer all requests without validators for a resource alike. Validators are left
out because each service has its own. -/
def AgreeOn (files : Files) (dir : ServeDir) (assets : RustEmbed) (service : EmbeddedFileService)
    (cache : Memo Str EmbeddedMeta) (contended : Bool) : Prop :=
  ∀ req : Request H E FileBody, req.method = .get →
    (∀ name ∈ validatorHeaders, Multimap.get req.headers name = none) →
      (dir.handle files req).SameAnswer (service.handle assets cache contended req).1

theorem AgreeOn.fileRequest (h : AgreeOn H E files dir assets service cache contended)
    (path : Str) (coding : Option HeaderValue) :
    (dir.handle files (Static.fileRequest path coding : Request H E FileBody)).SameAnswer
      (service.handle assets cache contended (Static.fileRequest path coding)).1 :=
  h _ rfl fun name hname ↦ get_fileRequest_eq_none path coding name
    ((by decide : ∀ name ∈ validatorHeaders, name ∈ conditionalHeaders) name hname)

omit [HttpDateLib] [Extensions.Slot E OriginalUri] in
/-- Where no coding is accepted, the file at the path is selected. -/
theorem selectFile_fileRequest_none (hembeds : assets.Embeds tree) (relative : RelativePath)
    (path : Str) :
    service.selectFile assets relative.assetPath
        (Static.fileRequest path none : Request H E FileBody) =
      (assets.get relative.assetPath).map fun file ↦
        { assetPath := relative.assetPath
          file
          contentType := contentType relative.assetPath
          contentEncoding := none
          varyAcceptEncoding := service.precompressedGzip || service.precompressedBr } := by
  rw [EmbeddedFileService.selectFile_eq hembeds,
    (acceptedPrecompressed_fileRequest path _ _).1, choose_false]

/-- The services agree on files only if these can be dated. -/
theorem AgreeOn.dated (h : AgreeOn H E files dir assets service cache contended)
    (hlies : tree.LiesAt files dir.root) (hembeds : assets.Embeds tree) :
    tree.Dated assets cache contended := by
  intro relative data hdata
  have hget := AssetTree.fileAt_eq_some_iff.1 hdata
  have hpath : relativePath (Static.fileRequest (relative.requestPath false) none :
      Request H E FileBody).uri.path = some relative := relativePath_requestPath relative false
  have hsome : (assets.get relative.assetPath).isSome := by
    rw [isSome_get hembeds, hdata]
    rfl
  obtain ⟨file, hfile⟩ := Option.isSome_iff_exists.1 hsome
  have hsame := h.fileRequest (relative.requestPath false) none
  rw [ServeDir.handle_eq hlies rfl hpath, EmbeddedFileService.handle_eq rfl hpath, hget,
    selectFile_fileRequest_none hembeds, hfile] at hsame
  simp only [FileTree.isDir, Bool.false_eq_true, if_false, Option.map_some] at hsame
  obtain ⟨location, hopen⟩ := openFile_pathTo hlies
  rw [candidate_eq hlies, ServeDir.serveSelected, (acceptedPrecompressed_fileRequest _ _ _).1,
    ServeDir.selectFile_eq hlies _ hdata, choose_false] at hsame
  simp only [serveFsAsset, hopen, hdata, Option.map_some] at hsame
  obtain ⟨response, response', hfs, hembedded, -⟩ | ⟨-, hembedded⟩ := sameAnswer_cases hsame
  · obtain ⟨-, found, hfound, hkept⟩ := serveCandidate_fileRequest hembedded
    exact ⟨(serveAsset_fileRequest (Handled.ofOption_eq_own hfs)).1, file, found, hfile, hfound,
      hkept⟩
  · exact absurd hembedded (serveCandidate_ne_fallback _ _ _)

/-- The services agree on directories only if these hold a file. -/
theorem AgreeOn.reached (h : AgreeOn H E files dir assets service cache contended)
    (hlies : tree.LiesAt files dir.root) (hembeds : assets.Embeds tree)
    (hanswered : dir.appendIndexHtmlOnDirectories || dir.directoryListing)
    {entries : List (Bytes × FileTree Bytes FileData)}
    (hget : tree.get relative.parts = some (.dir entries)) :
    (FileTree.dir entries).HoldsFile := by
  by_contra hempty
  obtain ⟨path, hrelative, hslash⟩ := exists_path_without_slash relative
  have hpath : relativePath (Static.fileRequest path none : Request H E FileBody).uri.path =
      some relative := hrelative
  have hnone : assets.get relative.assetPath = none :=
    get_eq_none hembeds (AssetTree.fileAt_eq_none_of_dir hget)
  have hexists : ¬ embeddedDirExists assets relative.assetPath := by
    rw [embeddedDirExists_iff hembeds, hget]
    rintro ⟨entries', hentries, hholds⟩
    obtain rfl := FileTree.dir.inj (Option.some.inj hentries)
    exact hempty hholds
  have hsame := h.fileRequest path none
  rw [ServeDir.handle_eq hlies rfl hpath, EmbeddedFileService.handle_eq rfl hpath, hget,
    selectFile_fileRequest_none hembeds, hnone] at hsame
  simp only [FileTree.isDir, if_true, Option.map_none, if_neg hexists] at hsame
  rw [ServeDir.handleDirectory_eq hlies hget, if_pos ⟨hslash, hanswered⟩] at hsame
  exact hsame

omit [HttpDateLib] [Extensions.Slot E OriginalUri] in
/-- A variant in the tree is selected for some request for its path. -/
theorem exists_selectFile_of_variant (hembeds : assets.Embeds tree)
    (hoptions : SameOptions dir service) {suffix : Str} (hsuffix : suffix ∈ dir.suffixes)
    (hfile : (tree.fileAt (withSuffix suffix relative.parts)).isSome) (path : Str) :
    ∃ coding candidate, service.selectFile assets relative.assetPath
      (Static.fileRequest path coding : Request H E FileBody) = some candidate := by
  have hselected : ∀ coding, (tree.fileAt (tree.choose (acceptedPrecompressed
      (Static.fileRequest path coding : Request H E FileBody) dir.precompressedBr
        dir.precompressedGzip) relative).1.parts).isSome →
      ∃ coding candidate, service.selectFile assets relative.assetPath
        (Static.fileRequest path coding : Request H E FileBody) = some candidate := by
    intro coding hsome
    rw [← isSome_get hembeds] at hsome
    obtain ⟨file, hget⟩ := Option.isSome_iff_exists.1 hsome
    refine ⟨coding, ?_⟩
    rw [EmbeddedFileService.selectFile_eq hembeds, ← hoptions.br, ← hoptions.gzip, hget]
    exact ⟨_, rfl⟩
  rcases List.mem_append.1 hsuffix with hsuffix | hsuffix
  · obtain ⟨hbr, hmem⟩ := List.mem_ite_nil_right.1 hsuffix
    obtain rfl := List.mem_singleton.1 hmem
    refine hselected (some .br) ?_
    rw [hbr, (acceptedPrecompressed_fileRequest path false _).2.1, choose_br hfile]
    exact hfile
  · obtain ⟨hgzip, hmem⟩ := List.mem_ite_nil_right.1 hsuffix
    obtain rfl := List.mem_singleton.1 hmem
    refine hselected (some .gzip) ?_
    rw [hgzip, (acceptedPrecompressed_fileRequest path _ false).2.2, choose_gz hfile]
    exact hfile

/-- The services agree only if each variant stands beside its file. -/
theorem AgreeOn.variants (h : AgreeOn H E files dir assets service cache contended)
    (hlies : tree.LiesAt files dir.root) (hembeds : assets.Embeds tree)
    (hoptions : SameOptions dir service) {suffix : Str} (hsuffix : suffix ∈ dir.suffixes)
    (hfile : (tree.fileAt (withSuffix suffix relative.parts)).isSome) :
    (tree.fileAt relative.parts).isSome := by
  obtain ⟨path, hrelative, hslash⟩ := exists_path_without_slash relative
  obtain ⟨coding, candidate, hcandidate⟩ := exists_selectFile_of_variant (H := H) (E := E)
    hembeds hoptions hsuffix hfile path
  have hpath : relativePath (Static.fileRequest path coding : Request H E FileBody).uri.path =
      some relative := hrelative
  have hsame := h.fileRequest path coding
  rw [ServeDir.handle_eq hlies rfl hpath, EmbeddedFileService.handle_eq rfl hpath, hcandidate]
    at hsame
  rcases hget : tree.get relative.parts with - | data | target | entries
  · -- The directory service finds nothing.
    rw [hget] at hsame
    obtain ⟨response, response', hfs, -⟩ | ⟨-, hembedded⟩ := sameAnswer_cases hsame
    · exact nomatch hfs
    · exact absurd hembedded (serveCandidate_ne_fallback _ _ _)
  · exact Option.isSome_of_eq_some (AssetTree.fileAt_eq_some_iff.2 hget)
  · exact nomatch (AssetTree.names_of_get hget).2
  · -- The directory service finds a directory.
    rw [hget] at hsame
    simp only [FileTree.isDir, if_true] at hsame
    obtain ⟨response, response', hfs, hembedded, hobserve⟩ | ⟨-, hembedded⟩ :=
      sameAnswer_cases hsame
    · have hstatus := (congrArg Observation.status hobserve).trans
        (serveCandidate_fileRequest hembedded).1
      rw [ServeDir.handleDirectory_eq hlies hget] at hfs
      split at hfs
      · obtain rfl := Handled.own.inj hfs
        exact absurd hstatus (status_redirectToSlash_ne_ok _)
      · next hcond =>
        -- Directories are not answered at all.
        have hneither : (dir.appendIndexHtmlOnDirectories || dir.directoryListing) = false :=
          Bool.eq_false_iff.2 fun hflag ↦ hcond ⟨hslash, hflag⟩
        obtain ⟨happend, hlisting⟩ := Bool.or_eq_false_iff.1 hneither
        rw [happend, hlisting] at hfs
        exact nomatch hfs
    · exact absurd hembedded (serveCandidate_ne_fallback _ _ _)

omit [HttpDateLib] [QualityLib] [MimeGuessLib] [Extensions.Slot E OriginalUri] in
/-- A directory is listed alike only if each of its entries holds a file. -/
theorem holdsFile_of_listing_eq (hembeds : assets.Embeds tree) {requestPath : Str}
    {entries : List (Bytes × FileTree Bytes FileData)}
    (hget : tree.get relative.parts = some (.dir entries))
    (hlisting : (listingResponse requestPath
        ((entries.map entryLabel).mergeSort fun s t ↦ !(t.lex s fun c d ↦ c.toNat < d.toNat)) :
          Response H E FileBody).body.content =
      (embeddedDirectoryListing assets relative.assetPath requestPath :
        Response H E FileBody).body.content)
    {entry : Bytes × FileTree Bytes FileData} (hentry : entry ∈ entries) :
    entry.2.HoldsFile := by
  have hsorted : ∀ label, label ∈ sortedSet
      (assets.iter.filterMap (embeddedEntry relative.assetPath)) ↔
        ∃ entry ∈ entries, entry.2.HoldsFile ∧ label = entryLabel entry := fun label ↦
    List.mem_mergeSort.trans (List.mem_dedup.trans (mem_filterMap_embeddedEntry hembeds hget))
  have hsub : sortedSet (assets.iter.filterMap (embeddedEntry relative.assetPath)) ⊆
      (entries.map entryLabel).mergeSort fun s t ↦ !(t.lex s fun c d ↦ c.toNat < d.toNat) := by
    intro label hlabel
    obtain ⟨entry', hentry', -, rfl⟩ := (hsorted label).1 hlabel
    exact List.mem_mergeSort.2 (List.mem_map_of_mem hentry')
  -- The embedded listing has no more labels, so it has all of them.
  have hsubset := subset_of_content_listingResponse_eq (H := H) (E := E)
    ((List.mergeSort_perm _ _).nodup_iff.2 (List.nodup_dedup _)) hsub hlisting
  obtain ⟨entry', hentry', hholds, hlabel⟩ := (hsorted _).1
    (hsubset (List.mem_mergeSort.2 (List.mem_map_of_mem hentry)))
  have hnodup := nodup_map_entryLabel (AssetTree.names_of_get hget).2
  obtain rfl := List.inj_on_of_nodup_map hnodup hentry hentry' hlabel
  exact hholds

/-- The services agree on a listing only if every entry in it holds a file. -/
theorem AgreeOn.listed (h : AgreeOn H E files dir assets service cache contended)
    (hlies : tree.LiesAt files dir.root) (hembeds : assets.Embeds tree)
    (hoptions : SameOptions dir service) (hlisting : dir.directoryListing)
    {entries : List (Bytes × FileTree Bytes FileData)}
    (hget : tree.get relative.parts = some (.dir entries))
    (hindex : dir.appendIndexHtmlOnDirectories → tree.fileAt relative.index.parts = none)
    {entry : Bytes × FileTree Bytes FileData} (hentry : entry ∈ entries) :
    entry.2.HoldsFile := by
  by_contra hempty
  have hpath : relativePath (Static.fileRequest (relative.requestPath true) none :
      Request H E FileBody).uri.path = some relative := relativePath_requestPath relative true
  have hslash : (Static.fileRequest (relative.requestPath true) none :
      Request H E FileBody).uri.path.getLast? = some '/' := List.getLast?_concat
  have hself : assets.get relative.assetPath = none :=
    get_eq_none hembeds (AssetTree.fileAt_eq_none_of_dir hget)
  have hsame := h.fileRequest (relative.requestPath true) none
  rw [ServeDir.handle_eq hlies rfl hpath, EmbeddedFileService.handle_eq rfl hpath, hget,
    selectFile_fileRequest_none hembeds, hself] at hsame
  simp only [FileTree.isDir, if_true, Option.map_none] at hsame
  -- There is no index page on either side, and the path has its slash.
  have hindex' : (if dir.appendIndexHtmlOnDirectories then tree.fileAt relative.index.parts
      else none) = none := by
    split
    · next happend => exact hindex happend
    · rfl
  have hselect : (if service.appendIndexHtmlOnDirectories then
      service.selectFile assets relative.index.assetPath
        (Static.fileRequest (relative.requestPath true) none : Request H E FileBody)
      else none) = none := by
    split
    · next happend =>
      rw [selectFile_fileRequest_none hembeds,
        get_eq_none hembeds (hindex (hoptions.index.trans happend))]
      rfl
    · rfl
  have hnot : ∀ flag : Bool, ¬ ((Static.fileRequest (relative.requestPath true) none :
      Request H E FileBody).uri.path.getLast? ≠ some '/' ∧ flag) := fun _ h ↦ h.1 hslash
  rw [ServeDir.handleDirectory_eq hlies hget, if_neg (hnot _), hindex', hlisting] at hsame
  by_cases hexists : embeddedDirExists assets relative.assetPath
  · rw [if_pos hexists, EmbeddedFileService.handleDirectory, if_neg (hnot _),
      joinAssetPath_indexFile, hselect, ← hoptions.listing, hlisting] at hsame
    -- Both list, so the label of the entry is listed by both.
    have hobserve : observe (listingResponse (relative.requestPath true)
          ((entries.map entryLabel).mergeSort fun s t ↦ !(t.lex s fun c d ↦ c.toNat < d.toNat)) :
            Response H E FileBody) =
        observe (embeddedDirectoryListing assets relative.assetPath (relative.requestPath true) :
          Response H E FileBody) := hsame
    exact hempty (holdsFile_of_listing_eq (H := H) (E := E) hembeds hget
      (congrArg Observation.body hobserve) hentry)
  · rw [if_neg hexists] at hsame
    exact hsame

/-- **When the services agree**: exactly on the trees they treat alike. Each of the ways in which a
tree may fail to be so is seen in the answer to some request. -/
theorem agreeOn_iff (hlies : tree.LiesAt files dir.root) (hembeds : assets.Embeds tree)
    (hoptions : SameOptions dir service) :
    AgreeOn H E files dir assets service cache contended ↔
      ServedAlike tree dir assets cache contended := by
  constructor
  · intro h
    exact {
      variants relative suffix hsuffix hfile := h.variants hlies hembeds hoptions hsuffix hfile
      reached hanswered relative entries hget := h.reached hlies hembeds hanswered hget
      listed hlisting relative entries hget hindex entry hentry :=
        h.listed hlies hembeds hoptions hlisting hget hindex hentry
      dated := h.dated hlies hembeds }
  · exact fun h req hmethod hplain ↦
      sameAnswer_of_servedAlike hlies hembeds hoptions h hmethod hplain

end Differ

/-! ### Trees of one directory -/

section Flat

attribute [local instance] noDates unweighted octets

/-- A directory with files of one byte. -/
def flat (names : List Str) (hnames : ∀ name ∈ names, IsProper name)
    (hnodup : names.Nodup) : AssetTree where
  root := .dir (names.map fun name ↦ (Text.utf8 name, .file (oneByte 0)))
  isDir := rfl
  plain := by
    refine .dir (List.forall_mem_map.2 fun name hname ↦ ?_) ?_
      (List.forall_mem_map.2 fun name _ ↦ .file _)
    · have hproper := hnames name hname
      exact ⟨name, rfl, hproper.ne_nil, hproper.ne_here, hproper.ne_up, hproper.slash, hproper.nul⟩
    · rw [List.map_map]
      exact hnodup.map Text.utf8_injective

/-- The files of the directory, embedded. -/
def flatAssets (names : List Str) : RustEmbed where
  iter := names
  get path := if names.contains path then some ⟨[0], Vector.replicate 32 0, none⟩ else none

/-- The directory in a file system. -/
def flatDisk (tree : AssetTree) : Files where
  root := .dir [(osName "srv", tree.root)]
  workingDir := []
  isDir_workingDir := rfl
  maxLinks := 40

variable {names : List Str} {hnames : ∀ name ∈ names, IsProper name} {hnodup : names.Nodup}

private theorem get_flat {parts : List Str} {found : FileTree Bytes FileData} :
    (flat names hnames hnodup).get parts = some found ↔
      parts = [] ∧ found = (flat names hnames hnodup).root ∨
        ∃ name ∈ names, parts = [name] ∧ found = .file (oneByte 0) := by
  rcases parts with - | ⟨part, rest⟩
  · constructor
    · exact fun h ↦ .inl ⟨rfl, (Option.some.inj h).symm⟩
    · rintro (⟨-, rfl⟩ | ⟨name, -, hname, -⟩)
      · rfl
      · cases hname
  · have hplain := (flat names hnames hnodup).plain
    have hlookup : ∀ child, (flat names hnames hnodup).root.child (Text.utf8 part) = some child ↔
        part ∈ names ∧ child = .file (oneByte 0) := by
      intro child
      have hnodup' : ((names.map fun name ↦
          (Text.utf8 name, (.file (oneByte 0) : FileTree Bytes FileData))).map Prod.fst).Nodup := by
        rw [List.map_map]
        exact hnodup.map Text.utf8_injective
      refine (FileTree.lookup_eq_some_iff_mem hnodup').trans (List.mem_map.trans ?_)
      constructor
      · rintro ⟨name, hname, heq⟩
        obtain ⟨hpart, rfl⟩ := Prod.mk.inj heq
        exact ⟨Text.utf8_injective hpart ▸ hname, rfl⟩
      · rintro ⟨hpart, rfl⟩
        exact ⟨part, hpart, rfl⟩
    rw [AssetTree.get, List.map_cons, FileTree.get, Option.bind_eq_some_iff]
    simp only [hlookup]
    constructor
    · rintro ⟨child, ⟨hpart, rfl⟩, hrest⟩
      rcases rest with - | ⟨next, rest⟩
      · exact .inr ⟨part, hpart, rfl, (Option.some.inj hrest).symm⟩
      · cases hrest
    · rintro (⟨hnil, -⟩ | ⟨name, hname, heq, rfl⟩)
      · cases hnil
      · obtain ⟨rfl, rfl⟩ := List.cons.inj heq
        exact ⟨_, ⟨hname, rfl⟩, rfl⟩

private theorem fileAt_flat {parts : List Str} {data : FileData} :
    (flat names hnames hnodup).fileAt parts = some data ↔
      ∃ name ∈ names, parts = [name] ∧ data = oneByte 0 := by
  rw [AssetTree.fileAt_eq_some_iff, get_flat]
  constructor
  · rintro (⟨-, hroot⟩ | ⟨name, hname, hparts, hdata⟩)
    · exact nomatch hroot
    · exact ⟨name, hname, hparts, FileTree.file.inj hdata⟩
  · rintro ⟨name, hname, hparts, rfl⟩
    exact .inr ⟨name, hname, hparts, rfl⟩

private theorem liesAt_flatDisk (tree : AssetTree) :
    tree.LiesAt (flatDisk tree) ⟨true, [.name (osName "srv")]⟩ := by
  obtain ⟨root, hdir, hplain⟩ := tree
  rcases root with data | target | entries
  · exact nomatch hdir
  · exact nomatch hdir
  · exact ⟨[osName "srv"], rfl, rfl⟩

/-- The path to a name is the name. -/
private theorem parts_eq_singleton {relative : RelativePath} {name : Str} (h : IsProper name) :
    relative.assetPath = name ↔ relative.parts = [name] := by
  constructor
  · intro hpath
    have hparts : relative.parts ≠ [] := fun hnil ↦
      h.ne_nil (hpath.symm.trans ((assetPath_eq_nil_iff relative).2 hnil))
    rw [← List.splitOn_intercalate '/' (fun part hpart ↦ (relative.proper part hpart).slash) hparts,
      ← RelativePath.assetPath, hpath]
    exact List.splitOn_eq_singleton h.slash
  · intro hparts
    rw [RelativePath.assetPath, hparts]
    exact List.intercalate_singleton

private theorem embeds_flatAssets : (flatAssets names).Embeds (flat names hnames hnodup) where
  mem_iter path := by
    constructor
    · intro hpath
      exact ⟨[path], _, fileAt_flat.2 ⟨path, hpath, rfl, rfl⟩, List.intercalate_singleton.symm⟩
    · rintro ⟨parts, data, hdata, rfl⟩
      obtain ⟨name, hname, rfl, -⟩ := fileAt_flat.1 hdata
      rw [List.intercalate_singleton]
      exact hname
  get relative := by
    by_cases hpath : relative.assetPath ∈ names
    · have hdata : (flat names hnames hnodup).fileAt relative.parts = some (oneByte 0) :=
        fileAt_flat.2 ⟨_, hpath, (parts_eq_singleton (hnames _ hpath)).1 rfl, rfl⟩
      have hget : (flatAssets names).get relative.assetPath =
          some ⟨[0], Vector.replicate 32 0, none⟩ := if_pos (List.contains_iff_mem.2 hpath)
      rw [hdata, hget]
      rfl
    · have hnone : (flat names hnames hnodup).fileAt relative.parts = none := by
        rw [Option.eq_none_iff_forall_ne_some]
        intro data hdata
        obtain ⟨name, hname, hparts, -⟩ := fileAt_flat.1 hdata
        exact hpath ((parts_eq_singleton (hnames name hname)).2 hparts ▸ hname)
      have hget : (flatAssets names).get relative.assetPath = none :=
        if_neg (List.contains_iff_mem.not.2 hpath)
      rw [hnone, hget]
      rfl

/-- A page, and its compressed form. -/
abbrev pageNames : List Str :=
  ["app.js".toList, "app.js.br".toList]

/-- A directory with a page and its compressed form. -/
def pageTree : AssetTree :=
  flat pageNames (by decide) (by decide)

/-- A service for the directory, looking for compressed forms, with index pages and listings. -/
def pageDir : ServeDir where
  root := ⟨true, [.name (osName "srv")]⟩
  precompressedBr := true
  directoryListing := true

/-- The same service for embedded assets. -/
def pageService : EmbeddedFileService where
  precompressedBr := true
  directoryListing := true

private theorem variants_pageTree (relative : RelativePath)
    (h : (pageTree.fileAt (withSuffix ".br".toList relative.parts)).isSome) :
    (pageTree.fileAt relative.parts).isSome := by
  obtain ⟨data, hdata⟩ := Option.isSome_iff_exists.1 h
  obtain ⟨name, hname, hparts, -⟩ := fileAt_flat.1 hdata
  obtain ⟨part, hpart, hsuffixed⟩ : ∃ part, (relative.parts = [] ∧ part = [] ∨
      relative.parts = [part]) ∧ part ++ ".br".toList = name := by
    generalize relative.parts = parts at hparts ⊢
    rcases parts with - | ⟨part, - | ⟨next, rest⟩⟩
    · exact ⟨[], .inl ⟨rfl, rfl⟩, (List.cons.inj hparts).1⟩
    · exact ⟨part, .inr rfl, (List.cons.inj hparts).1⟩
    · exact absurd (List.cons.inj hparts).2 (withSuffix_ne_nil _ _)
  rcases List.mem_pair.1 hname with rfl | rfl
  · have hsuffix : ".br".toList <:+ "app.js".toList := ⟨part, hsuffixed⟩
    exact absurd hsuffix (by decide)
  · obtain rfl : part = "app.js".toList := List.append_cancel_right hsuffixed
    obtain ⟨-, hpart⟩ | hpart := hpart
    · exact absurd hpart (by decide)
    · exact Option.isSome_of_eq_some (fileAt_flat.2 ⟨_, List.mem_cons_self, hpart, rfl⟩)

/-- The services agree on the page and its compressed form. -/
theorem pageTree_agreeOn :
    AgreeOn (AssocList HeaderName HeaderValue) (Option OriginalUri) (flatDisk pageTree) pageDir
      (flatAssets pageNames) pageService Memo.new false :=
  (agreeOn_iff (liesAt_flatDisk pageTree) embeds_flatAssets ⟨rfl, rfl, rfl, rfl⟩).2 {
    variants relative suffix hsuffix hfile := by
      obtain rfl := List.mem_singleton.1 hsuffix
      exact variants_pageTree relative hfile
    reached _ relative entries hget := by
      obtain ⟨-, hroot⟩ | ⟨_, _, _, hfile⟩ := get_flat.1 hget
      · rw [hroot]
        exact ⟨_, _, get_flat.2 (.inr ⟨"app.js".toList, List.mem_cons_self, rfl, rfl⟩)⟩
      · exact nomatch hfile
    listed _ relative entries hget _ entry hentry := by
      obtain ⟨-, hroot⟩ | ⟨_, _, _, hfile⟩ := get_flat.1 hget
      · rw [FileTree.dir.inj hroot] at hentry
        obtain ⟨name, -, rfl⟩ := List.mem_map.1 hentry
        exact ⟨[], _, rfl⟩
      · exact nomatch hfile
    dated relative data hdata := by
      obtain ⟨name, hname, hparts, rfl⟩ := fileAt_flat.1 hdata
      refine ⟨rfl, ⟨[0], Vector.replicate 32 0, none⟩, _, if_pos ?_, rfl, rfl⟩
      rwa [List.contains_iff_mem, RelativePath.assetPath, hparts, List.intercalate_singleton] }

/-- A directory with a compressed form alone. -/
def loneTree : AssetTree :=
  flat ["app.js.br".toList] (by decide) (by decide)

/-- The service for embedded assets that looks for compressed forms. -/
def brService : EmbeddedFileService where
  precompressedBr := true
  appendIndexHtmlOnDirectories := false

/-- A request for the page, accepting the compressed form. -/
def pageRequest : Request (AssocList HeaderName HeaderValue) (Option OriginalUri) FileBody :=
  fileRequest "/app.js".toList (some .br)

/-- Where the compressed form stands alone, the directory service finds nothing for the request, and
the service for embedded assets answers it with the compressed form. -/
theorem loneTree_not_sameAnswer :
    loneTree.LiesAt (flatDisk loneTree) brDir.root ∧
      (flatAssets ["app.js.br".toList]).Embeds loneTree ∧ SameOptions brDir brService ∧
      brDir.handle (flatDisk loneTree) pageRequest = .fallback ∧
      (∃ response, (brService.handle (flatAssets ["app.js.br".toList]) Memo.new false
          pageRequest).1 = .own response ∧
        (observe response).status = .ok ∧ (observe response).contentEncoding = [.br]) ∧
      ¬ (brDir.handle (flatDisk loneTree) pageRequest).SameAnswer
        (brService.handle (flatAssets ["app.js.br".toList]) Memo.new false pageRequest).1 := by
  let page : RelativePath := ⟨["app.js".toList], by decide⟩
  have hlies : loneTree.LiesAt (flatDisk loneTree) brDir.root := liesAt_flatDisk loneTree
  have hembeds : (flatAssets ["app.js.br".toList]).Embeds loneTree := embeds_flatAssets
  have hpath : relativePath pageRequest.uri.path = some page := by
    have hdecoded : Percent.decodeUtf8 "app.js".toList = some "app.js".toList :=
      Percent.decodeUtf8_eq_self_iff.2 (by decide)
    have hvalid : validPercentEncoding (Text.utf8 "/app.js".toList) :=
      validPercentEncoding_of_not_mem (by decide)
    show relativePath "/app.js".toList = some page
    rw [relativePath, if_pos hvalid]
    exact congrArg (Option.bind · splitDecoded) hdecoded
  -- Without the plain file the directory service has nothing to select a variant for.
  have hfs : brDir.handle (flatDisk loneTree) pageRequest = .fallback :=
    ServeDir.handle_eq hlies rfl hpath
  have hfile : (loneTree.fileAt (withSuffix ".br".toList page.parts)).isSome :=
    Option.isSome_of_eq_some (fileAt_flat.2 ⟨_, List.mem_cons_self, rfl, rfl⟩)
  have hplain : ∀ name ∈ validatorHeaders, Multimap.get pageRequest.headers name = none :=
    fun name hname ↦ get_fileRequest_eq_none "/app.js".toList (some .br) name
      ((by decide : ∀ name ∈ validatorHeaders, name ∈ conditionalHeaders) name hname)
  obtain ⟨response, hresponse, hobserve⟩ := observe_serveAsset
    (embeddedAsset ⟨[0], Vector.replicate 32 0, none⟩ ⟨none, embeddedEtag (Vector.replicate 32 0)⟩
      (contentType page.assetPath) (some .br) true) none rfl hplain
  have haccepts : acceptedPrecompressed pageRequest brService.precompressedBr
      brService.precompressedGzip = (true, false) :=
    (acceptedPrecompressed_fileRequest "/app.js".toList false false).2.1
  have hget : (flatAssets ["app.js.br".toList]).get
      (page.variant ".br".toList (by decide)).assetPath =
        some ⟨[0], Vector.replicate 32 0, none⟩ := rfl
  -- The embedded service looks for the variants first.
  have hembedded : (brService.handle (flatAssets ["app.js.br".toList]) Memo.new false
      pageRequest).1 = .own response := by
    rw [EmbeddedFileService.handle_eq rfl hpath, EmbeddedFileService.selectFile_eq hembeds,
      haccepts, choose_br hfile, hget]
    exact congrArg Handled.ofOption hresponse
  refine ⟨hlies, hembeds, ⟨rfl, rfl, rfl, rfl⟩, hfs, ⟨response, hembedded, ?_, ?_⟩, ?_⟩
  · rw [hobserve]
    rfl
  · rw [hobserve]
    rfl
  · rw [hfs, hembedded]
    exact id

end Flat

end Static
