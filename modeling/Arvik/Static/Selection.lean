import Arvik.Static.AssetTree
import Mathlib.Data.Char
import Mathlib.Data.List.Lex
import Mathlib.Data.List.Sort

/-!
# What is selected of a tree

Both services choose among a file and its variants the same way (`AssetTree.choose`): the directory
service where there is a file at the path, the service for embedded assets wherever there is one to
choose. Both sort what they list.

The function belongs to neither. It looks a path up in a tree and knows nothing of links, of byte
strings or of what was embedded, and each service is shown to compute it under its own conditions
(`ServeDir.selectFile_eq`, `EmbeddedFileService.selectFile_eq`). Where the conditions differ, a
variant without its file, the services do as well, and `Divergence` starts from there. The listings
are compared through their labels: one service sorts a list and the other keeps a set, and a set
without repetition is listed as the sorted list is (`sortedSet_eq`).
-/

namespace Static

/-! ### Choosing a file -/

/-- The path served for a path: that of a variant in the tree whose coding is accepted, or else the
path itself. -/
def AssetTree.choose (tree : AssetTree) (accepts : Bool × Bool) (relative : RelativePath) :
    RelativePath × Option HeaderValue :=
  let br := relative.variant ".br".toList (by decide)
  let gz := relative.variant ".gz".toList (by decide)
  if accepts.1 && (tree.fileAt br.parts).isSome then (br, some .br)
  else if accepts.2 && (tree.fileAt gz.parts).isSome then (gz, some .gzip)
  else (relative, none)

section Choose

variable {tree : AssetTree} {relative : RelativePath}

/-- What is chosen is the path itself, or a variant in the tree. -/
theorem choose_cases (tree : AssetTree) (accepts : Bool × Bool) (relative : RelativePath) :
    tree.choose accepts relative = (relative, none) ∨
      ∃ suffix, ∃ h : suffix ∈ variantSuffixes, (suffix = ".br".toList → accepts.1) ∧
        (suffix = ".gz".toList → accepts.2) ∧
          (tree.choose accepts relative).1 = relative.variant suffix h ∧
            (tree.fileAt (withSuffix suffix relative.parts)).isSome := by
  rw [AssetTree.choose]
  by_cases hbr : (accepts.1 &&
      (tree.fileAt (relative.variant ".br".toList (by decide)).parts).isSome) = true
  · obtain ⟨haccepts, hfile⟩ := Bool.and_eq_true_iff.1 hbr
    exact .inr ⟨".br".toList, by decide, fun _ ↦ haccepts, fun h ↦ absurd h (by decide),
      congrArg Prod.fst (if_pos hbr), hfile⟩
  · by_cases hgz : (accepts.2 &&
        (tree.fileAt (relative.variant ".gz".toList (by decide)).parts).isSome) = true
    · obtain ⟨haccepts, hfile⟩ := Bool.and_eq_true_iff.1 hgz
      exact .inr ⟨".gz".toList, by decide, fun h ↦ absurd h (by decide), fun _ ↦ haccepts,
        congrArg Prod.fst ((if_neg hbr).trans (if_pos hgz)), hfile⟩
    · exact .inl ((if_neg hbr).trans (if_neg hgz))

/-- Where no coding is accepted, the path itself is chosen. -/
theorem choose_false (tree : AssetTree) (relative : RelativePath) :
    tree.choose (false, false) relative = (relative, none) :=
  rfl

/-- Where one coding is accepted, a variant in the tree is chosen. -/
theorem choose_br (h : (tree.fileAt (withSuffix ".br".toList relative.parts)).isSome) :
    tree.choose (true, false) relative =
      (relative.variant ".br".toList (by decide), some .br) :=
  if_pos (Bool.and_eq_true_iff.2 ⟨rfl, h⟩)

theorem choose_gz (h : (tree.fileAt (withSuffix ".gz".toList relative.parts)).isSome) :
    tree.choose (false, true) relative =
      (relative.variant ".gz".toList (by decide), some .gzip) :=
  if_pos (Bool.and_eq_true_iff.2 ⟨rfl, h⟩)

/-- For a path to a file, what is chosen is a file. -/
theorem isSome_fileAt_choose (accepts : Bool × Bool)
    (h : (tree.fileAt relative.parts).isSome) :
    (tree.fileAt (tree.choose accepts relative).1.parts).isSome := by
  obtain hself | ⟨suffix, hsuffix, -, -, hchosen, hfile⟩ := choose_cases tree accepts relative
  · rwa [hself]
  · rw [hchosen]
    exact hfile

variable {files : Files} {dir : ServeDir} [MimeGuessLib]

/-- The directory service selects what is chosen, for a path to a file. -/
theorem ServeDir.selectFile_eq (hlies : tree.LiesAt files dir.root) (here : Bool) {data : FileData}
    (hdata : tree.fileAt relative.parts = some data) (assetPath : Str) (accepts : Bool × Bool) :
    dir.selectFile files (dir.pathTo here relative.parts) (.file data) assetPath accepts.1
        accepts.2 =
      some { path := dir.pathTo here (tree.choose accepts relative).1.parts
             contentType := contentType assetPath
             contentEncoding := (tree.choose accepts relative).2
             varyAcceptEncoding := dir.precompressedGzip || dir.precompressedBr } := by
  have hparts : relative.parts ≠ [] := by
    intro hnil
    rw [hnil, AssetTree.fileAt_nil] at hdata
    exact nomatch hdata
  obtain ⟨location, hopen⟩ := openFile_pathTo hlies
  have hvariant : ∀ suffix (hsuffix : suffix ∈ variantSuffixes),
      appendSuffix (dir.pathTo here relative.parts) suffix =
          dir.pathTo here (relative.variant suffix hsuffix).parts ∧
        (files.openFile (dir.pathTo here (relative.variant suffix hsuffix).parts)).isSome =
          (tree.fileAt (relative.variant suffix hsuffix).parts).isSome := fun suffix hsuffix ↦
    ⟨appendSuffix_pathTo hlies here hparts suffix, by rw [hopen, Option.isSome_map]⟩
  rw [ServeDir.selectFile, AssetTree.choose, (hvariant _ (by decide)).1,
    (hvariant ".gz".toList (by decide)).1]
  simp only [(hvariant _ _).2]
  split
  · rfl
  · split
    · rfl
    · rfl

variable {assets : RustEmbed} {service : EmbeddedFileService} {H E B : Type}
  [Multimap H HeaderName HeaderValue]

omit [MimeGuessLib] in
theorem isSome_get (hembeds : assets.Embeds tree) (relative : RelativePath) :
    (assets.get relative.assetPath).isSome = (tree.fileAt relative.parts).isSome := by
  rw [← Option.isSome_map, hembeds.get, Option.isSome_map]

omit [MimeGuessLib] in
theorem get_eq_none (hembeds : assets.Embeds tree) {relative : RelativePath}
    (h : tree.fileAt relative.parts = none) : assets.get relative.assetPath = none := by
  rw [← Option.not_isSome_iff_eq_none, isSome_get hembeds, h]
  exact Bool.false_ne_true

/-- The service for embedded assets selects what is chosen, if there is a file. -/
theorem EmbeddedFileService.selectFile_eq [QualityLib] (hembeds : assets.Embeds tree)
    (relative : RelativePath) (req : Request H E B) :
    let chosen := tree.choose
      (acceptedPrecompressed req service.precompressedBr service.precompressedGzip) relative
    service.selectFile assets relative.assetPath req =
      (assets.get chosen.1.assetPath).map fun file ↦
        { assetPath := chosen.1.assetPath
          file
          contentType := contentType relative.assetPath
          contentEncoding := chosen.2
          varyAcceptEncoding := service.precompressedGzip || service.precompressedBr } := by
  intro chosen
  have hvariant : ∀ suffix (hsuffix : suffix ∈ variantSuffixes),
      relative.assetPath ++ suffix = (relative.variant suffix hsuffix).assetPath :=
    fun suffix hsuffix ↦ (assetPath_variant relative hsuffix).symm
  rw [EmbeddedFileService.selectFile, hvariant _ (by decide), hvariant ".gz".toList (by decide)]
  have hchosen : chosen = tree.choose
    (acceptedPrecompressed req service.precompressedBr service.precompressedGzip) relative := rfl
  rw [AssetTree.choose] at hchosen
  generalize acceptedPrecompressed req service.precompressedBr service.precompressedGzip = accepts
    at hchosen ⊢
  simp only [← isSome_get hembeds] at hchosen
  have hnone : ∀ {accepted : Bool} {found : Option EmbeddedFile},
      ¬ (accepted && found.isSome) = true → (if accepted then found else none) = none := by
    intro accepted found hnot
    rcases accepted with - | -
    · rfl
    · exact Option.not_isSome_iff_eq_none.1 hnot
  split at hchosen
  · -- The choice of the tree is followed in the order of the source: brotli, gzip, plain.
    next hbr =>
    obtain ⟨haccepts, hsome⟩ := Bool.and_eq_true_iff.1 hbr
    obtain ⟨file, hfile⟩ := Option.isSome_iff_exists.1 hsome
    rw [hchosen, if_pos haccepts, hfile]
    rfl
  · next hbr =>
    rw [hnone hbr]
    split at hchosen
    · next hgz =>
      obtain ⟨haccepts, hsome⟩ := Bool.and_eq_true_iff.1 hgz
      obtain ⟨file, hfile⟩ := Option.isSome_iff_exists.1 hsome
      rw [hchosen, if_pos haccepts, hfile]
      rfl
    · next hgz =>
      rw [hnone hgz, hchosen]

end Choose

/-! ### Listings -/

/-- Texts are compared as lists of characters are. -/
theorem not_lex_eq (s t : Str) :
    (!(t.lex s fun c d ↦ c.toNat < d.toNat)) = decide (s ≤ t) := by
  have hlt : (fun c d : Char ↦ decide (c.toNat < d.toNat)) = fun c d ↦ decide (c < d) := rfl
  rw [hlt, Bool.eq_iff_iff, Bool.not_eq_true', ← Bool.not_eq_true, List.lex_eq_true_iff_lt,
    decide_eq_true_eq]
  exact not_lt

/-- A set of texts is listed as a list of its members without repetition is. -/
theorem sortedSet_eq {labels members : List Str} (hnodup : labels.Nodup)
    (hmem : ∀ label, label ∈ members ↔ label ∈ labels) :
    sortedSet members = labels.mergeSort fun s t ↦ !(t.lex s fun c d ↦ c.toNat < d.toNat) := by
  have hperm : members.dedup.Perm labels :=
    (List.perm_ext_iff_of_nodup (List.nodup_dedup _) hnodup).2 fun label ↦
      List.mem_dedup.trans (hmem label)
  simp only [sortedSet, not_lex_eq]
  exact List.Perm.eq_of_pairwise' (List.pairwise_mergeSort' (· ≤ ·) _)
    (List.pairwise_mergeSort' (· ≤ ·) _)
    ((List.mergeSort_perm _ _).trans (hperm.trans (List.mergeSort_perm _ _).symm))

/-- The labels of the entries of a directory differ. -/
theorem nodup_map_entryLabel {entries : List (Bytes × FileTree Bytes FileData)}
    (h : (FileTree.dir entries).Plain IsAssetName) : (entries.map entryLabel).Nodup := by
  cases h with
  | dir names nodup sub =>
    -- Without its slash a label is the name.
    have hname : ∀ entry ∈ entries,
        Text.utf8 ((entryLabel entry).filter fun c ↦ c ≠ '/') = entry.1 := by
      rintro ⟨name, child⟩ hentry
      obtain ⟨part, rfl, -, -, -, hslash, -⟩ := names _ hentry
      have hpart : part.filter (fun c ↦ c ≠ '/') = part :=
        List.filter_eq_self.2 fun c hc ↦ decide_eq_true fun h ↦ hslash (h ▸ hc)
      rw [entryLabel, Text.fromUtf8Lossy_utf8, List.filter_append, hpart]
      split
      · exact congrArg Text.utf8 (List.append_nil part)
      · exact congrArg Text.utf8 (List.append_nil part)
    refine List.Nodup.map_on (fun entry hentry entry' hentry' hlabel ↦ ?_) nodup.of_map
    refine List.inj_on_of_nodup_map nodup hentry hentry' ?_
    rw [← hname entry hentry, ← hname entry' hentry', hlabel]

end Static
