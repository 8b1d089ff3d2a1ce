import Arvik.Foundation.PlainTree
import Arvik.Static.Containment
import Arvik.Static.EmbeddedService

/-!
# Trees of assets

A tree of files and directories that is served from the file system and from the program. The
directory service finds in the file system what is in the tree (`find_pathTo`), and the set of
embedded assets is the set of its files (`RustEmbed.Embeds`); a directory of the tree is seen there
by the files below it (`embeddedDirExists_iff`).

## Paths below the root

All paths the directory service opens are of one form: the root, and components below it
(`ServeDir.pathTo`). Where the tree has no links, such a path leads to what the tree has under these
components, wherever the root itself leads. That is the whole connection between the service and the
tree, and everything said of the service on a tree without links goes through it. In particular
nothing that is streamed lies outside (`uncheckedInside_of_liesAt`), with precompressed variants and
index pages or without.

## Names of embedded files

The embedded assets have no directories, only names with slashes in them, so a path is compared with
them as a text. A component has no slash of its own, and a name is the components of its file joined
by slashes, so a text in front of a name that ends at a slash is a directory above the file
(`isPrefix_iff_below`). This is where the names of a tree have to be proper ones (`IsAssetName`): a
component that is empty or has a slash would be told from its neighbours by nothing.
-/

namespace Static

/-! ### Variants -/

/-- The suffixes of precompressed variants. -/
def variantSuffixes : List Str :=
  [".br".toList, ".gz".toList]

/-- The components of a path with a suffix after it. -/
def withSuffix (suffix : Str) : List Str → List Str
  | [] => [suffix]
  | [part] => [part ++ suffix]
  | part :: next :: rest => part :: withSuffix suffix (next :: rest)

theorem withSuffix_concat (suffix : Str) (parts : List Str) (part : Str) :
    withSuffix suffix (parts ++ [part]) = parts ++ [part ++ suffix] := by
  induction parts with
  | nil => rfl
  | cons first parts ih =>
    rcases parts with - | ⟨second, parts⟩
    · rfl
    · exact congrArg (List.cons first) ih

/-- Every variant suffix makes a name lead down. -/
theorem isProper_append {part suffix : Str} (hsuffix : suffix ∈ variantSuffixes)
    (hpart : part = [] ∨ IsProper part) : IsProper (part ++ suffix) := by
  have hfree : ∀ {c}, c ∉ part → c ∉ suffix → c ∉ part ++ suffix := fun hpart hsuffix hmem ↦
    (List.mem_append.1 hmem).elim hpart hsuffix
  obtain ⟨hslash, hback, hnul⟩ : '/' ∉ suffix ∧ '\\' ∉ suffix ∧ '\x00' ∉ suffix :=
    (by decide : ∀ suffix ∈ variantSuffixes, '/' ∉ suffix ∧ '\\' ∉ suffix ∧ '\x00' ∉ suffix)
      suffix hsuffix
  have hlength : 3 ≤ (part ++ suffix).length := by
    have hsuffix : suffix.length = 3 :=
      (by decide : ∀ suffix ∈ variantSuffixes, suffix.length = 3) suffix hsuffix
    rw [List.length_append]
    omega
  have hpart' : '/' ∉ part ∧ '\\' ∉ part ∧ '\x00' ∉ part := by
    obtain rfl | hproper := hpart
    · exact ⟨nofun, nofun, nofun⟩
    · exact ⟨hproper.slash, hproper.backslash, hproper.nul⟩
  refine ⟨?_, ?_, ?_, hfree hpart'.1 hslash, hfree hpart'.2.1 hback, hfree hpart'.2.2 hnul⟩
  · exact fun h ↦ absurd (h ▸ hlength) (by decide)
  · exact fun h ↦ absurd (h ▸ hlength) (by decide)
  · exact fun h ↦ absurd (h ▸ hlength) (by decide)

/-- The path of a variant. -/
def RelativePath.variant (self : RelativePath) (suffix : Str) (h : suffix ∈ variantSuffixes) :
    RelativePath where
  parts := withSuffix suffix self.parts
  proper := by
    rcases List.eq_nil_or_concat' self.parts with hnil | ⟨parts, part, hparts⟩
    · rw [hnil]
      exact List.forall_mem_singleton.2 (isProper_append h (.inl rfl))
    · have hproper := self.proper
      rw [hparts, List.forall_mem_append, List.forall_mem_singleton] at hproper
      rw [hparts, withSuffix_concat, List.forall_mem_append, List.forall_mem_singleton]
      exact ⟨hproper.1, isProper_append h (.inr hproper.2)⟩

/-- The path of the index page of a directory. -/
def RelativePath.index (self : RelativePath) : RelativePath where
  parts := self.parts ++ [indexFile]
  proper := by
    rw [List.forall_mem_append, List.forall_mem_singleton]
    exact ⟨self.proper, by decide⟩

/-! ### Texts of paths -/

theorem withSuffix_ne_nil (suffix : Str) (parts : List Str) : withSuffix suffix parts ≠ [] := by
  rcases parts with - | ⟨part, - | ⟨next, rest⟩⟩
  · exact List.cons_ne_nil _ _
  · exact List.cons_ne_nil _ _
  · exact List.cons_ne_nil _ _

/-- A suffix of a path is one of its text. -/
theorem intercalate_withSuffix (sep suffix : Str) (parts : List Str) :
    sep.intercalate (withSuffix suffix parts) = sep.intercalate parts ++ suffix := by
  induction parts with
  | nil => exact List.intercalate_singleton
  | cons part parts ih =>
    rcases parts with - | ⟨next, rest⟩
    · rw [withSuffix, List.intercalate_singleton, List.intercalate_singleton]
    · rw [withSuffix, List.intercalate_cons_of_ne_nil (withSuffix_ne_nil _ _), ih,
        List.intercalate_cons_cons, ← List.append_assoc]

theorem intercalate_append (sep : Str) {before behind : List Str} (hbefore : before ≠ [])
    (hbehind : behind ≠ []) :
    sep.intercalate (before ++ behind) =
      sep.intercalate before ++ (sep ++ sep.intercalate behind) := by
  induction before with
  | nil => exact absurd rfl hbefore
  | cons part parts ih =>
    rcases parts with - | ⟨next, rest⟩
    · rw [List.singleton_append, List.intercalate_cons_of_ne_nil hbehind,
        List.intercalate_singleton, List.append_assoc]
    · rw [List.cons_append, List.intercalate_cons_of_ne_nil (by simp), ih (List.cons_ne_nil _ _),
        List.intercalate_cons_cons]
      simp only [List.append_assoc]

/-- The text of the path of a variant. -/
theorem assetPath_variant (self : RelativePath) {suffix : Str} (h : suffix ∈ variantSuffixes) :
    (self.variant suffix h).assetPath = self.assetPath ++ suffix :=
  intercalate_withSuffix ['/'] suffix self.parts

/-- The text of a path does not end in a separator. -/
theorem getLast?_assetPath (self : RelativePath) : self.assetPath.getLast? ≠ some '/' := by
  rcases List.eq_nil_or_concat' self.parts with hnil | ⟨parts, part, hparts⟩
  · rw [RelativePath.assetPath, hnil]
    exact (Option.some_ne_none _).symm
  · have hproper := self.proper part
      (hparts ▸ List.mem_append_right parts (List.mem_singleton_self _))
    have hlast : part.getLast? ≠ some '/' := fun h ↦ hproper.slash (List.mem_of_getLast? h)
    rw [RelativePath.assetPath, hparts]
    rcases List.eq_nil_or_concat' parts with rfl | ⟨before, next, hbefore⟩
    · rwa [List.nil_append, List.intercalate_singleton]
    · rwa [intercalate_append _ (hbefore ▸ by simp) (List.cons_ne_nil _ _),
        List.intercalate_singleton, List.getLast?_append_of_ne_nil _ (by simp),
        List.getLast?_append_of_ne_nil _ hproper.ne_nil]

/-- Trimming does nothing to the text of a path. -/
theorem trim_assetPath (self : RelativePath) :
    (self.assetPath.reverse.dropWhile fun c ↦ c = '/').reverse = self.assetPath := by
  have hlast := getLast?_assetPath self
  rw [← List.head?_reverse] at hlast
  rcases hreverse : self.assetPath.reverse with - | ⟨c, rest⟩
  · exact (List.reverse_eq_nil_iff.1 hreverse).symm
  · rw [hreverse] at hlast
    rw [List.dropWhile_cons_of_neg (by simpa using hlast), ← hreverse, List.reverse_reverse]

theorem assetPath_eq_nil_iff (self : RelativePath) : self.assetPath = [] ↔ self.parts = [] := by
  constructor
  · intro h
    by_contra hparts
    obtain ⟨c, hc, -⟩ := head?_assetPath_append self [] hparts
    rw [List.append_nil, h] at hc
    exact nomatch hc
  · intro h
    rw [RelativePath.assetPath, h]
    rfl

/-- The text of the path of an index page. -/
theorem joinAssetPath_indexFile (self : RelativePath) :
    joinAssetPath self.assetPath indexFile = self.index.assetPath := by
  show _ = ['/'].intercalate (self.parts ++ [indexFile])
  rw [joinAssetPath, trim_assetPath]
  by_cases hparts : self.parts = []
  · rw [if_pos ((assetPath_eq_nil_iff self).2 hparts), hparts]
    exact List.intercalate_singleton.symm
  · rw [if_neg ((assetPath_eq_nil_iff self).not.2 hparts),
      intercalate_append _ hparts (List.cons_ne_nil _ _), List.intercalate_singleton]
    rfl

/-! ### Trees -/

/-- The name of a file: a text that is the component of a path. -/
def IsAssetName (name : Bytes) : Prop :=
  ∃ part : Str, name = Text.utf8 part ∧ part ≠ [] ∧ part ≠ ['.'] ∧ part ≠ ['.', '.'] ∧
    '/' ∉ part ∧ '\x00' ∉ part

/-- A directory of files and directories, without links. -/
structure AssetTree where
  root : FileTree Bytes FileData
  isDir : root.isDir
  plain : root.Plain IsAssetName

namespace AssetTree

/-- What is at a path. -/
def get (self : AssetTree) (parts : List Str) : Option (FileTree Bytes FileData) :=
  self.root.get (parts.map Text.utf8)

/-- The file at a path. -/
def fileAt (self : AssetTree) (parts : List Str) : Option FileData :=
  self.root.fileAt (parts.map Text.utf8)

/-- The tree is the directory a path of the file system leads to. The path itself may go through
links; the tree has none. -/
def LiesAt (self : AssetTree) (files : Files) (path : FilePath Bytes) : Prop :=
  ∃ location, files.canonicalize path = some location ∧
    files.root.get location = some self.root

variable {self : AssetTree} {files : Files} {dir : ServeDir}

theorem fileAt_eq_some_iff {parts : List Str} {data : FileData} :
    self.fileAt parts = some data ↔ self.get parts = some (.file data) :=
  FileTree.fileAt_eq_some_iff

theorem fileAt_eq_none {parts : List Str} (h : self.get parts = none) :
    self.fileAt parts = none := by
  rw [Option.eq_none_iff_forall_ne_some]
  intro data hdata
  cases h.symm.trans (fileAt_eq_some_iff.1 hdata)

theorem fileAt_eq_none_of_dir {parts : List Str} {entries : List (Bytes × FileTree Bytes FileData)}
    (h : self.get parts = some (.dir entries)) : self.fileAt parts = none := by
  rw [Option.eq_none_iff_forall_ne_some]
  intro data hdata
  cases h.symm.trans (fileAt_eq_some_iff.1 hdata)

/-- The tree itself is no file. -/
theorem fileAt_nil : self.fileAt [] = none := by
  have hdir := self.isDir
  rw [fileAt, List.map_nil, FileTree.fileAt, FileTree.get]
  generalize self.root = root at hdir ⊢
  rcases root with data | target | entries
  · exact absurd hdir Bool.false_ne_true
  · rfl
  · rfl

/-- What is at a path that is longer. -/
theorem get_append (parts behind : List Str) :
    self.get (parts ++ behind) =
      (self.get parts).bind fun tree ↦ tree.get (behind.map Text.utf8) := by
  rw [get, List.map_append, FileTree.get_append]
  rfl

end AssetTree

/-! ### Finding the tree in the file system -/

/-- The path of components below the root, perhaps with a component that stays there in front. -/
def ServeDir.pathTo (self : ServeDir) (here : Bool) (parts : List Str) : FilePath Bytes :=
  { self.root with comps := self.root.comps ++
      ((if here then [.here] else []) ++ (parts.map Text.utf8).map .name) }

theorem pathOfText_assetPath (relative : RelativePath) (hparts : relative.parts ≠ []) :
    pathOfText relative.assetPath = ⟨false, (relative.parts.map Text.utf8).map .name⟩ := by
  obtain ⟨c, hc, hne⟩ := head?_assetPath_append relative [] hparts
  rw [List.append_nil] at hc
  have hnil : relative.assetPath ≠ [] := (assetPath_eq_nil_iff relative).not.2 hparts
  have habsolute : decide (relative.assetPath.head? = some '/') = false := by
    rw [hc]
    exact decide_eq_false fun h ↦ hne (Option.some.inj h)
  rw [pathOfText, if_neg hnil, habsolute, RelativePath.assetPath,
    List.splitOn_intercalate '/' (fun part hpart ↦ (relative.proper part hpart).slash) hparts,
    List.map_map]
  congr 1
  refine List.map_congr_left fun part hpart ↦ ?_
  have hproper := relative.proper part hpart
  rw [if_neg (not_or.2 ⟨hproper.ne_nil, hproper.ne_here⟩), if_neg hproper.ne_up]
  rfl

section Find

variable {tree : AssetTree} {files : Files} {self : ServeDir}

/-- The root of the service is not the empty path. -/
theorem AssetTree.LiesAt.isEmpty (h : tree.LiesAt files self.root) :
    self.root.isEmpty = false := by
  obtain ⟨location, hlocation, -⟩ := h
  exact FileSystem.isEmpty_of_canonicalize hlocation

theorem candidate_eq (h : tree.LiesAt files self.root) (relative : RelativePath) :
    self.candidate relative = self.pathTo relative.parts.isEmpty relative.parts := by
  rw [ServeDir.candidate, FilePath.join, h.isEmpty, ServeDir.pathTo]
  by_cases hparts : relative.parts = []
  · rw [(assetPath_eq_nil_iff relative).2 hparts, hparts]
    rfl
  · rw [pathOfText_assetPath relative hparts, List.isEmpty_eq_false_iff.2 hparts]
    have hempty : (⟨false, (relative.parts.map Text.utf8).map .name⟩ : FilePath Bytes).isEmpty =
        false := by
      rw [FilePath.isEmpty, List.isEmpty_map, List.isEmpty_map, List.isEmpty_eq_false_iff.2 hparts]
      rfl
    rw [hempty]
    rfl

theorem isEmpty_pathTo (h : tree.LiesAt files self.root) (here : Bool) (parts : List Str) :
    (self.pathTo here parts).isEmpty = false := by
  have hempty := h.isEmpty
  rw [FilePath.isEmpty, Bool.and_eq_false_iff] at hempty ⊢
  refine hempty.imp_right fun h ↦ ?_
  rw [List.isEmpty_eq_false_iff] at h ⊢
  exact List.append_ne_nil_of_left_ne_nil h _

theorem pathTo_concat (here : Bool) (parts : List Str) (part : Str) :
    self.pathTo here (parts ++ [part]) =
      { self.pathTo here parts with
        comps := (self.pathTo here parts).comps ++ [.name (Text.utf8 part)] } := by
  simp only [ServeDir.pathTo, List.map_append, List.map_singleton, List.append_assoc]

theorem indexPath_eq (h : tree.LiesAt files self.root) (relative : RelativePath) :
    self.indexPath relative = self.pathTo relative.parts.isEmpty relative.index.parts := by
  have hindex : pathOfText indexFile = ⟨false, [.name (Text.utf8 indexFile)]⟩ := by decide
  rw [ServeDir.indexPath, candidate_eq h, FilePath.join, isEmpty_pathTo h, hindex]
  exact (pathTo_concat _ _ _).symm

/-- The path of a variant of a path that ends in a name. -/
theorem appendSuffix_pathTo (h : tree.LiesAt files self.root) (here : Bool) {parts : List Str}
    (hparts : parts ≠ []) (suffix : Str) :
    appendSuffix (self.pathTo here parts) suffix = self.pathTo here (withSuffix suffix parts) := by
  obtain ⟨before, part, rfl⟩ := (List.eq_nil_or_concat' parts).resolve_left hparts
  rw [withSuffix_concat, pathTo_concat, pathTo_concat, appendSuffix, FilePath.fileName_concat,
    FilePath.withFileName_concat (isEmpty_pathTo h here before), Option.getD_some,
    Text.utf8_append]

/-- **What a path leads to** is what is in the tree. The root is resolved first, through links if
there are any, and from there on the walk follows the tree. -/
theorem find_pathTo (h : tree.LiesAt files self.root) :
    ∃ location, files.canonicalize self.root = some location ∧ ∀ here parts,
      files.canonicalize (self.pathTo here parts) =
          (tree.get parts).map (fun _ ↦ location ++ parts.map Text.utf8) ∧
        files.find (self.pathTo here parts) =
          (tree.get parts).map fun found ↦ (location ++ parts.map Text.utf8, found) := by
  obtain ⟨location, hlocation, hroot⟩ := h
  refine ⟨location, hlocation, fun here parts ↦ ?_⟩
  refine FileSystem.find_append hlocation hroot tree.plain ?_ _
  rcases here with - | -
  · exact .inl rfl
  · exact .inr ⟨rfl, tree.isDir⟩

/-- The file opened at a path is that of the tree. -/
theorem openFile_pathTo (h : tree.LiesAt files self.root) :
    ∃ location, ∀ here parts, files.openFile (self.pathTo here parts) =
      (tree.fileAt parts).map fun data ↦ ⟨location ++ parts.map Text.utf8, data⟩ := by
  obtain ⟨location, -, hfind⟩ := find_pathTo h
  refine ⟨location, fun here parts ↦ ?_⟩
  have hroot : tree.root.get (parts.map Text.utf8) = tree.get parts := rfl
  rw [Files.openFile, FileSystem.findFile, (hfind here parts).2, AssetTree.fileAt, FileTree.fileAt,
    hroot]
  rcases tree.get parts with - | data | target | entries
  · rfl
  · rfl
  · rfl
  · rfl

/-- A candidate in the tree passes the check. -/
theorem admits_of_get (h : tree.LiesAt files self.root) {relative : RelativePath}
    {found : FileTree Bytes FileData} (hget : tree.get relative.parts = some found) :
    self.Admits files relative := by
  obtain ⟨location, hlocation, hfind⟩ := find_pathTo h
  refine .inr ?_
  rw [pathContained, hlocation, candidate_eq h, (hfind _ _).1, hget]
  exact List.isPrefixOf_iff_prefix.2 (List.prefix_append _ _)

/-! ### Nothing leads out of a tree -/

/-- What a request can name is a path of components below the root. -/
theorem exists_eq_pathTo_of_names (h : tree.LiesAt files self.root) {path : FilePath Bytes}
    (hnames : self.Names files path) : ∃ here parts, path = self.pathTo here parts := by
  obtain ⟨relative, -⟩ | ⟨relative, -, -, -⟩ := hnames
  · exact ⟨_, _, candidate_eq h relative⟩
  · exact ⟨_, _, indexPath_eq h relative⟩

/-- So is what is opened unchecked: a variant lies beside its file. -/
theorem exists_eq_pathTo_of_unchecked (h : tree.LiesAt files self.root) {path : FilePath Bytes}
    (hunchecked : self.Unchecked files path) : ∃ here parts, path = self.pathTo here parts := by
  obtain ⟨hnames, hfile, -⟩ | ⟨relative, -, -, -⟩ := hunchecked
  · obtain ⟨here, parts, rfl⟩ := exists_eq_pathTo_of_names h hnames
    have hparts : parts ≠ [] := by
      rintro rfl
      obtain ⟨location, hopen⟩ := openFile_pathTo h
      rw [hopen, AssetTree.fileAt_nil] at hfile
      cases hfile
    exact ⟨here, _, appendSuffix_pathTo h here hparts _⟩
  · exact ⟨_, _, indexPath_eq h relative⟩

/-- Of a tree without links nothing that is opened lies outside. -/
theorem uncheckedInside_of_liesAt [HttpDateLib] (h : tree.LiesAt files self.root) :
    self.UncheckedInside files := by
  intro path hunchecked file hopen _
  obtain ⟨here, parts, rfl⟩ := exists_eq_pathTo_of_unchecked h hunchecked
  obtain ⟨location, hlocation, hfind⟩ := find_pathTo h
  refine ⟨location, hlocation, ?_⟩
  rw [Files.openFile, FileSystem.findFile, (hfind here parts).2] at hopen
  rcases hget : tree.get parts with - | data | target | entries
  all_goals rw [hget] at hopen
  · cases hopen
  · obtain rfl := Option.some.inj hopen
    exact List.prefix_append _ _
  · cases hopen
  · cases hopen

end Find

/-! ### A directory without links -/

section Pressed

attribute [local instance] noDates unweighted octets

/-- A page with its compressed form, and a directory with an index page. -/
def pressedTree : AssetTree where
  root := .dir [(osName "a.txt", .file (oneByte 0)), (osName "a.txt.br", .file (oneByte 1)),
    (osName "docs", .dir [(osName "index.html", .file (oneByte 2))])]
  isDir := rfl
  plain := by
    have hname : ∀ name ∈ ["a.txt", "a.txt.br", "docs", "index.html"], IsAssetName (osName name) :=
      fun name hname ↦ ⟨name.toList, rfl, by revert name; decide⟩
    refine .dir ?_ (by decide) ?_
    · exact List.forall_mem_cons.2 ⟨hname _ (by decide), List.forall_mem_cons.2
        ⟨hname _ (by decide), List.forall_mem_singleton.2 (hname _ (by decide))⟩⟩
    · refine List.forall_mem_cons.2 ⟨.file _, List.forall_mem_cons.2 ⟨.file _,
        List.forall_mem_singleton.2 (.dir ?_ (by decide) ?_)⟩⟩
      · exact List.forall_mem_singleton.2 (hname _ (by decide))
      · exact List.forall_mem_singleton.2 (.file _)

/-- The directory in a file system, beside a secret. -/
def pressedDisk : Files where
  root := .dir [(osName "srv", pressedTree.root), (osName "secret", .file (oneByte 3))]
  workingDir := []
  isDir_workingDir := rfl
  maxLinks := 40

/-- The service for the directory, looking for compressed forms and for index pages. -/
def pressedDir : ServeDir :=
  { brDir with appendIndexHtmlOnDirectories := true }

/-- The compressed form and the index page are opened unchecked, and nothing is streamed that lies
outside. -/
theorem pressedDir_streamsInside :
    (∃ path, pressedDir.Unchecked pressedDisk path ∧ (pressedDisk.openFile path).isSome) ∧
      pressedDir.StreamsInside (AssocList HeaderName HeaderValue) (Option OriginalUri)
        pressedDisk := by
  let page : RelativePath := ⟨["a.txt".toList], by decide⟩
  refine ⟨⟨appendSuffix (pressedDir.candidate page) ".br".toList,
    .sibling (.candidate page (.inr (by decide))) (by decide) (by decide), by decide⟩, ?_⟩
  exact (streamsInside_iff rfl).2
    (uncheckedInside_of_liesAt (show pressedTree.LiesAt pressedDisk pressedDir.root from
      ⟨[osName "srv"], by decide, rfl⟩))

end Pressed

/-! ### The embedded tree -/

/-- The set of assets is that of the files of the tree. The path of a file is its components with
separators between; what is looked up here are paths that lead down. -/
structure RustEmbed.Embeds (assets : RustEmbed) (tree : AssetTree) : Prop where
  mem_iter : ∀ path, path ∈ assets.iter ↔
    ∃ parts data, tree.fileAt parts = some data ∧ path = ['/'].intercalate parts
  get : ∀ relative : RelativePath, (assets.get relative.assetPath).map EmbeddedFile.data =
    (tree.fileAt relative.parts).map FileData.content

section Embedded

variable {tree : AssetTree} {assets : RustEmbed}

/-- The components of a path to something in the tree are names. -/
theorem AssetTree.names_of_get {parts : List Str} {found : FileTree Bytes FileData}
    (h : tree.get parts = some found) :
    (∀ part ∈ parts, part ≠ [] ∧ '/' ∉ part) ∧ found.Plain IsAssetName := by
  obtain ⟨hnames, hplain⟩ := tree.plain.get h
  refine ⟨fun part hpart ↦ ?_, hplain⟩
  obtain ⟨part', heq, hnil, -, -, hslash, -⟩ := hnames _ (List.mem_map_of_mem hpart)
  obtain rfl := Text.utf8_injective heq
  exact ⟨hnil, hslash⟩

/-- The text of a path that leads on from a directory. -/
theorem intercalate_below (relative : RelativePath) {behind : List Str} (hbehind : behind ≠ []) :
    ['/'].intercalate (relative.parts ++ behind) =
      dirPrefix relative.assetPath ++ ['/'].intercalate behind := by
  rw [dirPrefix, trim_assetPath]
  by_cases hparts : relative.parts = []
  · rw [if_pos ((assetPath_eq_nil_iff relative).2 hparts), hparts]
    rfl
  · rw [if_neg ((assetPath_eq_nil_iff relative).not.2 hparts), List.append_assoc]
    exact intercalate_append _ hparts hbehind

/-- **The paths below a directory** are those that lead on from it. A prefix of a text that ends at
a slash ends between two components. -/
theorem isPrefix_iff_below (relative : RelativePath) {parts : List Str} (hparts : parts ≠ [])
    (hnames : ∀ part ∈ parts, part ≠ [] ∧ '/' ∉ part) :
    dirPrefix relative.assetPath <+: ['/'].intercalate parts ∧
        (dirPrefix relative.assetPath).length < (['/'].intercalate parts).length ↔
      ∃ part rest, parts = relative.parts ++ part :: rest := by
  constructor
  · rintro ⟨⟨text, htext⟩, hlength⟩
    have hsplit := List.splitOn_intercalate '/' (fun part hpart ↦ (hnames part hpart).2) hparts
    by_cases hrelative : relative.parts = []
    · obtain ⟨part, rest, rfl⟩ := List.exists_cons_of_ne_nil hparts
      exact ⟨part, rest, by rw [hrelative]; rfl⟩
    · rw [dirPrefix, trim_assetPath, if_neg ((assetPath_eq_nil_iff relative).not.2 hrelative),
        List.append_assoc, List.singleton_append] at htext
      rw [← htext, List.splitOn_append_cons_self, RelativePath.assetPath,
        List.splitOn_intercalate '/' (fun part hpart ↦ (relative.proper part hpart).slash)
          hrelative] at hsplit
      obtain ⟨part, rest, hrest⟩ := List.exists_cons_of_ne_nil (List.splitOn_ne_nil '/' text)
      exact ⟨part, rest, by rw [← hsplit, hrest]⟩
  · rintro ⟨part, rest, rfl⟩
    rw [intercalate_below relative (List.cons_ne_nil _ _)]
    refine ⟨List.prefix_append _ _, ?_⟩
    obtain ⟨hne, -⟩ := hnames part (List.mem_append_right _ List.mem_cons_self)
    obtain ⟨c, part, rfl⟩ := List.exists_cons_of_ne_nil hne
    rw [List.length_append, List.intercalate_cons_cons_left]
    exact Nat.lt_add_of_pos_right (Nat.succ_pos _)

/-- What is entered into the listing of a directory for a path below it. -/
theorem embeddedEntry_below (relative : RelativePath) {part : Str} {rest : List Str}
    (hnames : ∀ name ∈ part :: rest, name ≠ [] ∧ '/' ∉ name) :
    embeddedEntry relative.assetPath (['/'].intercalate (relative.parts ++ part :: rest)) =
      some (part ++ if rest = [] then [] else ['/']) := by
  obtain ⟨hne, hslash⟩ := hnames part List.mem_cons_self
  have htext : ['/'].intercalate (part :: rest) ≠ [] := by
    obtain ⟨c, part, rfl⟩ := List.exists_cons_of_ne_nil hne
    rw [List.intercalate_cons_cons_left]
    exact List.cons_ne_nil _ _
  rw [intercalate_below relative (List.cons_ne_nil _ _), embeddedEntry]
  have hcond : ¬ ((!(dirPrefix relative.assetPath).isPrefixOf
      (dirPrefix relative.assetPath ++ ['/'].intercalate (part :: rest))) = true ∨
      (dirPrefix relative.assetPath ++ ['/'].intercalate (part :: rest)).length =
        (dirPrefix relative.assetPath).length) := by
    rw [not_or, Bool.not_eq_true', Bool.not_eq_false, List.isPrefixOf_iff_prefix,
      List.length_append]
    refine ⟨List.prefix_append _ _, fun h ↦ htext (List.length_eq_zero_iff.1 ?_)⟩
    omega
  rw [if_neg (by simpa using hcond), List.drop_left]
  rcases rest with - | ⟨next, rest⟩
  · simp [List.intercalate_singleton, List.splitOn_eq_singleton hslash, hslash]
  · rw [List.intercalate_cons_cons, List.append_assoc, List.singleton_append]
    simp [List.splitOn_append_cons_self_of_not_mem hslash]

/-- What is in a tree of assets is reached by texts. -/
theorem exists_parts_of_get {found sub : FileTree Bytes FileData} {location : List Bytes}
    (hplain : found.Plain IsAssetName) (h : found.get location = some sub) :
    ∃ parts : List Str, location = parts.map Text.utf8 := by
  have hnames := (hplain.get h).1
  clear h
  induction location with
  | nil => exact ⟨[], rfl⟩
  | cons name location ih =>
    obtain ⟨⟨part, rfl, -⟩, hlocation⟩ := List.forall_mem_cons.1 hnames
    obtain ⟨parts, rfl⟩ := ih hlocation
    exact ⟨part :: parts, rfl⟩

/-- A file below a path lies in what is at the path. -/
theorem AssetTree.fileAt_append_eq_some_iff {parts behind : List Str} {data : FileData} :
    tree.fileAt (parts ++ behind) = some data ↔
      ∃ found, tree.get parts = some found ∧
        found.get (behind.map Text.utf8) = some (.file data) := by
  rw [AssetTree.fileAt_eq_some_iff, AssetTree.get_append, Option.bind_eq_some_iff]

/-- The paths in the set that lead on from a directory. -/
theorem exists_mem_iter_below_iff (hembeds : assets.Embeds tree) (relative : RelativePath)
    {path : Str} :
    path ∈ assets.iter ∧ dirPrefix relative.assetPath <+: path ∧
        (dirPrefix relative.assetPath).length < path.length ↔
      ∃ part rest data, tree.fileAt (relative.parts ++ part :: rest) = some data ∧
        path = ['/'].intercalate (relative.parts ++ part :: rest) := by
  constructor
  · rintro ⟨hmem, hbelow⟩
    obtain ⟨parts, data, hdata, rfl⟩ := (hembeds.mem_iter path).1 hmem
    have hne : parts ≠ [] := by
      rintro rfl
      rw [AssetTree.fileAt_nil] at hdata
      exact nomatch hdata
    have hnames := (AssetTree.names_of_get (AssetTree.fileAt_eq_some_iff.1 hdata)).1
    obtain ⟨part, rest, rfl⟩ := (isPrefix_iff_below relative hne hnames).1 hbelow
    exact ⟨part, rest, data, hdata, rfl⟩
  · rintro ⟨part, rest, data, hdata, rfl⟩
    have hnames := (AssetTree.names_of_get (AssetTree.fileAt_eq_some_iff.1 hdata)).1
    exact ⟨(hembeds.mem_iter _).2 ⟨_, data, hdata, rfl⟩,
      (isPrefix_iff_below relative (by simp) hnames).2 ⟨part, rest, rfl⟩⟩

/-- **A directory of the tree is there** if it holds a file. One without any file has left no trace
in the names of the assets. -/
theorem embeddedDirExists_iff (hembeds : assets.Embeds tree) (relative : RelativePath) :
    embeddedDirExists assets relative.assetPath ↔
      ∃ entries, tree.get relative.parts = some (.dir entries) ∧
        (FileTree.dir entries).HoldsFile := by
  have hany : embeddedDirExists assets relative.assetPath ↔
      ∃ part rest data, tree.fileAt (relative.parts ++ part :: rest) = some data := by
    rw [embeddedDirExists, List.any_eq_true]
    simp only [Bool.and_eq_true, List.isPrefixOf_iff_prefix, decide_eq_true_eq,
      exists_mem_iter_below_iff hembeds]
    constructor
    · rintro ⟨path, part, rest, data, hdata, -⟩
      exact ⟨part, rest, data, hdata⟩
    · rintro ⟨part, rest, data, hdata⟩
      exact ⟨_, part, rest, data, hdata, rfl⟩
  rw [hany]
  constructor
  · rintro ⟨part, rest, data, hdata⟩
    obtain ⟨found, hfound, hget⟩ := AssetTree.fileAt_append_eq_some_iff.1 hdata
    obtain ⟨child, hchild, -⟩ := Option.bind_eq_some_iff.1 hget
    rcases found with data' | target | entries
    · exact nomatch hchild
    · exact nomatch hchild
    · exact ⟨entries, hfound, _, data, hget⟩
  · rintro ⟨entries, hfound, location, data, hget⟩
    obtain ⟨parts, rfl⟩ := exists_parts_of_get (AssetTree.names_of_get hfound).2 hget
    rcases parts with - | ⟨part, rest⟩
    · exact nomatch hget
    · exact ⟨part, rest, data, AssetTree.fileAt_append_eq_some_iff.2 ⟨_, hfound, hget⟩⟩

/-- The label of an entry in a listing. -/
def entryLabel (entry : Bytes × FileTree Bytes FileData) : Str :=
  Text.fromUtf8Lossy entry.1 ++ if entry.2.isDir then ['/'] else []

/-- **What is listed of a directory** are the entries that hold a file. -/
theorem mem_filterMap_embeddedEntry (hembeds : assets.Embeds tree) {relative : RelativePath}
    {entries : List (Bytes × FileTree Bytes FileData)}
    (hdir : tree.get relative.parts = some (.dir entries)) {label : Str} :
    label ∈ assets.iter.filterMap (embeddedEntry relative.assetPath) ↔
      ∃ entry ∈ entries, entry.2.HoldsFile ∧ label = entryLabel entry := by
  obtain ⟨-, hplain⟩ := AssetTree.names_of_get hdir
  have hlabel : ∀ {part : Str} {rest : List Str} {sub : FileTree Bytes FileData} {data : FileData},
      sub.get (rest.map Text.utf8) = some (.file data) →
        entryLabel (Text.utf8 part, sub) = part ++ if rest = [] then [] else ['/'] := by
    intro part rest sub data hget
    rw [entryLabel, Text.fromUtf8Lossy_utf8]
    rcases rest with - | ⟨next, rest⟩
    · rw [Option.some.inj hget]
      rfl
    · obtain ⟨child, hchild, -⟩ := Option.bind_eq_some_iff.1 hget
      rw [if_pos (FileTree.isDir_of_child_eq_some hchild), if_neg (List.cons_ne_nil _ _)]
  rw [List.mem_filterMap]
  cases hplain with
  | dir names nodup sub =>
    constructor
    · rintro ⟨path, hmem, hentry⟩
      -- A path that is listed lies below the directory.
      have hbelow : dirPrefix relative.assetPath <+: path ∧
          (dirPrefix relative.assetPath).length < path.length := by
        rw [embeddedEntry] at hentry
        split at hentry
        · exact nomatch hentry
        · next hcond =>
          rw [Bool.or_eq_true, not_or, Bool.not_eq_true, Bool.not_eq_false',
            List.isPrefixOf_iff_prefix, decide_eq_true_eq] at hcond
          exact ⟨hcond.1, lt_of_le_of_ne hcond.1.length_le (Ne.symm hcond.2)⟩
      obtain ⟨part, rest, data, hdata, rfl⟩ :=
        (exists_mem_iter_below_iff hembeds relative).1 ⟨hmem, hbelow⟩
      have hnames := (AssetTree.names_of_get (AssetTree.fileAt_eq_some_iff.1 hdata)).1
      obtain ⟨found, hfound, hget⟩ := AssetTree.fileAt_append_eq_some_iff.1 hdata
      obtain rfl := Option.some.inj (hdir.symm.trans hfound)
      obtain ⟨child, hchild, hrest⟩ := Option.bind_eq_some_iff.1 hget
      refine ⟨(Text.utf8 part, child), (FileTree.lookup_eq_some_iff_mem nodup).1 hchild,
        ⟨_, data, hrest⟩, ?_⟩
      rw [embeddedEntry_below relative fun name hname ↦ hnames name (List.mem_append_right _ hname)]
        at hentry
      rw [hlabel hrest]
      exact (Option.some.inj hentry).symm
    · rintro ⟨⟨name, child⟩, hmem, ⟨location, data, hget⟩, rfl⟩
      obtain ⟨part, rfl, -⟩ := names _ hmem
      -- The file below the entry is embedded, and its path gives the label.
      obtain ⟨rest, rfl⟩ := exists_parts_of_get (sub _ hmem) hget
      have hdata : tree.fileAt (relative.parts ++ part :: rest) = some data := by
        refine AssetTree.fileAt_append_eq_some_iff.2 ⟨_, hdir, ?_⟩
        rw [List.map_cons, FileTree.get, FileTree.child,
          (FileTree.lookup_eq_some_iff_mem nodup).2 hmem]
        exact hget
      have hnames := (AssetTree.names_of_get (AssetTree.fileAt_eq_some_iff.1 hdata)).1
      refine ⟨_, (hembeds.mem_iter _).2 ⟨_, data, hdata, rfl⟩, ?_⟩
      rw [embeddedEntry_below relative fun name hname ↦ hnames name (List.mem_append_right _ hname),
        hlabel hget]

end Embedded

end Static
