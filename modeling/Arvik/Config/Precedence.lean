import Arvik.Config.Overrides
import Mathlib.Data.List.Induction

/-!
# Precedence of configuration sources

Defaults, files and environment are put together with a fixed precedence: the environment before
the files, a later file before an earlier one, the files before the defaults.

## The statement

`Given` is what the environment says: which setting is overridden, and with which value. It rests on
the description of the variables alone (`Overrides`), so a builder that ignores a variable, writes
it to another path or reads its text as another value breaks it. `IsSource` adds the files and the
defaults, and `Precedence` says what the merged tree has to be: the value of its source at every
path, no setting lost, and nothing changed that no variable names.

## The argument

Every variable overrides a field of a section, and variables of different names override different
fields (`putsApart_overrides`): the name of a variable is its path in upper case, and no two paths
of the schema are the same in upper case. Paths of the same length that differ do not meet, so the
order of writing does not matter, and each written value is still there in the end. What the files
have at a path is found from the last file backwards (`fileSource`), by induction over the files;
there the assumption counts that the sections of a file are objects, for another value in the place
of a section would hide the fields of earlier files. `merged_precedence` puts the parts together.
-/

namespace Config

/-! ### Variables override settings of their own -/

theorem apart_of_length_eq {path path' : List Str} (hlength : path.length = path'.length)
    (h : path ≠ path') : KeyedTree.Apart path path' :=
  ⟨fun hp ↦ h (hp.eq_of_length hlength), fun hp ↦ h (hp.eq_of_length hlength.symm).symm⟩

theorem length_path_of_mem_overrides {envPrefix : Str} {env : List (OsString × OsString)}
    {setting : KeyedTree.Put Str Scalar} (h : setting ∈ overrides envPrefix env) :
    setting.path.length = 2 := by
  obtain ⟨pair, -, base, -, sect, -, field, -, text, -, hpath, -⟩ := mem_overrides_iff.1 h
  rw [hpath]
  rfl

/-- The variable of a setting, by its path. -/
theorem fst_eq_of_overrides {envPrefix : Str} {pair : OsString × OsString} {path : List Str}
    {value : Scalar} (h : Overrides envPrefix pair path value) :
    pair.1 = some (['_'].intercalate
      ((envStart envPrefix).dropLast :: path.map (List.map Char.toUpper))) := by
  obtain ⟨base, hbase, sect, -, field, -, text, rfl, rfl, -⟩ := h
  rw [isBase_iff.1 hbase, List.dropLast_concat]
  rfl

/-- Variables of different names override different settings. -/
theorem putsApart_overrides {envPrefix : Str} {env : List (OsString × OsString)}
    (hnames : (env.filterMap Prod.fst).Nodup) :
    KeyedTree.PutsApart (overrides envPrefix env) := by
  refine List.pairwise_filterMap.2 ((List.pairwise_filterMap.1 hnames).imp ?_)
  intro pair pair' hne setting hsetting setting' hsetting'
  have hlength : ∀ {pair setting}, overrideOf envPrefix pair = some setting →
      setting.path.length = 2 := by
    intro pair setting h
    have hmem : setting ∈ overrides envPrefix [pair] :=
      List.mem_filterMap.2 ⟨pair, List.mem_singleton_self pair, h⟩
    exact length_path_of_mem_overrides hmem
  have hname := fst_eq_of_overrides (overrideOf_eq_some_iff.1 hsetting)
  have hname' := fst_eq_of_overrides (overrideOf_eq_some_iff.1 hsetting')
  refine apart_of_length_eq ((hlength hsetting).trans (hlength hsetting').symm) fun heq ↦ ?_
  exact hne _ hname _ hname' (by rw [heq])

/-! ### Files over defaults -/

/-- The value at a path before the environment: that of the last file that defines the path, or
else the default. -/
def fileSource (defaults : Value) (documents : List Value) (path : List Str) : Option Scalar :=
  match documents.reverse.findSome? (·.tree.get path) with
  | some tree => tree.leaf?
  | none => defaults.tree.valueAt path

theorem fileSource_concat (defaults : Value) (documents : List Value) (document : Value)
    (path : List Str) :
    fileSource defaults (documents ++ [document]) path = match document.tree.get path with
      | some tree => tree.leaf?
      | none => fileSource defaults documents path := by
  rw [fileSource, List.reverse_concat, List.findSome?_cons]
  rcases document.tree.get path with - | tree <;> rfl

/-- Every value of files over defaults has its source. -/
theorem fileSource_of_valueAt {defaults : Value} {documents : List Value} {path : List Str}
    {value : Scalar}
    (h : (documents.foldl mergeValues defaults).tree.valueAt path = some value) :
    fileSource defaults documents path = some value := by
  induction documents using List.reverseRecOn generalizing value with
  | nil => exact h
  | append_singleton documents document ih =>
    rw [List.foldl_append, List.foldl_cons, List.foldl_nil] at h
    rw [fileSource_concat]
    rcases hget : document.tree.get path with - | tree
    · exact ih (KeyedTree.valueAt_of_valueAt_merge document.ordered hget h)
    · exact (KeyedTree.valueAt_merge_of_get _ _ document.ordered hget).symm.trans h

/-- The sections of a file are objects. A file may have anything else in the place of a section, and
then the section as a whole is replaced. -/
def SectionsAreObjects (document : Value) : Prop :=
  ∃ sections, document.tree = .node sections ∧
    ∀ sect ∈ sections, ∃ fields, sect.2 = .node fields

/-- At the path of a setting, a file with objects for sections either has a field, or leaves the
path alone. -/
theorem valueAt_eq_none_of_sectionsAreObjects {document : Value}
    (h : SectionsAreObjects document) {sect key : Str}
    (hget : document.tree.get [sect, key] = none) :
    ∀ above, above <+: [sect, key] → document.tree.valueAt above = none := by
  obtain ⟨sections, htree, hobjects⟩ := h
  intro above habove
  rcases List.prefix_cons_iff.1 habove with rfl | ⟨rest, rfl, hrest⟩
  · rw [htree]
    rfl
  rcases List.prefix_cons_iff.1 hrest with rfl | ⟨rest', rfl, hrest'⟩
  · rw [htree]
    exact KeyedTree.valueAt_singleton_of_forall hobjects sect
  · rw [List.prefix_nil.1 hrest', KeyedTree.valueAt, hget]
    rfl

/-- A setting of files over defaults is what its source has. -/
theorem valueAt_setting_eq {defaults : Value} {documents : List Value}
    (h : ∀ document ∈ documents, SectionsAreObjects document) (sect key : Str) :
    (documents.foldl mergeValues defaults).tree.valueAt [sect, key] =
      fileSource defaults documents [sect, key] := by
  induction documents using List.reverseRecOn with
  | nil => rfl
  | append_singleton documents document ih =>
    obtain ⟨hdocuments, hdocument⟩ := List.forall_mem_append.1 h
    rw [List.foldl_append, List.foldl_cons, List.foldl_nil, fileSource_concat]
    rcases hget : document.tree.get [sect, key] with - | tree
    · have hclear := valueAt_eq_none_of_sectionsAreObjects
        (hdocument document List.mem_cons_self) hget
      rw [← ih hdocuments, KeyedTree.valueAt, KeyedTree.valueAt]
      exact congrArg (Option.bind · KeyedTree.leaf?)
        (KeyedTree.get_merge_of_forall _ _ document.ordered hget hclear)
    · exact KeyedTree.valueAt_merge_of_get _ _ document.ordered hget

/-! ### Precedence -/

/-- The environment gives the setting at a path a value. -/
def Given (envPrefix : Str) (env : List (OsString × OsString)) (path : List Str)
    (value : Scalar) : Prop :=
  ∃ pair ∈ env, Overrides envPrefix pair path value

/-- The value at a path is that of the environment, or else that of the last file that defines the
path, or else the default. -/
structure IsSource (defaults : Value) (documents : List Value) (given : List Str → Scalar → Prop)
    (path : List Str) (value : Option Scalar) : Prop where
  environment : ∀ set, given path set → value = some set
  files : (∀ set, ¬ given path set) → value = fileSource defaults documents path

/-- What a merged tree has to be, for defaults, files and what an environment gives: the environment
comes before the files, a later file before an earlier one, and the defaults come last. -/
structure Precedence (defaults : Value) (documents : List Value) (given : List Str → Scalar → Prop)
    (merged : Value) : Prop where
  /-- Every value is the one of its source. -/
  value : ∀ path value, merged.tree.valueAt path = some value →
    IsSource defaults documents given path (some value)
  /-- No setting is lost: every field of a section has the value of its source, if there is one. -/
  field : ∀ sect key, IsSource defaults documents given [sect, key]
    (merged.tree.valueAt [sect, key])
  /-- What is apart from the settings of the environment stays as the files and defaults have it. -/
  sibling : ∀ path, (∀ path' set, given path' set → KeyedTree.Apart path' path) →
    merged.tree.get path = (documents.foldl mergeValues defaults).tree.get path
  /-- A section that was no object becomes one of its settings alone. -/
  null : ∀ sect value,
    (documents.foldl mergeValues defaults).tree.get [sect] = some (.leaf value) →
      ∀ key set, given [sect, key] set →
        ∃ fields, merged.tree.get [sect] = some (.node fields) ∧ ∀ key tree,
          (KeyedTree.node fields).get [key] = some tree ↔
            ∃ set, given [sect, key] set ∧ tree = .leaf set

/-- Settings that are apart, and what they give. -/
def GivenBy (settings : List (KeyedTree.Put Str Scalar)) (path : List Str) (value : Scalar) :
    Prop :=
  ∃ setting ∈ settings, setting.path = path ∧ setting.value = value

theorem givenBy_overrides_iff {envPrefix : Str} {env : List (OsString × OsString)}
    {path : List Str} {value : Scalar} :
    GivenBy (overrides envPrefix env) path value ↔ Given envPrefix env path value := by
  constructor
  · rintro ⟨setting, hsetting, rfl, rfl⟩
    exact mem_overrides_iff.1 hsetting
  · rintro ⟨pair, hpair, hoverrides⟩
    obtain ⟨base, hbase, sect, hsect, field, hfield, text, hname, rfl, hreads⟩ := hoverrides
    exact ⟨⟨[sect.1.toList], field.1.toList, value⟩, mem_overrides_iff.2 ⟨pair, hpair, base, hbase,
      sect, hsect, field, hfield, text, hname, rfl, hreads⟩, rfl, rfl⟩

section Settings

variable {root : Value} {settings : List (KeyedTree.Put Str Scalar)}

/-- What is written is there. -/
theorem get_setAll_of_givenBy (hapart : KeyedTree.PutsApart settings) {path : List Str}
    {value : Scalar} (h : GivenBy settings path value) :
    (setAll root settings).tree.get path = some (.leaf value) := by
  obtain ⟨setting, hsetting, rfl, rfl⟩ := h
  rw [setAll_tree]
  exact KeyedTree.get_putAll_of_mem hapart hsetting _

/-- A field that no setting names is left. -/
theorem get_setAll_of_not_givenBy (hlength : ∀ setting ∈ settings, setting.path.length = 2)
    {sect key : Str} (h : ∀ value, ¬ GivenBy settings [sect, key] value) :
    (setAll root settings).tree.get [sect, key] = root.tree.get [sect, key] := by
  rw [setAll_tree]
  refine KeyedTree.get_putAll_of_apart (fun setting hsetting ↦ ?_) _
  exact apart_of_length_eq (hlength setting hsetting) fun hpath ↦
    h setting.value ⟨setting, hsetting, hpath, rfl⟩

/-- A scalar turns into a section with the fields that the settings give it. -/
theorem exists_fields_setAll (hapart : KeyedTree.PutsApart settings)
    (hlength : ∀ setting ∈ settings, setting.path.length = 2) {sect key : Str}
    {value set : Scalar} (hleaf : root.tree.get [sect] = some (.leaf value))
    (hset : GivenBy settings [sect, key] set) :
    ∃ fields, (setAll root settings).tree.get [sect] = some (.node fields) ∧ ∀ key tree,
      (KeyedTree.node fields).get [key] = some tree ↔
        ∃ set, GivenBy settings [sect, key] set ∧ tree = .leaf set := by
  obtain ⟨tree, htree, hkey⟩ := Option.bind_eq_some_iff.1
    ((KeyedTree.get_append _ [sect] [key]).symm.trans (get_setAll_of_givenBy hapart hset))
  cases tree with
  | leaf value => cases hkey
  | node fields =>
    refine ⟨fields, htree, fun key tree ↦ ?_⟩
    have hfields : (setAll root settings).tree.get [sect, key] =
        (KeyedTree.node fields).get [key] := by
      refine (KeyedTree.get_append _ [sect] [key]).trans ?_
      rw [htree]
      rfl
    rw [← hfields]
    by_cases hgiven : ∃ set, GivenBy settings [sect, key] set
    · obtain ⟨set, hset⟩ := hgiven
      rw [get_setAll_of_givenBy hapart hset, Option.some.injEq]
      constructor
      · rintro rfl
        exact ⟨set, hset, rfl⟩
      · rintro ⟨set', hset', rfl⟩
        have hget : (setAll root settings).tree.get [sect, key] = some (.leaf set') :=
          get_setAll_of_givenBy hapart hset'
        rwa [get_setAll_of_givenBy hapart hset, Option.some.injEq] at hget
    · have hnone : root.tree.get [sect, key] = none := by
        refine (KeyedTree.get_append _ [sect] [key]).trans ?_
        rw [hleaf]
        rfl
      rw [get_setAll_of_not_givenBy hlength fun set hset ↦ hgiven ⟨set, hset⟩, hnone]
      exact iff_of_false (fun h ↦ by cases h) fun ⟨set, hset, _⟩ ↦ hgiven ⟨set, hset⟩

end Settings

theorem precedence_setAll {defaults : Value} {documents : List Value}
    (hsections : ∀ document ∈ documents, SectionsAreObjects document)
    {settings : List (KeyedTree.Put Str Scalar)} (hapart : KeyedTree.PutsApart settings)
    (hlength : ∀ setting ∈ settings, setting.path.length = 2) :
    Precedence defaults documents (GivenBy settings)
      (setAll (documents.foldl mergeValues defaults) settings) where
  value path value hvalue := by
    constructor
    · intro set hset
      rw [KeyedTree.valueAt, get_setAll_of_givenBy hapart hset] at hvalue
      exact hvalue.symm
    · intro hnot
      rw [setAll_tree] at hvalue
      rcases KeyedTree.valueAt_putAll hapart hvalue with ⟨setting, hmem, hpath, -⟩ | ⟨-, hbefore⟩
      · exact absurd ⟨setting, hmem, hpath, rfl⟩ (hnot setting.value)
      · exact (fileSource_of_valueAt hbefore).symm
  field sect key := by
    constructor
    · intro set hset
      rw [KeyedTree.valueAt, get_setAll_of_givenBy hapart hset]
      rfl
    · intro hnot
      rw [← valueAt_setting_eq hsections, KeyedTree.valueAt, KeyedTree.valueAt,
        get_setAll_of_not_givenBy hlength hnot]
  sibling path hpath := by
    rw [setAll_tree]
    exact KeyedTree.get_putAll_of_apart (fun setting hsetting ↦
      hpath setting.path setting.value ⟨setting, hsetting, rfl, rfl⟩) _
  null sect value hleaf key set hset := exists_fields_setAll hapart hlength hleaf hset

/-- Files that can be read are laid over the defaults in their order. -/
theorem merged_eq [FormatLib] {read : Str → Option Str} {files : List Str}
    {documents : List Value}
    (hfiles : List.Forall₂ (fun file document ↦ loadFile read file = .ok document) files documents)
    (envPrefix : Str) (env : List (OsString × OsString)) (defaults : Value) :
    merged read files envPrefix env defaults =
      applyEnv (documents.foldl mergeValues defaults) envPrefix env := by
  induction hfiles generalizing defaults with
  | nil => rfl
  | @cons file document files documents hfile hfiles ih =>
    refine Eq.trans ?_ (ih (mergeValues defaults document))
    rw [merged, List.foldlM_cons, hfile]
    rfl

/-- **Precedence**: for all defaults, files with objects for sections, and environments of valid
variables with different names, the merged tree has at every path the value of its source, loses no
setting, keeps what the environment does not name, and is the same whatever the order of the
environment. -/
theorem merged_precedence [FormatLib] {read : Str → Option Str} {files : List Str}
    {documents : List Value}
    (hfiles : List.Forall₂ (fun file document ↦ loadFile read file = .ok document) files documents)
    (hsections : ∀ document ∈ documents, SectionsAreObjects document) {envPrefix : Str}
    {env : List (OsString × OsString)} (hvalid : ∀ pair ∈ env, ValidVar envPrefix pair)
    (hnames : (env.filterMap Prod.fst).Nodup) (defaults : Value) :
    ∃ tree, (∀ env', env'.Perm env → merged read files envPrefix env' defaults = .ok tree) ∧
      Precedence defaults documents (Given envPrefix env) tree := by
  have hapart : KeyedTree.PutsApart (overrides envPrefix env) := putsApart_overrides hnames
  have hgiven : GivenBy (overrides envPrefix env) = Given envPrefix env :=
    funext₂ fun path value ↦ propext givenBy_overrides_iff
  refine ⟨setAll (documents.foldl mergeValues defaults) (overrides envPrefix env),
    fun env' hperm ↦ ?_, hgiven ▸ precedence_setAll hsections hapart fun setting hsetting ↦
      length_path_of_mem_overrides hsetting⟩
  have hvalid' : ∀ pair ∈ env', ValidVar envPrefix pair :=
    fun pair hpair ↦ hvalid pair (hperm.mem_iff.1 hpair)
  rw [merged_eq hfiles, applyEnv_of_valid hvalid']
  have hsame : (setAll (documents.foldl mergeValues defaults) (overrides envPrefix env')).tree =
      (setAll (documents.foldl mergeValues defaults) (overrides envPrefix env)).tree := by
    rw [setAll_tree, setAll_tree]
    exact (KeyedTree.putAll_perm hapart (hperm.symm.filterMap _) _).symm
  exact congrArg Except.ok (Value.ext hsame)

section PortFile

/-- A file that sets the port and the number of workers. -/
def portFile : Value :=
  .object [("server", .object [("port", .number 9000), ("workers", .number 4)])]

/-- The text of that file. -/
def portText : Str :=
  "\x7b\"server\":\x7b\"port\":9000,\"workers\":4\x7d\x7d".toList

/-- A reader of that file. -/
private local instance portReader : FormatLib where
  toml _ := none
  json contents := if contents = portText then some portFile else none
  fromValue _ := none

/-- An environment that overrides the port. -/
def portEnv : List (OsString × OsString) :=
  [(some "PATH".toList, some "/bin".toList),
    (some "ARVIK_SERVER_PORT".toList, some "9090".toList)]

theorem overrides_port :
    Overrides "ARVIK".toList (some "ARVIK_SERVER_PORT".toList, some "9090".toList)
      ["server".toList, "port".toList] (.number (.posInt 9090)) :=
  ⟨"ARVIK".toList, ⟨⟨0, rfl⟩, by decide⟩, _, List.mem_cons_self, ("port", .unsigned 16),
    List.mem_cons_of_mem _ List.mem_cons_self, _, rfl, rfl,
    @Reads.unsigned 16 [] "9090".toList (.inl rfl) (by decide)
      (List.all_eq_true.1 (by decide)) (by decide)⟩

theorem foreign_path : Foreign "ARVIK".toList (some "PATH".toList, some "/bin".toList) := by
  intro base suffix text hbase hpair
  have hname : "PATH".toList = base ++ ['_'] ++ suffix := by
    rw [List.append_assoc]
    exact Option.some.inj (congrArg Prod.fst hpair)
  rw [← isBase_iff.1 hbase] at hname
  have hcons : 'P' :: "ATH".toList = 'A' :: ("RVIK_".toList ++ suffix) := hname
  exact absurd (List.cons.inj hcons).1 (by decide)

/-- The environment overrides the port of the file; the workers are those of the file, and the host
is the default. -/
theorem portFile_precedence :
    ∃ tree, (∀ env', env'.Perm portEnv →
        merged (fun _ ↦ some portText) ["arvik.json".toList] "ARVIK".toList env'
          ({} : ArvikConfig).toValue = .ok tree) ∧
      tree.tree.valueAt ["server".toList, "port".toList] = some (.number (.posInt 9090)) ∧
      tree.tree.valueAt ["server".toList, "workers".toList] = some (.number (.posInt 4)) ∧
      tree.tree.valueAt ["server".toList, "host".toList] =
        some (.string ({} : ServerSection).host) := by
  have hfiles : List.Forall₂ (fun file document ↦ loadFile (fun _ ↦ some portText) file =
      .ok document) ["arvik.json".toList] [portFile] := .cons rfl .nil
  have hsections : ∀ document ∈ [portFile], SectionsAreObjects document := by
    intro document hdocument
    rw [List.mem_singleton.1 hdocument]
    refine ⟨_, rfl, fun sect hsect ↦ ?_⟩
    rw [List.mem_singleton.1 hsect]
    exact ⟨_, rfl⟩
  have hvalid : ∀ pair ∈ portEnv, ValidVar "ARVIK".toList pair := by
    intro pair hpair
    rcases List.mem_cons.1 hpair with rfl | hpair
    · exact .inr foreign_path
    · rw [List.mem_singleton.1 hpair]
      exact .inl ⟨_, _, overrides_port⟩
  obtain ⟨tree, hmerged, hprecedence⟩ :=
    merged_precedence hfiles hsections hvalid (by decide) ({} : ArvikConfig).toValue
  -- What neither variable names is not given by the environment.
  have hnot : ∀ path : List Str, (∀ pair ∈ portEnv, pair.1 ≠ some (['_'].intercalate
      ((envStart "ARVIK".toList).dropLast :: path.map (List.map Char.toUpper)))) →
      ∀ set, ¬ Given "ARVIK".toList portEnv path set := by
    rintro path hpath set ⟨pair, hpair, hoverrides⟩
    exact hpath pair hpair (fst_eq_of_overrides hoverrides)
  refine ⟨tree, hmerged, ?_, ?_, ?_⟩
  · exact (hprecedence.field _ _).environment _
      ⟨_, List.mem_cons_of_mem _ (List.mem_singleton_self _), overrides_port⟩
  · exact (hprecedence.field _ _).files (hnot _ (by decide))
  · exact (hprecedence.field _ _).files (hnot _ (by decide))

end PortFile

end Config
