import Arvik.Static.AssetTree

/-!
# Normalisation of request paths

The text a request path is normalised to, built in one pass over the decoded components as the
program builds it (`relativePathText`). It is the text of the relative path the path stands for
(`relativePathText_eq`), so it is given exactly for the paths that pass every check, and joined to
any root it leads down from there (`relativePath_normalises`).

The program pushes each component onto a text, with a separator in front unless the text is empty.
The components themselves are the better notion to reason with, and the first theorem is the bridge:
an induction on the components to come, with the text built so far as the intercalation of those
that were pushed (`pushComponents_intercalate`). No component being empty is what keeps a text and
its list of components interchangeable.

What is checked of a path is a condition on its text alone (`Normalises`): every percent sign starts
an escape, the decoded bytes are UTF-8, and no component of the decoded text leads up, starts with a
separator or has a backslash or a NUL in it.
-/

namespace Static

/-! ### One pass over the components -/

/-- The pass over the components of a decoded path, with the text built so far. -/
def pushComponents : Str → List Str → Option Str
  | assetPath, [] => some assetPath
  | assetPath, part :: parts =>
    if part = [] ∨ part = ['.'] then pushComponents assetPath parts
    else if part = ['.', '.'] then none
    else pushComponents ((if assetPath = [] then [] else assetPath ++ ['/']) ++ part) parts

/-- The text of the relative path a request path stands for. -/
def relativePathText (path : Str) : Option Str :=
  if validPercentEncoding (Text.utf8 path) then
    (Percent.decodeUtf8 (path.dropWhile fun c ↦ c = '/')).bind fun decoded ↦
      if decoded.head? = some '/' ∨ '\\' ∈ decoded ∨ '\x00' ∈ decoded then none
      else pushComponents [] (decoded.splitOn '/')
  else none

/-- The components that are kept: empty ones and single dots are dropped. -/
def normalComponents (decoded : Str) : List Str :=
  (decoded.splitOn '/').filter fun part ↦ part ≠ [] ∧ part ≠ ['.']

theorem intercalate_eq_nil_iff {parts : List Str} (h : ∀ part ∈ parts, part ≠ []) :
    ['/'].intercalate parts = [] ↔ parts = [] := by
  rcases parts with - | ⟨part, - | ⟨next, parts⟩⟩
  · exact iff_of_true rfl rfl
  · rw [List.intercalate_singleton]
    exact iff_of_false (h part List.mem_cons_self) (List.cons_ne_nil _ _)
  · rw [List.intercalate_cons_cons]
    exact iff_of_false (by simp) (List.cons_ne_nil _ _)

/-- A component that is pushed is one more in the text. -/
theorem intercalate_push {built : List Str} (h : ∀ part ∈ built, part ≠ []) (part : Str) :
    (if ['/'].intercalate built = [] then [] else ['/'].intercalate built ++ ['/']) ++ part =
      ['/'].intercalate (built ++ [part]) := by
  by_cases hbuilt : built = []
  · subst hbuilt
    exact List.intercalate_singleton.symm
  · rw [if_neg ((intercalate_eq_nil_iff h).not.2 hbuilt),
      intercalate_append _ hbuilt (List.cons_ne_nil _ _), List.intercalate_singleton,
      List.append_assoc]

/-- What the pass makes of the components to come, after some it has pushed. -/
theorem pushComponents_intercalate (parts : List Str) {built : List Str}
    (h : ∀ part ∈ built, part ≠ []) :
    pushComponents (['/'].intercalate built) parts =
      if ['.', '.'] ∈ parts then none
      else some (['/'].intercalate
        (built ++ parts.filter fun part ↦ part ≠ [] ∧ part ≠ ['.'])) := by
  induction parts generalizing built with
  | nil => rw [pushComponents, if_neg List.not_mem_nil, List.filter_nil, List.append_nil]
  | cons part parts ih =>
    rw [pushComponents]
    by_cases hdrop : part = [] ∨ part = ['.']
    · have hup : ['.', '.'] ≠ part := by
        rintro rfl
        exact absurd hdrop (by decide)
      have hfilter : ¬(part ≠ [] ∧ part ≠ ['.']) := fun hkeep ↦ hdrop.elim hkeep.1 hkeep.2
      rw [if_pos hdrop, ih h, List.filter_cons_of_neg (by simpa using hfilter)]
      simp only [List.mem_cons, or_iff_right hup]
    · rw [if_neg hdrop]
      by_cases hup : part = ['.', '.']
      · rw [if_pos hup, if_pos (hup ▸ List.mem_cons_self)]
      · have hkeep : part ≠ [] ∧ part ≠ ['.'] := not_or.1 hdrop
        have hbuilt : ∀ component ∈ built ++ [part], component ≠ [] := by
          rw [List.forall_mem_append, List.forall_mem_singleton]
          exact ⟨h, hkeep.1⟩
        rw [if_neg hup, intercalate_push h, ih hbuilt,
          List.filter_cons_of_pos (by simpa using hkeep), List.append_assoc, List.singleton_append]
        simp only [List.mem_cons, or_iff_right (Ne.symm hup)]

/-- **The pass refines the components**: it builds the text of the relative path a request path
stands for, and fails exactly where the path stands for none. -/
theorem relativePathText_eq (path : Str) :
    relativePathText path = (relativePath path).map RelativePath.assetPath := by
  rw [relativePathText, relativePath]
  split
  · rw [Option.map_bind]
    refine congrArg _ (funext fun decoded ↦ ?_)
    have hbuilt : ∀ part ∈ ([] : List Str), part ≠ [] := fun part hpart ↦
      absurd hpart List.not_mem_nil
    have hpush := pushComponents_intercalate (decoded.splitOn '/') hbuilt
    rw [Function.comp_apply, splitDecoded]
    by_cases hseparators : decoded.head? = some '/' ∨ '\\' ∈ decoded ∨ '\x00' ∈ decoded
    · rw [if_pos hseparators, dif_neg (by tauto)]
      rfl
    · rw [if_neg hseparators]
      refine hpush.trans ?_
      by_cases hup : ['.', '.'] ∈ decoded.splitOn '/'
      · rw [if_pos hup, dif_neg (by tauto)]
        rfl
      · rw [if_neg hup, dif_pos (by tauto)]
        rfl
  · rfl

/-! ### Which paths are normalised -/

/-- What is asked of a request path whose text after the leading slashes stands for the decoded
one. -/
structure Normalises (path decoded : Str) : Prop where
  escapes : ∀ before after, Text.utf8 path = before ++ 37 :: after →
    ∃ h l rest, after = h :: l :: rest ∧ (Percent.hexVal h).isSome ∧ (Percent.hexVal l).isSome
  decodes : Percent.decode (Text.utf8 (path.dropWhile fun c ↦ c = '/')) = Text.utf8 decoded
  separator : decoded.head? ≠ some '/'
  backslash : '\\' ∉ decoded
  nul : '\x00' ∉ decoded
  parent : ['.', '.'] ∉ decoded.splitOn '/'

/-- A hexadecimal digit is no percent sign. -/
theorem ne_percent_of_hexVal {b : UInt8} (h : (Percent.hexVal b).isSome) : b ≠ 37 := by
  rintro rfl
  exact absurd h (by decide)

/-- The scan over the bytes finds every percent sign that starts no escape. -/
theorem validPercentEncoding_iff {bytes : Bytes} :
    validPercentEncoding bytes ↔ ∀ before after, bytes = before ++ 37 :: after →
      ∃ h l rest, after = h :: l :: rest ∧ (Percent.hexVal h).isSome ∧
        (Percent.hexVal l).isSome := by
  induction bytes using validPercentEncoding.induct with
  | case1 => exact iff_of_true rfl fun before after h ↦ absurd h (by simp)
  | case2 h l rest ih =>
    rw [validPercentEncoding, if_pos rfl, Bool.and_eq_true, Bool.and_eq_true, ih]
    constructor
    · rintro ⟨⟨hhigh, hlow⟩, hrest⟩ before after hsplit
      -- The percent sign is the first byte, or lies behind the two digits.
      rcases before with - | ⟨b₁, - | ⟨b₂, - | ⟨b₃, before⟩⟩⟩
      · exact ⟨h, l, rest, (List.cons.inj hsplit).2.symm, hhigh, hlow⟩
      · simp only [List.cons_append, List.nil_append, List.cons.injEq] at hsplit
        exact absurd hsplit.2.1 (ne_percent_of_hexVal hhigh)
      · simp only [List.cons_append, List.nil_append, List.cons.injEq] at hsplit
        exact absurd hsplit.2.2.1 (ne_percent_of_hexVal hlow)
      · simp only [List.cons_append, List.cons.injEq] at hsplit
        exact hrest before after hsplit.2.2.2
    · intro hall
      obtain ⟨_, _, _, hsplit, hhigh, hlow⟩ := hall [] _ rfl
      obtain ⟨rfl, rfl, -⟩ : _ ∧ _ ∧ _ := by simpa using hsplit
      exact ⟨⟨hhigh, hlow⟩, fun before after hrest ↦ hall (37 :: h :: l :: before) after
        (by rw [hrest]; rfl)⟩
  | case3 rest hshort =>
    refine iff_of_false ?_ fun hall ↦ ?_
    · rcases rest with - | ⟨h, - | ⟨l, rest⟩⟩
      · exact Bool.false_ne_true
      · exact Bool.false_ne_true
      · exact absurd rfl (hshort h l rest)
    · obtain ⟨h, l, tail, hrest, -⟩ := hall [] _ rfl
      exact hshort h l tail hrest
  | case4 b rest hb ih =>
    rw [validPercentEncoding_cons_of_ne hb, ih]
    constructor
    · intro hrest before after hsplit
      rcases before with - | ⟨c, before⟩
      · exact absurd (List.cons.inj hsplit).1 hb
      · exact hrest before after (List.cons.inj hsplit).2
    · intro hall before after hrest
      exact hall (b :: before) after (congrArg (b :: ·) hrest)

theorem splitDecoded_eq_some_iff {decoded : Str} {relative : RelativePath} :
    splitDecoded decoded = some relative ↔
      (decoded.head? ≠ some '/' ∧ '\\' ∉ decoded ∧ '\x00' ∉ decoded ∧
        ['.', '.'] ∉ decoded.splitOn '/') ∧ relative.parts = normalComponents decoded := by
  obtain ⟨parts, proper⟩ := relative
  rw [splitDecoded]
  split
  · next hchecks =>
    rw [and_iff_right hchecks, Option.some.injEq, RelativePath.mk.injEq]
    exact eq_comm
  · next hchecks => exact iff_of_false (Option.some_ne_none _).symm fun h ↦ hchecks h.1

/-- The relative path of a path that passes every check. -/
theorem relativePath_eq_some_iff {path : Str} {relative : RelativePath} :
    relativePath path = some relative ↔
      ∃ decoded, Normalises path decoded ∧ relative.parts = normalComponents decoded := by
  rw [relativePath, Option.ite_none_right_eq_some, Option.bind_eq_some_iff,
    validPercentEncoding_iff, ← exists_and_left]
  refine exists_congr fun decoded ↦ ?_
  rw [Percent.decodeUtf8_eq_some_iff, splitDecoded_eq_some_iff]
  constructor
  · rintro ⟨hescapes, hdecodes, ⟨hseparator, hback, hnul, hparent⟩, hparts⟩
    exact ⟨⟨hescapes, hdecodes, hseparator, hback, hnul, hparent⟩, hparts⟩
  · rintro ⟨h, hparts⟩
    exact ⟨h.escapes, h.decodes, ⟨h.separator, h.backslash, h.nul, h.parent⟩, hparts⟩

theorem Normalises.isProper {path decoded : Str} (h : Normalises path decoded) :
    ∀ part ∈ normalComponents decoded, IsProper part := by
  have hsome : (splitDecoded decoded).isSome := by
    rw [splitDecoded, dif_pos ⟨h.separator, h.backslash, h.nul, h.parent⟩]
    rfl
  obtain ⟨relative, hrelative⟩ := Option.isSome_iff_exists.1 hsome
  exact (splitDecoded_eq_some_iff.1 hrelative).2 ▸ relative.proper

/-- The text of the path is given exactly if the path passes every check, and it is the text of
the components that are kept. -/
theorem relativePathText_eq_some_iff {path assetPath : Str} :
    relativePathText path = some assetPath ↔
      ∃ decoded, Normalises path decoded ∧
        assetPath = ['/'].intercalate (normalComponents decoded) := by
  rw [relativePathText_eq, Option.map_eq_some_iff]
  constructor
  · rintro ⟨relative, hrelative, rfl⟩
    obtain ⟨decoded, hdecoded, hparts⟩ := relativePath_eq_some_iff.1 hrelative
    exact ⟨decoded, hdecoded, congrArg _ hparts⟩
  · rintro ⟨decoded, hdecoded, rfl⟩
    exact ⟨⟨_, hdecoded.isProper⟩, relativePath_eq_some_iff.2 ⟨decoded, hdecoded, rfl⟩, rfl⟩

/-! ### Where a normalised path leads -/

/-- The components a relative path adds to the path it is joined to: its own, or one that stays
there. -/
theorem join_pathOfText (root : FilePath Bytes) (relative : RelativePath) :
    ∃ below, root.join (pathOfText relative.assetPath) =
        { root with comps := root.comps ++ below } ∧
      below.filter (fun comp ↦ comp ≠ .here) =
        relative.parts.map fun part ↦ .name (Text.utf8 part) := by
  have hpath : pathOfText relative.assetPath =
      ⟨false, relative.parts.map fun part ↦ .name (Text.utf8 part)⟩ := by
    by_cases hparts : relative.parts = []
    · rw [(assetPath_eq_nil_iff relative).2 hparts, hparts]
      rfl
    · rw [pathOfText_assetPath relative hparts, List.map_map]
      rfl
  have hnames : (relative.parts.map fun part ↦ FilePath.Comp.name (Text.utf8 part)).filter
      (fun comp ↦ comp ≠ .here) = relative.parts.map fun part ↦ .name (Text.utf8 part) := by
    rw [List.filter_eq_self]
    intro comp hcomp
    obtain ⟨part, -, rfl⟩ := List.mem_map.1 hcomp
    rfl
  obtain ⟨absolute, comps⟩ := root
  rw [hpath, FilePath.join]
  split
  · next h =>
    -- A root that is the empty path: what is joined to it stands alone.
    obtain ⟨rfl, rfl⟩ : absolute = false ∧ comps = [] := by simpa [FilePath.isEmpty] using h
    exact ⟨_, rfl, hnames⟩
  · refine ⟨_, rfl, ?_⟩
    split
    · next h =>
      have hparts : relative.parts = [] := by simpa [FilePath.isEmpty] using h
      rw [hparts]
      rfl
    · exact hnames

/-- No component of the text of a relative path leads up. -/
theorem up_not_mem_splitOn_assetPath (relative : RelativePath) :
    ['.', '.'] ∉ relative.assetPath.splitOn '/' := by
  have hnil : ([] : Str) ∈ [[], ['/']] := List.mem_cons_self
  obtain ⟨tail, htail, hempty⟩ := splitOn_assetPath_append relative hnil
  rw [List.append_nil] at htail
  rw [htail, List.mem_append]
  rintro (hup | hup)
  · exact (relative.proper _ hup).ne_up rfl
  · exact absurd (hempty _ hup) (by decide)

/-- The text of a relative path does not start with a separator. -/
theorem head?_assetPath_ne (relative : RelativePath) : relative.assetPath.head? ≠ some '/' := by
  by_cases hparts : relative.parts = []
  · rw [(assetPath_eq_nil_iff relative).2 hparts]
    exact (Option.some_ne_none _).symm
  · obtain ⟨c, hc, hne⟩ := head?_assetPath_append relative [] hparts
    rw [List.append_nil] at hc
    rw [hc]
    exact fun h ↦ hne (Option.some.inj h)

/-- **Normalisation of request paths**: a path is normalised exactly if every percent sign in it
starts an escape and its text after the leading slashes stands for one that does not start with a
separator and has no backslash, no NUL and no component of two dots. What it is normalised to are
the components that are neither empty nor a single dot, joined by separators; it does not start
with a separator and no component of it leads up, and joined to any root it adds to the path of
the root nothing but names that lead down. -/
theorem relativePath_normalises (path : Str) :
    (∀ assetPath, relativePathText path = some assetPath ↔
      ∃ decoded, Normalises path decoded ∧
        assetPath = ['/'].intercalate (normalComponents decoded)) ∧
    ∀ assetPath, relativePathText path = some assetPath →
      assetPath.head? ≠ some '/' ∧ ['.', '.'] ∉ assetPath.splitOn '/' ∧
        ∀ root : FilePath Bytes, ∃ parts below, (∀ part ∈ parts, IsProper part) ∧
          assetPath = ['/'].intercalate parts ∧
          root.join (pathOfText assetPath) = { root with comps := root.comps ++ below } ∧
          below.filter (fun comp ↦ comp ≠ .here) =
            parts.map fun part ↦ .name (Text.utf8 part) := by
  refine ⟨fun assetPath ↦ relativePathText_eq_some_iff, fun assetPath hpath ↦ ?_⟩
  rw [relativePathText_eq, Option.map_eq_some_iff] at hpath
  obtain ⟨relative, -, rfl⟩ := hpath
  refine ⟨head?_assetPath_ne relative, up_not_mem_splitOn_assetPath relative, fun root ↦ ?_⟩
  obtain ⟨below, hjoin, hbelow⟩ := join_pathOfText root relative
  exact ⟨relative.parts, below, relative.proper, rfl, hjoin, hbelow⟩

/-- A path of raw and escaped separators and dots. -/
theorem relativePath_normalises_mixed :
    relativePathText "//assets%2F/%2e/./js%2Fapp.js/".toList = some "assets/js/app.js".toList ∧
      "assets/js/app.js".toList.head? ≠ some '/' ∧
      ['.', '.'] ∉ "assets/js/app.js".toList.splitOn '/' ∧
      ∀ root : FilePath Bytes, ∃ parts below, (∀ part ∈ parts, IsProper part) ∧
        "assets/js/app.js".toList = ['/'].intercalate parts ∧
        root.join (pathOfText "assets/js/app.js".toList) =
          { root with comps := root.comps ++ below } ∧
        below.filter (fun comp ↦ comp ≠ .here) =
          parts.map fun part ↦ .name (Text.utf8 part) := by
  have hpath : relativePathText "//assets%2F/%2e/./js%2Fapp.js/".toList =
      some "assets/js/app.js".toList := by
    have hescapes : validPercentEncoding (Text.utf8 "//assets%2F/%2e/./js%2Fapp.js/".toList) := by
      decide +kernel
    have hdecodes : Percent.decodeUtf8 ("//assets%2F/%2e/./js%2Fapp.js/".toList.dropWhile
        fun c ↦ c = '/') = some "assets//././js/app.js/".toList :=
      Percent.decodeUtf8_eq_some_iff.2 (by decide +kernel)
    rw [relativePathText, if_pos hescapes, hdecodes]
    decide +kernel
  exact ⟨hpath, (relativePath_normalises _).2 _ hpath⟩

end Static
