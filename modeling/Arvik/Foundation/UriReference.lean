import Arvik.Foundation.Text

/-!
# URI references

The parts of a URI reference, and the URI it stands for on a page with a given URI. A text is cut
into parts at the first of the characters that end each part, which always succeeds; the path of
what a reference stands for has its dot segments removed.

A reference that starts with a single slash stays with the authority of the page
(`origin_resolve_of_rooted`). For a relative reference on the page of a directory the result is the
path of the directory with the reference behind it (`resolve_of_relative`), provided that no colon
makes a scheme of its beginning.

Whoever writes a reference without looking at the characters in front may write one of another kind
than was meant, which is why most lemmas are about fronts. The removal of dot segments is a
recursion over the segments of a path, and segments that are neither one dot nor two stay as they
are (`removeDotSegments_slashed`), so for the paths of a site only the last segment is looked at.
-/

/-- The parts of a URI or of a reference to one. -/
structure UriReference where
  scheme : Option Str := none
  authority : Option Str := none
  path : Str
  query : Option Str := none
  fragment : Option Str := none
  deriving DecidableEq

namespace UriReference

/-! ### Parts -/

/-- The characters before the first one of a kind, and the text from that one on. -/
def cutAt (ends : Str) (s : Str) : Str × Str :=
  (s.takeWhile fun c ↦ c ∉ ends, s.dropWhile fun c ↦ c ∉ ends)

/-- The scheme in front of a text, and what follows its colon. -/
def cutScheme (s : Str) : Option Str × Str :=
  match cutAt [':', '/', '?', '#'] s with
  | (c :: scheme, ':' :: rest) => (some (c :: scheme), rest)
  | _ => (none, s)

/-- The authority in front of a text, after two slashes. -/
def cutAuthority : Str → Option Str × Str
  | '/' :: '/' :: s => ((cutAt ['/', '?', '#'] s).1, (cutAt ['/', '?', '#'] s).2)
  | s => (none, s)

/-- The part after its mark, up to one of the ends. -/
def cutMarked (mark : Char) (ends : Str) : Str → Option Str × Str
  | [] => (none, [])
  | c :: s => if c = mark then ((cutAt ends s).1, (cutAt ends s).2) else (none, c :: s)

/-- The parts of a text. -/
def parse (s : Str) : UriReference :=
  let scheme := cutScheme s
  let authority := cutAuthority scheme.2
  let path := cutAt ['?', '#'] authority.2
  let query := cutMarked '?' ['#'] path.2
  { scheme := scheme.1
    authority := authority.1
    path := path.1
    query := query.1
    fragment := (cutMarked '#' [] query.2).1 }

example : parse "http://www.ics.uci.edu/pub/ietf/uri/?a=b#Related".toList =
    { scheme := "http".toList, authority := "www.ics.uci.edu".toList,
      path := "/pub/ietf/uri/".toList, query := "a=b".toList, fragment := "Related".toList } := by
  decide

/-! ### Dot segments -/

/-- A path without its last segment and the slash before it. -/
def dropSegment (path : Str) : Str :=
  ((path.reverse.dropWhile fun c ↦ c ≠ '/').drop 1).reverse

/-- A path with the segments of another one behind it, each after a slash; a dot stays at its place
and two dots take the last segment back. -/
def addSegments (path : Str) : List Str → Str
  | [] => path
  | ['.'] :: rest => if rest = [] then path ++ ['/'] else addSegments path rest
  | ['.', '.'] :: rest =>
    if rest = [] then dropSegment path ++ ['/'] else addSegments (dropSegment path) rest
  | segment :: rest => addSegments (path ++ '/' :: segment) rest

/-- A path from its first segment on, which no slash stands before unless it is empty. -/
def startSegments : List Str → Str
  | [] => []
  | ['.'] :: rest => startSegments rest
  | ['.', '.'] :: rest => startSegments rest
  | segment :: rest => addSegments segment rest

/-- The path with its dot segments removed. -/
def removeDotSegments (path : Str) : Str :=
  startSegments (path.splitOn '/')

example : removeDotSegments "/a/b/c/./../../g".toList = "/a/g".toList := by decide

example : removeDotSegments "mid/content=5/../6".toList = "mid/6".toList := by decide

/-! ### Resolution -/

/-- The path of a reference, read from the path of a page. -/
def merge (base : UriReference) (path : Str) : Str :=
  if base.authority.isSome && base.path.isEmpty then '/' :: path
  else (base.path.reverse.dropWhile fun c ↦ c ≠ '/').reverse ++ path

/-- What a reference stands for on a page. -/
def resolve (base ref : UriReference) : UriReference :=
  if ref.scheme.isSome then { ref with path := removeDotSegments ref.path }
  else if ref.authority.isSome then
    { ref with scheme := base.scheme, path := removeDotSegments ref.path }
  else if ref.path = [] then
    { base with query := ref.query <|> base.query, fragment := ref.fragment }
  else
    { ref with
      scheme := base.scheme
      authority := base.authority
      path := removeDotSegments
        (if ref.path.head? = some '/' then ref.path else merge base ref.path) }

/-- Where a URI leads to, up to its path. -/
def origin (uri : UriReference) : Option Str × Option Str :=
  (uri.scheme, uri.authority)

example : resolve (parse "http://a/b/c/d;p?q".toList) (parse "../g".toList) =
    parse "http://a/b/g".toList := by
  decide

example : resolve (parse "http://a/b/c/d;p?q".toList) (parse "//g".toList) =
    parse "http://g".toList := by
  decide

/-- A text that starts with a slash and not with two. -/
def Rooted (s : Str) : Prop :=
  ∃ rest, s = '/' :: rest ∧ rest.head? ≠ some '/'

/-- What starts with a single slash has no scheme and no authority, and its path is rooted. -/
theorem parse_of_rooted {s : Str} (h : Rooted s) :
    (parse s).scheme = none ∧ (parse s).authority = none ∧ (parse s).path.head? = some '/' := by
  obtain ⟨rest, rfl, hrest⟩ := h
  have hauthority : cutAuthority ('/' :: rest) = (none, '/' :: rest) := by
    rcases rest with - | ⟨c, rest⟩
    · rfl
    · have hc : c ≠ '/' := fun h ↦ hrest (congrArg some h)
      unfold cutAuthority
      split
      · next heq => exact absurd (List.cons.inj (List.cons.inj heq).2).1 hc
      · rfl
  refine ⟨rfl, congrArg Prod.fst hauthority, ?_⟩
  show (cutAt ['?', '#'] (cutAuthority ('/' :: rest)).2).1.head? = _
  rw [hauthority]
  rfl

/-- A reference that starts with a single slash stays where the page is. -/
theorem origin_resolve_of_rooted {s : Str} (h : Rooted s) (base : UriReference) :
    origin (resolve base (parse s)) = origin base := by
  obtain ⟨hscheme, hauthority, hpath⟩ := parse_of_rooted h
  have hne : (parse s).path ≠ [] := fun hnil ↦ by
    rw [hnil] at hpath
    cases hpath
  rw [resolve, hscheme, hauthority, Option.isSome_none, if_neg Bool.false_ne_true,
    if_neg Bool.false_ne_true, if_neg hne]
  rfl

/-! ### References without an authority -/

section Relative

variable {ends s rest : Str}

theorem cutAt_append (hs : ∀ c ∈ s, c ∉ ends) (hrest : ∀ c ∈ rest.head?, c ∈ ends) :
    cutAt ends (s ++ rest) = (s, rest) := by
  have hkeep : ∀ c ∈ s, decide (c ∉ ends) = true := fun c hc ↦ decide_eq_true (hs c hc)
  rw [cutAt, List.takeWhile_append_of_pos hkeep, List.dropWhile_append_of_pos hkeep]
  rcases rest with - | ⟨c, rest⟩
  · rw [List.takeWhile_nil, List.dropWhile_nil, List.append_nil]
  · have hc : c ∈ ends := hrest c rfl
    rw [List.takeWhile_cons_of_neg (by simpa using hc),
      List.dropWhile_cons_of_neg (by simpa using hc), List.append_nil]

/-- What stands before the first colon is the scheme. -/
theorem cutScheme_append_colon (hne : s ≠ []) (hs : ∀ c ∈ s, c ∉ [':', '/', '?', '#']) :
    cutScheme (s ++ ':' :: rest) = (some s, rest) := by
  have hcut : cutAt [':', '/', '?', '#'] (s ++ ':' :: rest) = (s, ':' :: rest) :=
    cutAt_append hs (by simp)
  obtain ⟨c, scheme, rfl⟩ := List.exists_cons_of_ne_nil hne
  rw [cutScheme, hcut]
  rfl

/-- There is no scheme without a colon before the end of the path. -/
theorem cutScheme_of_not_mem (hs : ':' ∉ s) (hrest : ∀ c ∈ rest.head?, c ∈ ['/', '?', '#']) :
    cutScheme (s ++ rest) = (none, s ++ rest) := by
  -- The search for a scheme stops at another mark, or at the end.
  have hdrop : ((s ++ rest).dropWhile fun c ↦ c ∉ [':', '/', '?', '#']).head? ≠ some ':' := by
    induction s with
    | nil =>
      rcases rest with - | ⟨c, rest⟩
      · exact (Option.some_ne_none _).symm
      · have hc : c ∈ ['/', '?', '#'] := hrest c rfl
        have hstop : c ∈ [':', '/', '?', '#'] := List.mem_cons_of_mem _ hc
        rw [List.nil_append, List.dropWhile_cons_of_neg (by rwa [decide_eq_true_iff, not_not]),
          List.head?_cons]
        rintro ⟨⟩
        exact absurd hc (by decide)
    | cons c s ih =>
      obtain ⟨hc, hs⟩ := List.ne_and_not_mem_of_not_mem_cons hs
      rw [List.cons_append, List.dropWhile_cons]
      split
      · exact ih hs
      · exact fun h ↦ hc (Option.some.inj h).symm
  unfold cutScheme
  split
  · next heq =>
    rw [cutAt, Prod.mk.injEq] at heq
    rw [heq.2] at hdrop
    exact absurd rfl hdrop
  · rfl

/-- A colon in front ends no scheme. -/
theorem cutScheme_colon (s : Str) : cutScheme (':' :: s) = (none, ':' :: s) :=
  rfl

theorem cutAuthority_of_ne (h : s.head? ≠ some '/') : cutAuthority s = (none, s) := by
  unfold cutAuthority
  split
  · exact absurd rfl h
  · rfl

/-- The parts of a text that has neither a scheme nor a slash in front. -/
theorem parse_of_relative (hscheme : cutScheme (s ++ rest) = (none, s ++ rest))
    (hhead : (s ++ rest).head? ≠ some '/') (hs : ∀ c ∈ s, c ∉ ['?', '#'])
    (hrest : ∀ c ∈ rest.head?, c ∈ ['?', '#']) :
    (parse (s ++ rest)).scheme = none ∧ (parse (s ++ rest)).authority = none ∧
      (parse (s ++ rest)).path = s := by
  have hauthority := cutAuthority_of_ne hhead
  have hpath : cutAt ['?', '#'] (s ++ rest) = (s, rest) := cutAt_append hs hrest
  simp only [parse, hscheme, hauthority, hpath, and_self]

variable {base ref : UriReference}

/-- What a reference without an authority leads to on the page of a directory. -/
theorem resolve_of_relative (hscheme : ref.scheme = none) (hauthority : ref.authority = none)
    (hpath : ref.path ≠ []) (hhead : ref.path.head? ≠ some '/')
    (hslash : base.path.getLast? = some '/') :
    (resolve base ref).origin = base.origin ∧
      (resolve base ref).path = removeDotSegments (base.path ++ ref.path) := by
  have hmerge : merge base ref.path = base.path ++ ref.path := by
    have hne : base.path ≠ [] := fun h ↦ by rw [h] at hslash; cases hslash
    -- The last segment of the page is empty, so nothing of its path is dropped.
    have hdrop : (base.path.reverse.dropWhile fun c ↦ c ≠ '/').reverse = base.path := by
      rw [← List.head?_reverse] at hslash
      obtain ⟨rest, hreverse⟩ := List.head?_eq_some_iff.1 hslash
      rw [hreverse, List.dropWhile_cons_of_neg (by simp), ← hreverse, List.reverse_reverse]
    rw [merge, List.isEmpty_eq_false_iff.2 hne, Bool.and_false, if_neg Bool.false_ne_true, hdrop]
  rw [resolve, hscheme, hauthority, Option.isSome_none, if_neg Bool.false_ne_true,
    if_neg Bool.false_ne_true, if_neg hpath, if_neg hhead, hmerge]
  exact ⟨rfl, rfl⟩

end Relative

/-! ### Segments behind slashes -/

/-- The segments, each after a slash. -/
def slashed (segments : List Str) : Str :=
  segments.flatMap ('/' :: ·)

theorem slashed_append (before behind : List Str) :
    slashed (before ++ behind) = slashed before ++ slashed behind :=
  List.flatMap_append

theorem slashed_concat (segments : List Str) (segment : Str) :
    slashed (segments ++ [segment]) = slashed segments ++ '/' :: segment := by
  rw [slashed_append, slashed, slashed, List.flatMap_singleton]

theorem slashed_eq_intercalate {segments : List Str} (h : segments ≠ []) :
    slashed segments = '/' :: ['/'].intercalate segments := by
  induction segments with
  | nil => exact absurd rfl h
  | cons segment segments ih =>
    rcases segments with - | ⟨next, rest⟩
    · rw [slashed, List.flatMap_singleton, List.intercalate_singleton]
    · rw [slashed, List.flatMap_cons, ← slashed, ih (List.cons_ne_nil _ _),
        List.intercalate_cons_cons, List.cons_append, List.append_assoc, List.singleton_append]

/-- A text that starts with a slash is made of segments behind slashes. -/
theorem slashed_splitOn (s : Str) : slashed (s.splitOn '/') = '/' :: s := by
  rw [slashed_eq_intercalate (List.splitOn_ne_nil _ _), List.intercalate_splitOn]

theorem splitOn_slashed {segments : List Str} (h : ∀ segment ∈ segments, '/' ∉ segment)
    (hne : segments ≠ []) : (slashed segments).splitOn '/' = [] :: segments := by
  have hcut : ('/' :: ['/'].intercalate segments).splitOn '/' =
      [] :: (['/'].intercalate segments).splitOn '/' :=
    List.splitOn_append_cons_self_of_not_mem List.not_mem_nil _
  rw [slashed_eq_intercalate hne, hcut, List.splitOn_intercalate '/' h hne]

/-- Dots stay at their place, as long as there are no two of them. -/
theorem addSegments_append (path : Str) {segments rest : List Str}
    (hup : ['.', '.'] ∉ segments) (hrest : rest ≠ []) :
    addSegments path (segments ++ rest) =
      addSegments (path ++ slashed (segments.filter fun segment ↦ segment ≠ ['.'])) rest := by
  induction segments generalizing path with
  | nil => rw [List.filter_nil, slashed, List.flatMap_nil, List.append_nil, List.nil_append]
  | cons segment segments ih =>
    obtain ⟨hsegment, hup⟩ := List.ne_and_not_mem_of_not_mem_cons hup
    by_cases hhere : segment = ['.']
    · rw [hhere, List.filter_cons_of_neg (by simp), List.cons_append, addSegments,
        if_neg (List.append_ne_nil_of_right_ne_nil _ hrest), ih _ hup]
    · rw [List.filter_cons_of_pos (by simpa using hhere), List.cons_append, addSegments, ih _ hup,
        slashed, slashed, List.flatMap_cons, List.append_assoc]
      · exact hhere
      · exact Ne.symm hsegment

theorem addSegments_singleton {segment : Str} (hhere : segment ≠ ['.'])
    (hup : segment ≠ ['.', '.']) (path : Str) :
    addSegments path [segment] = path ++ '/' :: segment := by
  rw [addSegments, addSegments]
  · exact hhere
  · exact hup

theorem dropSegment_slashed_concat (segments : List Str) {segment : Str} (h : '/' ∉ segment) :
    dropSegment (slashed (segments ++ [segment])) = slashed segments := by
  have hkeep : ∀ c ∈ segment.reverse, decide (c ≠ '/') = true := fun c hc ↦
    decide_eq_true fun heq ↦ h (heq ▸ List.mem_reverse.1 hc)
  rw [slashed_concat, dropSegment, List.reverse_append, List.reverse_cons, List.append_assoc,
    List.dropWhile_append_of_pos hkeep, List.singleton_append,
    List.dropWhile_cons_of_neg (by simp)]
  exact List.reverse_reverse _

variable {segments : List Str} {last : Str}

/-- The segments of a path that are not dots stay as they are. -/
theorem removeDotSegments_slashed (hsegments : ∀ segment ∈ segments, '/' ∉ segment)
    (hup : ['.', '.'] ∉ segments) (hlast : '/' ∉ last) :
    removeDotSegments (slashed segments ++ '/' :: last) =
      addSegments (slashed (segments.filter fun segment ↦ segment ≠ ['.'])) [last] := by
  have hall : ∀ segment ∈ segments ++ [last], '/' ∉ segment := by
    rw [List.forall_mem_append, List.forall_mem_singleton]
    exact ⟨hsegments, hlast⟩
  have hadd := addSegments_append [] hup (List.cons_ne_nil last [])
  rw [List.nil_append] at hadd
  rw [← slashed_concat, removeDotSegments, splitOn_slashed hall (by simp), ← hadd]
  rfl

/-- A last segment that is not dots stays as well. -/
theorem removeDotSegments_slashed_of_ne (hsegments : ∀ segment ∈ segments, '/' ∉ segment)
    (hup : ['.', '.'] ∉ segments) (hlast : '/' ∉ last) (hhere : last ≠ ['.'])
    (htwo : last ≠ ['.', '.']) :
    removeDotSegments (slashed segments ++ '/' :: last) =
      slashed (segments.filter fun segment ↦ segment ≠ ['.']) ++ '/' :: last := by
  rw [removeDotSegments_slashed hsegments hup hlast, addSegments_singleton hhere htwo]

end UriReference
