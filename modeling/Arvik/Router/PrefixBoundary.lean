import Arvik.Router.Service

/-!
# Boundaries of a prefix

Stripping a prefix builds the text of a new path with its query, parses it and puts the result
between the other parts of the target. The parser is that of the URI library; what is relied on is
that it accepts a path that starts with a slash, made of the characters it accepts anyway and no
longer than before (`LawfulUriLib`). Then the text is always accepted, and a prefix is stripped
exactly at the boundary of a segment (`stripUriPrefix_boundaries`).

The routers strip a prefix without a parser, by putting the rest in the place of the path, and the
function of the source, which may be refused by its parser, is compared with that. On targets as the
library builds them (`Uri.WellFormed`) the two agree: the characters of the rest occurred in the
path, and the rest is not longer, a slash in the place of an empty rest included, because the prefix
in front of it had a character at least.
-/

/-- A path with the query after it. -/
structure PathAndQuery where
  path : Str
  query : Option Str := none
  deriving DecidableEq

/-- The text of a query with its question mark. -/
def queryText : Option Str → Str
  | none => []
  | some query => '?' :: query

def PathAndQuery.text (self : PathAndQuery) : Str :=
  self.path ++ queryText self.query

/-- The parts of a URI. -/
structure UriParts where
  scheme : Option Str
  authority : Option Str
  pathAndQuery : Option PathAndQuery

/-- The library URIs are parsed with. -/
class UriLib where
  isPathChar : Char → Bool
  isQueryChar : Char → Bool
  /-- The number of bytes a path with its query may have. -/
  maxLen : ℕ
  parsePathAndQuery : Str → Option PathAndQuery
  fromParts : UriParts → Option Uri

/-- What the library says of paths and of parts. -/
class LawfulUriLib [UriLib] : Prop where
  parse_text : ∀ {parsed : PathAndQuery}, parsed.path.head? = some '/' →
    (∀ c ∈ parsed.path, UriLib.isPathChar c) →
    (∀ query ∈ parsed.query, ∀ c ∈ query, UriLib.isQueryChar c) →
    (Text.utf8 parsed.text).length ≤ UriLib.maxLen →
      UriLib.parsePathAndQuery parsed.text = some parsed
  fromParts_some : ∀ {scheme authority : Option Str} {parsed : PathAndQuery},
    scheme.isSome = authority.isSome →
      UriLib.fromParts ⟨scheme, authority, some parsed⟩ =
        some ⟨scheme, authority, parsed.path, parsed.query⟩

/-- The path without the prefix, if the prefix ends where a segment of the path does. -/
def strippedPath (path pfx : Str) : Option Str :=
  if pfx = ['/'] || !pfx.isPrefixOf path then none
  else if path = pfx || (path.length = pfx.length + 1 && path.getLast? = some '/') then
    some ['/']
  else (Text.stripPrefix pfx path).filter fun rest ↦ rest.head? = some '/'

section UriLib

variable [UriLib]

/-- A target as the library builds it: of the characters it accepts and no longer than allowed, and
with a scheme and an authority or with neither, unless it is an authority alone. -/
structure Uri.WellFormed (uri : Uri) : Prop where
  path : ∀ c ∈ uri.path, UriLib.isPathChar c
  query : ∀ query ∈ uri.query, ∀ c ∈ query, UriLib.isQueryChar c
  length : (Text.utf8 (uri.path ++ queryText uri.query)).length ≤ UriLib.maxLen
  authority : uri.path ≠ [] → uri.scheme.isSome = uri.authority.isSome

/-- The target without the prefix of its path: the rest is written out with the query and parsed
again. -/
def UriLib.stripUriPrefix (uri : Uri) (pfx : Str) : Option Uri :=
  (strippedPath uri.path pfx).bind fun path ↦
    (UriLib.parsePathAndQuery (path ++ queryText uri.query)).bind fun pathAndQuery ↦
      UriLib.fromParts ⟨uri.scheme, uri.authority, some pathAndQuery⟩

variable [LawfulUriLib] {uri : Uri} {pfx : Str}

/-- What is left of a path, or a slash in its place, is parsed to itself. -/
theorem fromParts_stripped (huri : uri.WellFormed) {path : Str} (hhead : path.head? = some '/')
    (hchars : ∀ c ∈ path, c ∈ uri.path)
    (hlength : (Text.utf8 path).length ≤ (Text.utf8 uri.path).length) :
    ((UriLib.parsePathAndQuery (path ++ queryText uri.query)).bind fun pathAndQuery ↦
      UriLib.fromParts ⟨uri.scheme, uri.authority, some pathAndQuery⟩) =
        some { uri with path } := by
  have hparse : UriLib.parsePathAndQuery (PathAndQuery.mk path uri.query).text =
      some ⟨path, uri.query⟩ := by
    refine LawfulUriLib.parse_text hhead (fun c hc ↦ huri.path c (hchars c hc)) huri.query ?_
    have hle := huri.length
    rw [Text.utf8_append, List.length_append] at hle
    rw [PathAndQuery.text, Text.utf8_append, List.length_append]
    dsimp only
    omega
  have hne : uri.path ≠ [] := by
    obtain ⟨rest, rfl⟩ := List.head?_eq_some_iff.1 hhead
    exact List.ne_nil_of_mem (hchars '/' List.mem_cons_self)
  show ((UriLib.parsePathAndQuery (PathAndQuery.mk path uri.query).text).bind _) = _
  rw [hparse, Option.bind_some]
  exact LawfulUriLib.fromParts_some (huri.authority hne)

omit [UriLib] [LawfulUriLib] in
/-- What is left of a path starts with a slash and is made of parts of the path. -/
theorem strippedPath_eq_some {path rest : Str} (hpfx : pfx.head? = some '/')
    (h : strippedPath path pfx = some rest) :
    rest.head? = some '/' ∧ (∀ c ∈ rest, c ∈ path) ∧
      (Text.utf8 rest).length ≤ (Text.utf8 path).length := by
  rw [strippedPath] at h
  split at h
  · cases h
  · next hstart =>
    obtain ⟨-, behind, rfl⟩ : pfx ≠ ['/'] ∧ pfx <+: path := by simpa using hstart
    split at h
    · obtain rfl := Option.some.inj h
      obtain ⟨tail, rfl⟩ := List.head?_eq_some_iff.1 hpfx
      refine ⟨rfl, fun c hc ↦ ?_, ?_⟩
      · rw [List.mem_singleton.1 hc]
        exact List.mem_cons_self
      · show (Text.utf8 ['/']).length ≤ (Text.utf8 (['/'] ++ (tail ++ behind))).length
        rw [Text.utf8_append, List.length_append]
        exact Nat.le_add_right _ _
    · obtain ⟨hrest, hhead⟩ := Option.filter_eq_some_iff.1 h
      obtain rfl := List.append_cancel_left (Text.stripPrefix_eq_some_iff.1 hrest)
      refine ⟨of_decide_eq_true hhead, fun c hc ↦ List.mem_append_right _ hc, ?_⟩
      rw [Text.utf8_append, List.length_append]
      exact Nat.le_add_left _ _

/-- **Parsing the rest again never fails**: what is left of a path is a path. Its characters were
accepted before, and it is no longer than it was. -/
theorem stripUriPrefix_eq_lib (huri : uri.WellFormed) (hpfx : pfx.head? = some '/') :
    UriLib.stripUriPrefix uri pfx = stripUriPrefix uri pfx := by
  show (strippedPath uri.path pfx).bind _ = (strippedPath uri.path pfx).map _
  rcases hstripped : strippedPath uri.path pfx with - | path
  · rfl
  · obtain ⟨hhead, hchars, hlength⟩ := strippedPath_eq_some hpfx hstripped
    exact fromParts_stripped huri hhead hchars hlength

omit [UriLib] [LawfulUriLib] in
theorem head?_normalizeServicePrefix (raw : Str) :
    (normalizeServicePrefix raw).head? = some '/' := by
  by_cases hroot : normalizeServicePrefix raw = ['/']
  · rw [hroot]
    rfl
  · exact (isServicePrefix_normalize hroot).head

/-- **A prefix is stripped at the boundary of a segment**: what follows it is the new path, or a
slash where nothing follows; the other parts are those of the target. A path that does not start
with the prefix, or goes on within its last segment, is left as it is, and so is every path under
the root. What is left of a path starts with a slash. -/
theorem stripUriPrefix_boundaries {H E B : Type} [Extensions E] [Extensions.Slot E OriginalUri]
    (raw : Str) {uri : Uri} (huri : uri.WellFormed) :
    (∀ rest, normalizeServicePrefix raw ≠ ['/'] →
      uri.path = normalizeServicePrefix raw ++ rest → rest = [] ∨ rest.head? = some '/' →
        UriLib.stripUriPrefix uri (normalizeServicePrefix raw) =
          some { uri with path := if rest = [] then ['/'] else rest }) ∧
    ((normalizeServicePrefix raw = ['/'] ∨
        ¬ ∃ rest, uri.path = normalizeServicePrefix raw ++ rest ∧
          (rest = [] ∨ rest.head? = some '/')) →
      UriLib.stripUriPrefix uri (normalizeServicePrefix raw) = none) ∧
    (∀ stripped, UriLib.stripUriPrefix uri (normalizeServicePrefix raw) = some stripped →
      stripped.path.head? = some '/') ∧
    ∀ req : Request H E B, req.uri = uri →
      (stripRequest (normalizeServicePrefix raw) req).uri =
        (UriLib.stripUriPrefix uri (normalizeServicePrefix raw)).getD uri := by
  have hhead := head?_normalizeServicePrefix raw
  -- What is left of a well-formed target is parsed again without loss, so the path decides.
  rw [stripUriPrefix_eq_lib huri hhead]
  refine ⟨fun rest hroot hpath hrest ↦ ?_, fun hother ↦ ?_, fun stripped hstripped ↦ ?_,
    fun req hreq ↦ hreq ▸ uri_stripRequest _ req⟩
  · rw [stripUriPrefix_of_append hroot hpath]
    split
    · rfl
    · next hne => rw [if_pos (hrest.resolve_left hne)]
  · by_cases hroot : normalizeServicePrefix raw = ['/']
    · rw [hroot]
      rfl
    · have hboundary := hother.resolve_left hroot
      by_cases hstart : normalizeServicePrefix raw <+: uri.path
      · obtain ⟨rest, hpath⟩ := hstart
        rw [stripUriPrefix_of_append hroot hpath.symm, if_neg, if_neg]
        · exact fun h ↦ hboundary ⟨rest, hpath.symm, .inr h⟩
        · exact fun h ↦ hboundary ⟨rest, hpath.symm, .inl h⟩
      · exact stripUriPrefix_of_mismatch hstart
  · obtain ⟨path, hpath, rfl⟩ := Option.map_eq_some_iff.1 hstripped
    exact (strippedPath_eq_some hhead hpath).1

end UriLib

section GraphicUris

/-- A library that accepts the graphic ASCII characters. -/
@[reducible]
def graphicUris : UriLib where
  isPathChar c := Text.isAsciiGraphic c && c ≠ '?' && c ≠ '#'
  isQueryChar c := Text.isAsciiGraphic c && c ≠ '#'
  maxLen := 65534
  parsePathAndQuery s :=
    let parsed := (Text.splitOnce '?' s).elim (PathAndQuery.mk s none) fun cut ↦ ⟨cut.1, cut.2⟩
    if parsed.path.head? = some '/' ∧
        parsed.path.all (fun c ↦ Text.isAsciiGraphic c && c ≠ '?' && c ≠ '#') ∧
        parsed.query.all (fun query ↦ query.all fun c ↦ Text.isAsciiGraphic c && c ≠ '#') ∧
        (Text.utf8 s).length ≤ 65534 then
      some parsed
    else none
  fromParts parts := parts.pathAndQuery.bind fun pathAndQuery ↦
    if parts.scheme.isSome = parts.authority.isSome then
      some ⟨parts.scheme, parts.authority, pathAndQuery.path, pathAndQuery.query⟩
    else none

attribute [local instance] graphicUris

instance lawful_graphicUris : LawfulUriLib where
  parse_text := by
    intro parsed hhead hpath hquery hlength
    obtain ⟨path, query⟩ := parsed
    have hmark : '?' ∉ path := fun h ↦ absurd (hpath '?' h) (by decide)
    have hcut : (Text.splitOnce '?' (PathAndQuery.mk path query).text).elim
        (PathAndQuery.mk (PathAndQuery.mk path query).text none) (fun cut ↦ ⟨cut.1, cut.2⟩) =
          ⟨path, query⟩ := by
      rcases query with - | query
      · rw [PathAndQuery.text, queryText, List.append_nil, Text.splitOnce_of_not_mem hmark]
        rfl
      · rw [PathAndQuery.text, queryText, Text.splitOnce_append query hmark]
        rfl
    have hqueries : query.all fun query ↦
        query.all fun c ↦ Text.isAsciiGraphic c && c ≠ '#' := by
      rcases query with - | query
      · rfl
      · exact List.all_eq_true.2 (hquery query rfl)
    dsimp only [UriLib.parsePathAndQuery]
    rw [hcut, if_pos ⟨hhead, List.all_eq_true.2 hpath, hqueries, hlength⟩]
  fromParts_some := fun h ↦ if_pos h

/-- The target of a script below `/static`. -/
def scriptUri : Uri :=
  ⟨some "http".toList, some "localhost".toList, "/static/app.js".toList, some "v=1".toList⟩

/-- The script is asked for without the prefix. -/
theorem stripUriPrefix_boundaries_script :
    UriLib.stripUriPrefix scriptUri (normalizeServicePrefix "static/".toList) =
      some { scriptUri with path := "/app.js".toList } := by
  have hpath : "/static/app.js".toList.all graphicUris.isPathChar := by decide
  have hquery : "v=1".toList.all graphicUris.isQueryChar := by decide
  have huri : scriptUri.WellFormed :=
    ⟨List.all_eq_true.1 hpath, fun query hsome ↦ by
      rw [← Option.some.inj hsome]
      exact List.all_eq_true.1 hquery, by decide, fun _ ↦ rfl⟩
  exact (stripUriPrefix_boundaries (H := AssocList HeaderName HeaderValue)
    (E := Option OriginalUri) (B := Unit) "static/".toList huri).1 "/app.js".toList (by decide) rfl
      (.inr rfl)

end GraphicUris
