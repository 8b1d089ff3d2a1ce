import Arvik.Router.Tree
import Arvik.Static.Responses

/-!
# Services on routes

A service can be the endpoint of a route. Mounted under a prefix it is the endpoint of three routes,
for the prefix with and without a slash and for everything below, and it sees the target of a
request without the prefix; the target as it was is kept in the extensions.

The prefix is fixed when the service is mounted. `stripUriPrefix_of_append` says what becomes of a
path that starts with it: it has to go on at the boundary of a segment, so that a prefix `/app` does
not take the front of `/apple`. A path that is not stripped is handed on as it is, and no error is
told, which is why a prefix that no longer fits goes unnoticed.

An endpoint is the target with the prefix it was mounted under, if any, so a router of endpoints is
a router like any other, and what is proved about routers applies. That the prefix of a service is
not a slash alone is the one thing later proofs ask of it (`IsServicePrefix`).
-/

/-! ### Stripping a prefix -/

/-- The target without the prefix of its path, if the path starts with it; a path that continues
the last segment of the prefix does not. -/
def stripUriPrefix (uri : Uri) (pfx : Str) : Option Uri :=
  let path := uri.path
  let strippedPath : Option Str :=
    if pfx = ['/'] || !pfx.isPrefixOf path then none
    else if path = pfx || (path.length = pfx.length + 1 && path.getLast? = some '/') then
      some ['/']
    else (Text.stripPrefix pfx path).filter fun rest ↦ rest.head? = some '/'
  strippedPath.map fun path ↦ { uri with path }

/-- A prefix with a slash in front and none at the end, unless it is a slash alone. -/
def normalizeServicePrefix (pfx : Str) : Str :=
  let trimmed := Router.trimEndSlashes pfx
  if trimmed = [] then ['/']
  else if trimmed.head? = some '/' then trimmed
  else '/' :: trimmed

section StripPrefix

variable {H E B : Type} [Extensions E] [Extensions.Slot E OriginalUri]

/-- The request as the service under a prefix sees it. -/
def stripRequest (pfx : Str) (req : Request H E B) : Request H E B :=
  let originalUri := req.uri
  let req := match (Extensions.Slot.get req.extensions : Option OriginalUri) with
    | none => req.insertExtension (OriginalUri.mk originalUri)
    | some _ => req
  match stripUriPrefix originalUri pfx with
  | some stripped => req.withUri stripped
  | none => req

/-- A service under a prefix. -/
def stripPrefixService {m : Type → Type} (pfx : Str) (service : Service H E B m) :
    Service H E B m := fun req ↦
  service (stripRequest pfx req)

theorem uri_stripRequest (pfx : Str) (req : Request H E B) :
    (stripRequest pfx req).uri = (stripUriPrefix req.uri pfx).getD req.uri := by
  rw [stripRequest]
  rcases (Extensions.Slot.get req.extensions : Option OriginalUri) with - | original
  · rcases stripUriPrefix req.uri pfx with - | stripped
    · rfl
    · rfl
  · rcases stripUriPrefix req.uri pfx with - | stripped
    · rfl
    · rfl

/-- The target is kept unless one is kept already. -/
theorem originalUri_stripRequest (pfx : Str) (req : Request H E B) :
    (Extensions.Slot.get (stripRequest pfx req).extensions : Option OriginalUri) =
      some (((Extensions.Slot.get req.extensions : Option OriginalUri)).getD ⟨req.uri⟩) := by
  have hstrip : (stripRequest pfx req).extensions =
      (match (Extensions.Slot.get req.extensions : Option OriginalUri) with
        | none => req.insertExtension (OriginalUri.mk req.uri)
        | some _ => req).extensions := by
    rw [stripRequest]
    rcases stripUriPrefix req.uri pfx with - | stripped
    · rfl
    · rfl
  rw [hstrip]
  rcases h : (Extensions.Slot.get req.extensions : Option OriginalUri) with - | original
  · exact Extensions.Slot.get_insert _ _
  · exact h

end StripPrefix

/-! ### Prefixes -/

/-- A normalized prefix that is not a slash alone. -/
structure IsServicePrefix (pfx : Str) : Prop where
  head : pfx.head? = some '/'
  last : pfx.getLast? ≠ some '/'

theorem getLast?_trimEndSlashes (pfx : Str) :
    (Router.trimEndSlashes pfx).getLast? ≠ some '/' := by
  rw [Router.trimEndSlashes, List.getLast?_reverse]
  intro h
  have hnot := List.head?_dropWhile_not (fun c ↦ decide (c = '/')) pfx.reverse
  rw [h] at hnot
  simp at hnot

/-- A normalized prefix is a slash, or neither ends in one nor lacks it in front. -/
theorem isServicePrefix_normalize {pfx : Str} (h : normalizeServicePrefix pfx ≠ ['/']) :
    IsServicePrefix (normalizeServicePrefix pfx) := by
  have hlast := getLast?_trimEndSlashes pfx
  rw [normalizeServicePrefix] at h ⊢
  split at h
  · exact absurd rfl h
  · next hne =>
    rw [if_neg hne]
    split
    · next hhead => exact ⟨hhead, hlast⟩
    · refine ⟨rfl, ?_⟩
      rwa [List.getLast?_cons_of_ne_nil hne]

theorem IsServicePrefix.ne_root {pfx : Str} (h : IsServicePrefix pfx) : pfx ≠ ['/'] := by
  rintro rfl
  exact h.last rfl

theorem IsServicePrefix.ne_nil {pfx : Str} (h : IsServicePrefix pfx) : pfx ≠ [] := by
  rintro rfl
  exact nomatch h.head

/-- A path that does not start with the prefix is left alone. -/
theorem stripUriPrefix_of_mismatch {uri : Uri} {pfx : Str} (h : ¬ pfx <+: uri.path) :
    stripUriPrefix uri pfx = none := by
  have hcond : (decide (pfx = ['/']) || !pfx.isPrefixOf uri.path) = true := by
    rw [Bool.or_eq_true, Bool.not_eq_true', ← Bool.not_eq_true, List.isPrefixOf_iff_prefix]
    exact .inr h
  rw [stripUriPrefix, if_pos hcond]
  rfl

/-- **What becomes of a path that starts with the prefix**: it has to go on at the boundary of a
segment. -/
theorem stripUriPrefix_of_append {uri : Uri} {pfx rest : Str} (hroot : pfx ≠ ['/'])
    (hpath : uri.path = pfx ++ rest) :
    stripUriPrefix uri pfx =
      if rest = [] then some { uri with path := ['/'] }
      else if rest.head? = some '/' then some { uri with path := rest }
      else none := by
  have hstart : ¬ (decide (pfx = ['/']) || !pfx.isPrefixOf uri.path) = true := by
    rw [hpath]
    simp [hroot]
  have hstrip : Text.stripPrefix pfx uri.path = some rest := Text.stripPrefix_eq_some_iff.2 hpath
  rw [stripUriPrefix, if_neg hstart, hstrip, hpath]
  rcases rest with - | ⟨c, - | ⟨d, rest⟩⟩
  · simp
  · by_cases hc : c = '/'
    · simp [hc]
    · simp [hc, Option.filter]
  · by_cases hc : c = '/'
    · simp [hc, Option.filter]
    · simp [hc, Option.filter]

/-! ### Endpoints -/

/-- What stands at the end of a route: a handler or service, as it is or under a prefix. -/
inductive Endpoint (T : Type)
  | service (target : T)
  | stripped (pfx : Str) (target : T)
  deriving DecidableEq

/-- What an endpoint does, given what its target does. -/
def Endpoint.handle {H E B T : Type} {m : Type → Type} [Extensions E]
    [Extensions.Slot E OriginalUri] (serve : T → Service H E B m) : Endpoint T → Service H E B m
  | service target => serve target
  | stripped pfx target => stripPrefixService pfx (serve target)

namespace RouterTree

variable {T L : Type}

/-- Mount a service on a path. -/
def routeService (self : RouterTree (Endpoint T) L) (path : Str) (target : Endpoint T) :
    RouterTree (Endpoint T) L :=
  self.route path (.any target)

/-- Mount a service under a prefix. -/
def nestService (self : RouterTree (Endpoint T) L) (pfx : Str) (target : T) :
    RouterTree (Endpoint T) L :=
  let pfx := normalizeServicePrefix pfx
  let service := Endpoint.stripped pfx target
  let router := self.routeService pfx service
  let router := if pfx = ['/'] then router else router.routeService (pfx ++ ['/']) service
  let path := if pfx = ['/'] then "/{*__rest}".toList else pfx ++ "/{*__rest}".toList
  router.routeService path service

/-- The paths of a service under a prefix other than the root. -/
def mountPaths (pfx : Str) : List Str :=
  [pfx, pfx ++ ['/'], pfx ++ "/{*__rest}".toList]

/-- The routes that mounting a service adds. -/
theorem declared_nestService (self : RouterTree (Endpoint T) L) {pfx : Str} (target : T)
    (h : normalizeServicePrefix pfx ≠ ['/']) :
    (self.nestService pfx target).declared =
      self.declared ++ (mountPaths (normalizeServicePrefix pfx)).map fun path ↦
        { path, methodRouter := .any (.stripped (normalizeServicePrefix pfx) target) } := by
  rw [nestService, if_neg h, if_neg h]
  simp only [routeService, declared, mountPaths, List.append_assoc, List.map_cons, List.map_nil,
    List.cons_append, List.nil_append]

end RouterTree
