import Arvik.Core.Body
import Arvik.Router.Relay
import Arvik.Router.Service

/-!
# What a mounted service sees

A service is mounted under a prefix in a router that may be nested under further prefixes. The
routes of the service move along with the router, but the prefix that is stripped from a target was
fixed when the service was mounted. So the service sees what is below its mount point only if the
prefixes around it are empty (`seesOwnTarget_iff`).

What the service sees is observed: handlers record the request they are given, and layers may be any
that leave the target, the method and the kept target alone. The statement is that exactly one
request is recorded for a request under the whole prefix, for the service in question, and which one
it is.

The prefixes around a service are read off the tree of the router (`above`). Each node moves the
patterns of the routes and leaves the endpoint as it is, which is the whole argument: a path that is
matched starts with the prefixes, and stripping looks for the mount prefix in front of it
(`stripUriPrefix_eq_below_iff`).
-/

namespace Router

theorem nestedPattern_eq (pfx path : Str) : nestedPattern pfx path = pfx ++ path := by
  rw [nestedPattern]
  split
  · next h => rw [h]
  · rfl

end Router

namespace RouterTree

/-! ### Mounts -/

section Mounts

variable {T L : Type} {target : T} {pfx : Str}

/-- A service is mounted under `pfx` in a router nested under the prefixes, the outermost first.
Nothing else is said about the router. -/
inductive Mounts (target : T) (pfx : Str) : RouterTree (Endpoint T) L → List Str → Prop
  | nestService (self : RouterTree (Endpoint T) L) {raw : Str} :
    normalizeServicePrefix raw = pfx → pfx ≠ ['/'] →
    Mounts target pfx (self.nestService raw target) []
  | route {self prefixes} (path : Str) (methodRouter : MethodRouter (Endpoint T) L) :
    Mounts target pfx self prefixes → Mounts target pfx (self.route path methodRouter) prefixes
  | routeLayer {self prefixes} (l : L) :
    Mounts target pfx self prefixes → Mounts target pfx (self.routeLayer l) prefixes
  | layer {self prefixes} (l : L) :
    Mounts target pfx self prefixes → Mounts target pfx (self.layer l) prefixes
  | withFallback {self prefixes} (handler : Endpoint T) :
    Mounts target pfx self prefixes → Mounts target pfx (self.withFallback handler) prefixes
  | nest {other prefixes} (self : RouterTree (Endpoint T) L) (outer : Str) :
    Mounts target pfx other prefixes →
    Mounts target pfx (self.nest outer other) (outer :: prefixes)
  | nestBeside {self prefixes} (outer : Str) (other : RouterTree (Endpoint T) L) :
    Mounts target pfx self prefixes → Mounts target pfx (self.nest outer other) prefixes
  | merge {other prefixes} (self : RouterTree (Endpoint T) L) :
    Mounts target pfx other prefixes → Mounts target pfx (self.merge other) prefixes
  | mergeBeside {self prefixes} (other : RouterTree (Endpoint T) L) :
    Mounts target pfx self prefixes → Mounts target pfx (self.merge other) prefixes

/-- The path of a mount point above its own prefix. -/
def above (prefixes : List Str) : Str :=
  prefixes.flatMap Router.trimEndSlashes

/-- The prefix of a mount is a normalized one. -/
theorem Mounts.isServicePrefix {tree : RouterTree (Endpoint T) L} {prefixes : List Str}
    (h : Mounts target pfx tree prefixes) : IsServicePrefix pfx := by
  induction h with
  | nestService self hraw hroot =>
    rw [← hraw] at hroot ⊢
    exact isServicePrefix_normalize hroot
  | _ => assumption

/-- **The routes of a mounted service**, moved under the prefixes around it. The pattern of each has
the prefixes in front, and its endpoint is the one it was mounted with. -/
theorem Mounts.exists_declared {tree : RouterTree (Endpoint T) L} {prefixes : List Str}
    (h : Mounts target pfx tree prefixes) {path : Str} (hpath : path ∈ mountPaths pfx) :
    ∃ d ∈ tree.declared, d.pattern = above prefixes ++ path ∧
      d.methodRouter = .any (.stripped pfx target) := by
  induction h with
  | nestService self hraw hroot =>
    rw [declared_nestService self target (hraw ▸ hroot), hraw]
    exact ⟨_, List.mem_append_right _ (List.mem_map_of_mem hpath), rfl, rfl⟩
  | route path methodRouter _ ih =>
    obtain ⟨d, hd, h⟩ := ih
    exact ⟨d, List.mem_append_left _ hd, h⟩
  | routeLayer l _ ih => exact ih
  | layer l _ ih => exact ih
  | withFallback handler _ ih => exact ih
  | @nest other prefixes self outer _ ih =>
    obtain ⟨d, hd, hpattern, hmethodRouter⟩ := ih
    refine ⟨_, List.mem_append_right _ (List.mem_map_of_mem hd), ?_, hmethodRouter⟩
    have habove : above (outer :: prefixes) = Router.trimEndSlashes outer ++ above prefixes :=
      List.flatMap_cons
    rw [Declared.pattern_within, hpattern, habove, List.append_assoc]
    exact Router.nestedPattern_eq _ _
  | nestBeside outer other _ ih =>
    obtain ⟨d, hd, h⟩ := ih
    exact ⟨d, List.mem_append_left _ hd, h⟩
  | merge self _ ih =>
    obtain ⟨d, hd, hpattern, hmethodRouter⟩ := ih
    refine ⟨_, List.mem_append_right _ (List.mem_map_of_mem hd), ?_, hmethodRouter⟩
    rw [Declared.pattern_within, hpattern]
    rfl
  | mergeBeside other _ ih =>
    obtain ⟨d, hd, h⟩ := ih
    exact ⟨d, List.mem_append_left _ hd, h⟩

/-- Every path at or below a mount point matches one of the patterns there, none of which has a
parameter. -/
theorem exists_mountPath_captures {up pfx rest : Str} (hup : RoutePattern.IsLiteral up)
    (hpfx : RoutePattern.IsLiteral pfx) (hrest : rest = [] ∨ rest.head? = some '/') :
    ∃ path ∈ mountPaths pfx,
      (RoutePattern.captures (RoutePattern.parse (up ++ path)) (up ++ pfx ++ rest)).isSome ∧
        ∀ name, .param name ∉ RoutePattern.parse (up ++ path) := by
  have hlit := RoutePattern.isLiteral_append.2 ⟨hup, hpfx⟩
  rcases hrest with rfl | hhead
  · refine ⟨pfx, List.mem_cons_self, ?_⟩
    rw [RoutePattern.parse_literal hlit, RoutePattern.captures_literals, List.append_nil,
      if_pos rfl]
    exact ⟨rfl, by simp⟩
  · obtain ⟨tail, rfl⟩ := List.head?_eq_some_iff.1 hhead
    rcases tail with - | ⟨c, tail⟩
    · refine ⟨pfx ++ ['/'], List.mem_cons_of_mem _ List.mem_cons_self, ?_⟩
      rw [← List.append_assoc, RoutePattern.parse_literal (RoutePattern.isLiteral_append.2
        ⟨hlit, by decide⟩), RoutePattern.captures_literals, if_pos rfl]
      exact ⟨rfl, by simp⟩
    · have hrest : RoutePattern.parse "/{*__rest}".toList =
          [.literal '/', .catchAll "__rest".toList] := by decide
      refine ⟨pfx ++ "/{*__rest}".toList, by simp [mountPaths], ?_⟩
      rw [← List.append_assoc, RoutePattern.parse_literal_append hlit,
        RoutePattern.captures_literals_append, hrest]
      exact ⟨rfl, by simp⟩

end Mounts

/-! ### Observing what is served -/

section Observation

variable [MatchitLib] {H E B Λ T : Type} [Multimap H HeaderName HeaderValue] [Extensions E]
variable [Extensions.Slot E PathParams] [Extensions.Slot E MatchedPathExt]
variable [Extensions.Slot E OriginalUri] [FromBytes B]

/-- The part of a request that says what it is for. -/
def mountView (req : Request H E B) : Uri × Method × Option OriginalUri :=
  (req.uri, req.method, Extensions.Slot.get req.extensions)

/-- A layer that hands requests on without changing what they are for. -/
abbrev MountRelay (H E B Λ : Type) [Extensions E] [Extensions.Slot E OriginalUri] : Type :=
  Relay (mountView : Request H E B → Uri × Method × Option OriginalUri) Λ

/-- Targets record the request they are given, and answer. -/
def observing (answer : T → Request H E B → Response H E B) (names : ℕ → List Str → List Str) :
    Runtime H E B (StateM (List (T × Request H E B))) (Endpoint T) (MountRelay H E B Λ) where
  handle := Endpoint.handle fun target req ↦ do
    modify (· ++ [(target, req)])
    pure (answer target req)
  layer := Relay.wrap fun _ seen ↦ seen
  getOrInit idx keys := pure (names idx keys)

/-- The requests that the targets of a router are given. -/
def seenBy (answer : T → Request H E B → Response H E B) (names : ℕ → List Str → List Str)
    (router : Router (Endpoint T) (MountRelay H E B Λ)) (req : Request H E B) :
    List (T × Request H E B) :=
  ((router.intoService (observing answer names) req).run []).2

/-- The service is given the request for what is below its mount point, with the target kept as it
came in. -/
def SeesOwnTarget (answer : T → Request H E B → Response H E B)
    (names : ℕ → List Str → List Str) (router : Router (Endpoint T) (MountRelay H E B Λ))
    (target : T) (rest : Str) (req : Request H E B) : Prop :=
  ∃ seen, seenBy answer names router req = [(target, seen)] ∧
    seen.uri = { req.uri with path := if rest = [] then ['/'] else rest } ∧
    (Extensions.Slot.get seen.extensions : Option OriginalUri) = some ⟨req.uri⟩

variable {answer : T → Request H E B → Response H E B} {names : ℕ → List Str → List Str}
variable {tree : RouterTree (Endpoint T) (MountRelay H E B Λ)}
variable {router : Router (Endpoint T) (MountRelay H E B Λ)} {req : Request H E B}

omit [MatchitLib] [Multimap H HeaderName HeaderValue] [FromBytes B] in
/-- Recording a match does not change what a request is for. -/
theorem mountView_recordMatch [Extensions.Apart E OriginalUri PathParams]
    [Extensions.Apart E OriginalUri MatchedPathExt] (pattern : Str)
    (pathParams : Option PathParams) (req : Request H E B) :
    mountView (Router.recordMatch pattern pathParams req) = mountView req := by
  have hget : (Extensions.Slot.get (Router.recordMatch pattern pathParams req).extensions :
      Option OriginalUri) = Extensions.Slot.get req.extensions := by
    rcases pathParams with - | pp
    · exact Extensions.Apart.get_insert _ _
    · exact (Extensions.Apart.get_insert _ _).trans (Extensions.Apart.get_insert _ _)
  rw [mountView, Router.uri_recordMatch, Router.method_recordMatch, hget]
  rfl

/-- A request dispatched to a target under a prefix reaches it with that prefix stripped. -/
theorem seenBy_of_match [Extensions.Apart E OriginalUri PathParams]
    [Extensions.Apart E OriginalUri MatchedPathExt]
    (answer : T → Request H E B → Response H E B) (names : ℕ → List Str → List Str) {idx : ℕ}
    {entry : RouteEntry (Endpoint T) (MountRelay H E B Λ)} {params : List (Str × Str)}
    {pfx : Str} {target : T} (hmatch : router.matchRoute req.uri.path = some (idx, entry, params))
    (hhandler : entry.methodRouter.handlerFor req.method = some (.stripped pfx target)) :
    ∃ req', mountView req' = mountView req ∧
      seenBy answer names router req = [(target, stripRequest pfx req')] := by
  have hlayer : (observing answer names : Runtime H E B _ _ (MountRelay H E B Λ)).layer =
    Relay.wrap fun _ seen ↦ seen := rfl
  obtain ⟨reach, hreach, hstate⟩ := Relay.state_intoService_of_match hlayer
    (fun req req' hview ↦ ⟨congrArg (fun v ↦ v.1.path) hview, congrArg (fun v ↦ v.2.1) hview⟩)
    (fun pattern pathParams req req' hview ↦ (mountView_recordMatch pattern pathParams req).trans
      (hview.trans (mountView_recordMatch pattern pathParams req').symm)) hmatch hhandler
  obtain ⟨pathParams, hparams⟩ : ∃ pathParams, (Router.pathParams (observing answer names :
      Runtime H E B _ _ (MountRelay H E B Λ)) idx params).run [] = (pathParams, []) := by
    rw [Router.pathParams]
    split
    · exact ⟨_, rfl⟩
    · exact ⟨_, rfl⟩
  refine ⟨reach pathParams, (hreach pathParams).trans (mountView_recordMatch _ _ _), ?_⟩
  rw [seenBy, hstate, hparams]
  rfl

end Observation

/-! ### The target -/

/-- **The target is the one below the mount point only if the mount point is the prefix alone.** -/
theorem stripUriPrefix_eq_below_iff {uri : Uri} {up pfx rest : Str} (hpfx : IsServicePrefix pfx)
    (hrest : rest = [] ∨ rest.head? = some '/') (hpath : uri.path = up ++ pfx ++ rest) :
    (stripUriPrefix uri pfx).getD uri = { uri with path := if rest = [] then ['/'] else rest } ↔
      up = [] := by
  have hlen : 2 ≤ pfx.length := by
    obtain ⟨tail, rfl⟩ := List.head?_eq_some_iff.1 hpfx.head
    rcases tail with - | ⟨c, tail⟩
    · exact absurd rfl hpfx.last
    · simp
  constructor
  · intro h
    have hpaths := congrArg Uri.path h
    rcases hstrip : stripUriPrefix uri pfx with - | stripped
    · -- The path was left as it is, and it is longer than what is below the mount point.
      rw [hstrip, Option.getD_none, hpath] at hpaths
      have hlens := congrArg List.length hpaths
      simp only [List.length_append] at hlens
      split at hlens
      · simp only [List.length_singleton] at hlens
        omega
      · omega
    · rw [hstrip, Option.getD_some] at hpaths
      -- The prefix is taken off in front, and the lengths leave nothing above the mount point.
      obtain ⟨below, hbelow⟩ : pfx <+: uri.path := by
        by_contra hstart
        exact nomatch hstrip.symm.trans (stripUriPrefix_of_mismatch hstart)
      have hsplit : up ++ pfx ++ rest = pfx ++ below := hpath.symm.trans hbelow.symm
      have hlens := congrArg List.length hsplit
      simp only [List.length_append] at hlens
      rw [stripUriPrefix_of_append hpfx.ne_root hbelow.symm] at hstrip
      split at hstrip
      · next hnil =>
        rw [hnil, List.length_nil] at hlens
        exact List.length_eq_zero_iff.1 (by omega)
      · split at hstrip
        · obtain rfl := Option.some.inj hstrip
          split at hpaths
          · -- A prefix does not end in a slash.
            next hnil =>
            have hlast := congrArg List.getLast? hsplit
            rw [hnil, List.append_nil, show below = ['/'] from hpaths,
              List.getLast?_append_of_ne_nil _ hpfx.ne_nil, List.getLast?_concat] at hlast
            exact absurd hlast hpfx.last
          · rw [show below = rest from hpaths] at hlens
            exact List.length_eq_zero_iff.1 (by omega)
        · exact nomatch hstrip
  · rintro rfl
    rw [stripUriPrefix_of_append hpfx.ne_root hpath]
    split
    · rfl
    · next hne => rw [if_pos (hrest.resolve_left hne)]; rfl

/-! ### What the mounted service sees -/

section Seen

variable [MatchitLib] {H E B Λ T : Type} [Multimap H HeaderName HeaderValue] [Extensions E]
variable [Extensions.Slot E PathParams] [Extensions.Slot E MatchedPathExt]
variable [Extensions.Slot E OriginalUri] [FromBytes B] [Extensions.Apart E OriginalUri PathParams]
variable [Extensions.Apart E OriginalUri MatchedPathExt]
variable {answer : T → Request H E B → Response H E B} {names : ℕ → List Str → List Str}
variable {tree : RouterTree (Endpoint T) (MountRelay H E B Λ)}
variable {router : Router (Endpoint T) (MountRelay H E B Λ)} {req : Request H E B}

/-- **When a mounted service sees what is below its mount point**: the prefixes around its own are
empty, and no other target was kept before. -/
theorem seesOwnTarget_iff [LawfulMatchit] (hbuild : tree.build = some router) {target : T}
    {pfx : Str} {prefixes : List Str} (hmount : Mounts target pfx tree prefixes)
    (hliteral : RoutePattern.IsLiteral (above prefixes) ∧ RoutePattern.IsLiteral pfx) {rest : Str}
    (hrest : rest = [] ∨ rest.head? = some '/')
    (hpath : req.uri.path = above prefixes ++ pfx ++ rest)
    (halone : ∀ d ∈ tree.declared,
      (RoutePattern.captures (RoutePattern.parse d.pattern) req.uri.path).isSome →
        d.methodRouter = .any (.stripped pfx target)) :
    SeesOwnTarget answer names router target rest req ↔
      above prefixes = [] ∧ ∀ original : OriginalUri,
        Extensions.Slot.get req.extensions = some original → original = ⟨req.uri⟩ := by
  have hrep := represents_of_build hbuild
  -- The request is dispatched to the service.
  obtain ⟨path, hmem, hcaps, hparam⟩ := exists_mountPath_captures hliteral.1 hliteral.2 hrest
  obtain ⟨d, hd, hpattern, -⟩ := hmount.exists_declared hmem
  have hroute : d.flatten ∈ router.routes := by
    rw [hrep.routes]
    exact List.mem_map_of_mem hd
  have hflatten : d.flatten.pattern = above prefixes ++ path := hpattern
  have hcaptures :
      (RoutePattern.captures (RoutePattern.parse d.flatten.pattern) req.uri.path).isSome := by
    rwa [hflatten, hpath]
  obtain ⟨idx, entry, params, hmatch, -⟩ :=
    Router.exists_matchRoute hroute hcaptures fun other _ ↦ by
      rw [hflatten]
      exact RoutePattern.not_diverts_of_forall hparam _ _
  obtain ⟨d', hd', rfl⟩ := exists_declared_of_match hbuild hmatch
  have hcaps' := (Router.matchRoute_eq_some hmatch).2
  have hany := halone d' (List.mem_of_getElem? hd') (by
    rw [show d'.pattern = d'.flatten.pattern from rfl, hcaps']
    rfl)
  have hhandler : d'.flatten.methodRouter.handlerFor req.method = some (.stripped pfx target) := by
    rw [Declared.flatten, MethodRouter.handlerFor_extendLayers, hany, MethodRouter.handlerFor_any]
  obtain ⟨req', hview, hseen⟩ := seenBy_of_match answer names hmatch hhandler
  obtain ⟨huri, hrest'⟩ := Prod.mk.inj hview
  have hget := (Prod.mk.inj hrest').2
  -- What it sees there.
  have hseenUri : (stripRequest pfx req').uri = (stripUriPrefix req.uri pfx).getD req.uri := by
    rw [uri_stripRequest, huri]
  have hseenOriginal : (Extensions.Slot.get (stripRequest pfx req').extensions :
      Option OriginalUri) = some ((Extensions.Slot.get req.extensions).getD ⟨req.uri⟩) := by
    rw [originalUri_stripRequest, hget, huri]
  have hbelow := stripUriPrefix_eq_below_iff hmount.isServicePrefix hrest hpath
  constructor
  · rintro ⟨seen, hseen', hown, horiginal⟩
    obtain rfl := (Prod.mk.inj (List.cons.inj (hseen.symm.trans hseen')).1).2
    refine ⟨hbelow.1 (hseenUri.symm.trans hown), fun original hkept ↦ ?_⟩
    rw [hseenOriginal, hkept] at horiginal
    exact Option.some.inj horiginal
  · rintro ⟨habove, hkept⟩
    refine ⟨_, hseen, hseenUri.trans (hbelow.2 habove), hseenOriginal.trans ?_⟩
    rcases horiginal : (Extensions.Slot.get req.extensions : Option OriginalUri) with - | original
    · rfl
    · exact congrArg some (hkept original horiginal)

end Seen

/-! ### Two mounts -/

section Examples

private abbrev MountFields := AssocList HeaderName HeaderValue

private abbrev MountExtensions :=
  Option OriginalUri × Option PathParams × Option MatchedPathExt

attribute [local instance] MatchitLib.list

private def mountedRequest (path : Str) : Request MountFields MountExtensions (Body MountFields) :=
  .new ⟨.get, { path, query := some "v=1".toList }, Multimap.empty, Extensions.empty, Body.empty,
    .http11⟩

/-- A service mounted in a router, which may be nested. -/
private def assets : RouterTree (Endpoint Unit)
    (MountRelay MountFields MountExtensions (Body MountFields) Unit) :=
  RouterTree.new.nestService "/static/".toList ()

theorem seesOwnTarget_assets : ∃ router, assets.build = some router ∧
    SeesOwnTarget (fun _ _ ↦ StatusCode.ok.intoResponse) (fun _ names ↦ names) router ()
      "/app.js".toList (mountedRequest "/static/app.js".toList) := by
  obtain ⟨router, hbuild⟩ : ∃ router, assets.build = some router := ⟨_, rfl⟩
  have hroot : normalizeServicePrefix "/static/".toList ≠ ['/'] := by decide
  have hmount : Mounts () "/static".toList assets [] := .nestService _ rfl (by decide)
  have halone : ∀ d ∈ assets.declared, (RoutePattern.captures (RoutePattern.parse d.pattern)
      (mountedRequest "/static/app.js".toList).uri.path).isSome →
        d.methodRouter = .any (.stripped "/static".toList ()) := by
    intro d hd _
    rw [assets, declared_nestService _ _ hroot] at hd
    obtain ⟨path, -, rfl⟩ := List.mem_map.1 hd
    rfl
  exact ⟨router, hbuild, (seesOwnTarget_iff hbuild hmount ⟨by decide, by decide⟩ (.inr rfl) rfl
    halone).2 ⟨rfl, fun original h ↦ nomatch h⟩⟩

/-- Nested, the service sees the whole target. -/
theorem not_seesOwnTarget_nested : ¬ ∀ router,
    (RouterTree.new.nest "/app".toList assets).build = some router →
      Mounts () "/static".toList (RouterTree.new.nest "/app".toList assets) ["/app".toList] →
        SeesOwnTarget (fun _ _ ↦ StatusCode.ok.intoResponse) (fun _ names ↦ names) router ()
          "/app.js".toList (mountedRequest "/app/static/app.js".toList) := by
  intro h
  obtain ⟨router, hbuild, hpaths⟩ : ∃ router,
      (RouterTree.new.nest "/app".toList assets).build = some router ∧
        (seenBy (fun _ _ ↦ StatusCode.ok.intoResponse) (fun _ names ↦ names) router
          (mountedRequest "/app/static/app.js".toList)).map (fun seen ↦ seen.2.uri.path) =
            ["/app/static/app.js".toList] := ⟨_, rfl, by decide⟩
  have hmount : Mounts () "/static".toList assets [] := .nestService _ rfl (by decide)
  obtain ⟨seen, hseen, huri, -⟩ := h router hbuild (.nest _ _ hmount)
  rw [hseen, List.map_singleton, huri] at hpaths
  exact absurd hpaths (by decide)

end Examples

end RouterTree
