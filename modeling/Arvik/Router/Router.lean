import Arvik.Router.Matchit
import Arvik.Router.MethodRouter
import Arvik.Router.Params

/-!
# The router

A router holds its routes, the trie that finds them by path, a fallback and two lists of layers.
Routers are built by adding routes and layers and by taking over the routes of another router: under
a path prefix (`nest`) or as they are (`merge`), with the layers of the other router folded into its
method routers. A conflict between patterns, and a fallback in a nested router, are refused.

A router carries the proof that its trie numbers its routes, so a match always finds a route
(`exists_matchRoute`) and comes with what the pattern captures (`matchRoute_eq_some`). The trie is
that of the matching library and known by its laws alone; which of these an operation needs can be
seen from its instances, and building a router needs none.

The definitions follow the source in what happens in which order: a path is matched, the match is
recorded in the request, and the method router is called, with the layers for matched routes around
it and the layers of the router around everything. `dispatch_of_match` is the summary that the
modules above use.
-/

/-- A route. -/
structure RouteEntry (Hd L : Type) where
  pattern : Str
  methodRouter : MethodRouter Hd L

/-- A router. -/
structure Router [MatchitLib] (Hd L : Type) where
  trie : MatchitLib.Trie
  routes : List (RouteEntry Hd L)
  fallback : Option Hd
  /-- Layers around all requests. -/
  layers : List L
  /-- Layers around the requests that match a route. -/
  routeLayers : List L
  numbered : Numbered MatchitLib.new MatchitLib.insert trie (routes.map RouteEntry.pattern)

namespace Router

variable [MatchitLib] {Hd L : Type}

/-! ### Construction -/

/-- A router without routes. -/
def new : Router Hd L where
  trie := MatchitLib.new
  routes := []
  fallback := none
  layers := []
  routeLayers := []
  numbered := .new

/-- Add a route, unless its pattern conflicts. -/
def route (self : Router Hd L) (path : Str) (methodRouter : MethodRouter Hd L) :
    Option (Router Hd L) :=
  match h : MatchitLib.insert self.trie path self.routes.length with
  | none => none
  | some trie => some {
      self with
      trie := trie
      routes := self.routes ++ [⟨path, methodRouter⟩]
      numbered := by
        rw [List.map_append]
        exact .insert self.numbered (by rwa [List.length_map]) }

omit [MatchitLib] in
theorem map_pattern_modify (routes : List (RouteEntry Hd L)) (idx : ℕ)
    (methodRouter : MethodRouter Hd L) :
    (routes.modify idx fun entry ↦ { entry with methodRouter }).map RouteEntry.pattern =
      routes.map RouteEntry.pattern := by
  refine List.ext_getElem? fun j ↦ ?_
  rw [List.getElem?_map, List.getElem?_map, List.getElem?_modify]
  split_ifs
  · simp [Function.comp_def]
  · simp

/-- Put another method router on a route. -/
def setMethodRouter (self : Router Hd L) (idx : ℕ) (methodRouter : MethodRouter Hd L) :
    Router Hd L :=
  { self with
    routes := self.routes.modify idx fun entry ↦ { entry with methodRouter }
    numbered := by
      rw [map_pattern_modify]
      exact self.numbered }

/-- The other routes stay as they are. -/
theorem getElem?_setMethodRouter (self : Router Hd L) (idx : ℕ) (methodRouter : MethodRouter Hd L)
    (j : ℕ) : (self.setMethodRouter idx methodRouter).routes[j]? =
      self.routes[j]?.map fun entry ↦ if idx = j then { entry with methodRouter } else entry :=
  List.getElem?_modify _ _ _ _

/-- Add a route, or merge with the route that is there already. -/
def routeCollected (self : Router Hd L) (path : Str) (methodRouter : MethodRouter Hd L) :
    Option (Router Hd L) :=
  match self.routes.findIdx? fun entry ↦ entry.pattern = path with
  | some idx => do
    let existing ← self.routes[idx]?
    let merged ← existing.methodRouter.merge methodRouter
    pure (self.setMethodRouter idx merged)
  | none => self.route path methodRouter

/-- A handler for a route that is there is merged into it. -/
theorem routeCollected_eq_map {self : Router Hd L} {path : Str} {idx : ℕ} {entry : RouteEntry Hd L}
    (hfind : self.routes.findIdx? (fun entry ↦ entry.pattern = path) = some idx)
    (hentry : self.routes[idx]? = some entry) (methodRouter : MethodRouter Hd L) :
    self.routeCollected path methodRouter =
      (entry.methodRouter.merge methodRouter).map (self.setMethodRouter idx) := by
  rw [routeCollected, hfind]
  show (self.routes[idx]?.bind fun existing ↦ (existing.methodRouter.merge methodRouter).bind
    fun merged ↦ some (self.setMethodRouter idx merged)) = _
  rw [hentry, Option.bind_some, Option.map_eq_bind]
  rfl

/-- Set the fallback. -/
def withFallback (self : Router Hd L) (handler : Hd) : Router Hd L :=
  { self with fallback := some handler }

/-- Add a layer around all requests. -/
def layer (self : Router Hd L) (layer : L) : Router Hd L :=
  { self with layers := self.layers ++ [layer] }

/-- Add a layer around the requests that match a route. -/
def routeLayer (self : Router Hd L) (layer : L) : Router Hd L :=
  { self with routeLayers := self.routeLayers ++ [layer] }

/-- A prefix without its trailing slashes. -/
def trimEndSlashes (pfx : Str) : Str :=
  (pfx.reverse.dropWhile (· = '/')).reverse

/-- The pattern of a nested route. -/
def nestedPattern (pfx path : Str) : Str :=
  if path = ['/'] then pfx ++ ['/'] else pfx ++ path

/-- Take over routes under patterns of their own, with more layers around their handlers. -/
def adopt (self : Router Hd L) (rename : Str → Str) (subLayers : List L)
    (entries : List (RouteEntry Hd L)) : Option (Router Hd L) :=
  entries.foldlM (fun router entry ↦
    router.route (rename entry.pattern) (entry.methodRouter.extendLayers subLayers)) self

/-- Mount the routes of another router under a prefix. -/
def nest (self : Router Hd L) (pfx : Str) (other : Router Hd L) : Option (Router Hd L) :=
  if other.fallback.isSome then none
  else self.adopt (nestedPattern (trimEndSlashes pfx)) (other.routeLayers ++ other.layers)
    other.routes

/-- Take over the routes of another router, and its fallback if there is none yet. -/
def merge (self other : Router Hd L) : Option (Router Hd L) :=
  (self.adopt id (other.routeLayers ++ other.layers) other.routes).map fun router ↦
    { router with fallback := router.fallback.or other.fallback }

/-- Adding a route changes nothing else. -/
theorem route_eq_some {self router : Router Hd L} {path : Str} {methodRouter : MethodRouter Hd L}
    (h : self.route path methodRouter = some router) :
    router.routes = self.routes ++ [⟨path, methodRouter⟩] ∧ router.fallback = self.fallback ∧
      router.layers = self.layers ∧ router.routeLayers = self.routeLayers := by
  rw [route] at h
  split at h
  · exact nomatch h
  · obtain rfl := Option.some.inj h
    exact ⟨rfl, rfl, rfl, rfl⟩

/-- A route is refused if its pattern is. -/
theorem route_eq_none_iff {self : Router Hd L} {path : Str} {methodRouter : MethodRouter Hd L} :
    self.route path methodRouter = none ↔
      MatchitLib.insert self.trie path self.routes.length = none := by
  rw [route]
  split
  · next h => exact iff_of_true rfl h
  · next h => simp [h]

/-- Taking over routes adds them in order and changes nothing else. -/
theorem adopt_eq_some {self router : Router Hd L} {rename : Str → Str} {subLayers : List L}
    {entries : List (RouteEntry Hd L)} (h : self.adopt rename subLayers entries = some router) :
    router.routes = self.routes ++ entries.map (fun entry ↦
        ⟨rename entry.pattern, entry.methodRouter.extendLayers subLayers⟩) ∧
      router.fallback = self.fallback ∧ router.layers = self.layers ∧
        router.routeLayers = self.routeLayers := by
  induction entries generalizing self with
  | nil =>
    obtain rfl := Option.some.inj h
    exact ⟨(List.append_nil _).symm, rfl, rfl, rfl⟩
  | cons entry entries ih =>
    obtain ⟨next, hnext, hrest⟩ := Option.bind_eq_some_iff.1 h
    obtain ⟨hroutes, hfallback, hlayers, hrouteLayers⟩ := route_eq_some hnext
    obtain ⟨hroutes', hfallback', hlayers', hrouteLayers'⟩ := ih hrest
    refine ⟨?_, hfallback'.trans hfallback, hlayers'.trans hlayers,
      hrouteLayers'.trans hrouteLayers⟩
    rw [hroutes', hroutes, List.append_assoc]
    rfl

/-! ### Lookup -/

/-- The route that matches a path, its number and what its pattern captures. -/
def matchRoute (self : Router Hd L) (path : Str) :
    Option (ℕ × RouteEntry Hd L × List (Str × Str)) :=
  (MatchitLib.matchAt self.trie path).bind fun (idx, params) ↦
    self.routes[idx]?.map fun entry ↦ (idx, entry, params)

/-- A match is what the trie answers, with the route of that number. -/
theorem matchRoute_eq_some_iff {self : Router Hd L} {path : Str} {idx : ℕ}
    {entry : RouteEntry Hd L} {params : List (Str × Str)} :
    self.matchRoute path = some (idx, entry, params) ↔
      MatchitLib.matchAt self.trie path = some (idx, params) ∧
        self.routes[idx]? = some entry := by
  constructor
  · intro h
    obtain ⟨⟨i, ps⟩, hat, hroute⟩ := Option.bind_eq_some_iff.1 h
    obtain ⟨e, he, heq⟩ := Option.map_eq_some_iff.1 hroute
    simp only [Prod.mk.injEq] at heq
    obtain ⟨rfl, rfl, rfl⟩ := heq
    exact ⟨hat, he⟩
  · rintro ⟨hat, hentry⟩
    exact Option.bind_eq_some_iff.2
      ⟨(idx, params), hat, Option.map_eq_some_iff.2 ⟨entry, hentry, rfl⟩⟩

/-- A match is a route of the router, and captures what the pattern does. -/
theorem matchRoute_eq_some [LawfulMatchit] {self : Router Hd L} {path : Str} {idx : ℕ}
    {entry : RouteEntry Hd L} {params : List (Str × Str)}
    (h : self.matchRoute path = some (idx, entry, params)) :
    self.routes[idx]? = some entry ∧
      RoutePattern.captures (RoutePattern.parse entry.pattern) path = some params := by
  obtain ⟨hat, hentry⟩ := matchRoute_eq_some_iff.1 h
  obtain ⟨pattern, hpattern, hcaps⟩ := LawfulMatchit.exists_of_matchAt self.numbered hat
  rw [List.getElem?_map, hentry] at hpattern
  obtain rfl := Option.some.inj hpattern
  exact ⟨hentry, hcaps⟩

/-- **A path that the pattern of a route matches is found**, unless another route leads it away:
under that route, or under one whose pattern it does not precede. -/
theorem exists_matchRoute [LawfulMatchit] {self : Router Hd L} {path : Str}
    {entry : RouteEntry Hd L} (hmem : entry ∈ self.routes)
    (hcaps : (RoutePattern.captures (RoutePattern.parse entry.pattern) path).isSome)
    (hdiverts : ∀ other ∈ self.routes, RoutePattern.diverts (RoutePattern.parse entry.pattern)
      (RoutePattern.parse other.pattern) path = false) :
    ∃ idx found params, self.matchRoute path = some (idx, found, params) ∧
      RoutePattern.precedes (RoutePattern.parse entry.pattern)
        (RoutePattern.parse found.pattern) = false := by
  obtain ⟨idx, params, pattern, hat, hpattern, hfirst⟩ :=
    LawfulMatchit.exists_matchAt self.numbered (List.mem_map_of_mem hmem) hcaps
      (List.forall_mem_map.2 hdiverts)
  rw [List.getElem?_map] at hpattern
  obtain ⟨found, hfound, rfl⟩ := Option.map_eq_some_iff.1 hpattern
  exact ⟨idx, found, params, matchRoute_eq_some_iff.2 ⟨hat, hfound⟩, hfirst⟩

/-! ### Dispatch -/

section Dispatch

variable {H E B : Type} {m : Type → Type} [Multimap H HeaderName HeaderValue] [Extensions E]
variable [Extensions.Slot E PathParams] [Extensions.Slot E MatchedPathExt] [FromBytes B] [Monad m]
variable (rt : Runtime H E B m Hd L)

/-- The response to a path without a route. -/
def notFound : Response H E B :=
  ((ResponseBuilder.new.status .notFound).header HeaderName.contentType
    HeaderValue.textPlainUtf8).text "Not Found".toList

/-- The parameters of a match, if there are any. The names are those kept for the route. -/
def pathParams (idx : ℕ) (params : List (Str × Str)) : m (Option PathParams) :=
  if params.isEmpty then pure none
  else do
    let keys ← rt.getOrInit idx (params.map Prod.fst)
    pure (some ⟨List.zipWith (fun key p ↦ (key, percentDecode p.2)) keys params⟩)

/-- Record in a request what matched; without parameters, none are stored. -/
def recordMatch (pattern : Str) (pathParams : Option PathParams) (req : Request H E B) :
    Request H E B :=
  let req := match pathParams with
    | some pp => req.insertExtension pp
    | none => req
  req.insertExtension (MatchedPathExt.mk pattern)

/-- A service that is given the request with the match recorded, and whose response is given the
pattern. -/
def routed (idx : ℕ) (pattern : Str) (params : List (Str × Str)) (service : Service H E B m) :
    Service H E B m := fun req ↦ do
  let pathParams ← pathParams rt idx params
  let response ← service (recordMatch pattern pathParams req)
  pure (response.insertExtension (MatchedPathExt.mk pattern))

/-- The method router of a route, inside the layers for matched routes if there are any. -/
def layeredRoute (self : Router Hd L) (entry : RouteEntry Hd L) : Service H E B m :=
  if self.routeLayers.isEmpty then entry.methodRouter.clone.call rt
  else applyLayers rt (entry.methodRouter.clone.call rt) self.routeLayers

/-- Dispatch a request by its path. -/
def dispatch (self : Router Hd L) : Service H E B m := fun req ↦
  match self.matchRoute req.uri.path with
  | some (idx, entry, params) =>
    routed rt idx entry.pattern params (self.layeredRoute rt entry) req
  | none =>
    match self.fallback with
    | some handler => do
      let response ← rt.handle handler req
      pure (response.insertExtension (MatchedPathExt.mk "__fallback".toList))
    | none => pure (notFound.insertExtension (MatchedPathExt.mk "__unmatched".toList))

/-- The router as a service. -/
def intoService (self : Router Hd L) : Service H E B m :=
  applyLayers rt (self.dispatch rt) self.layers

omit [Extensions.Slot E PathParams] [Extensions.Slot E MatchedPathExt] in
@[simp]
theorem layeredRoute_eq (self : Router Hd L) (entry : RouteEntry Hd L) :
    self.layeredRoute rt entry =
      applyLayers rt (entry.methodRouter.clone.call rt) self.routeLayers := by
  rw [layeredRoute]
  split
  · next hlayers => rw [List.isEmpty_iff.1 hlayers]; rfl
  · rfl

omit [MatchitLib] [Multimap H HeaderName HeaderValue] [FromBytes B] in
@[simp]
theorem uri_recordMatch (pattern : Str) (pathParams : Option PathParams) (req : Request H E B) :
    (recordMatch pattern pathParams req).uri = req.uri := by
  rcases pathParams with - | pp
  · rfl
  · rfl

omit [MatchitLib] [Multimap H HeaderName HeaderValue] [FromBytes B] in
@[simp]
theorem method_recordMatch (pattern : Str) (pathParams : Option PathParams)
    (req : Request H E B) : (recordMatch pattern pathParams req).method = req.method := by
  rcases pathParams with - | pp
  · rfl
  · rfl

variable {rt}

omit [MatchitLib] [Multimap H HeaderName HeaderValue] [FromBytes B] in
/-- A routed service matters only at the requests in which a match was recorded. -/
theorem routed_congr {idx : ℕ} {pattern : Str} {params : List (Str × Str)}
    {service service' : Service H E B m} {req : Request H E B}
    (h : ∀ pathParams, service (recordMatch pattern pathParams req) =
      service' (recordMatch pattern pathParams req)) :
    routed rt idx pattern params service req = routed rt idx pattern params service' req :=
  bind_congr fun pathParams ↦ congrArg (· >>= _) (h pathParams)

theorem dispatch_of_match {self : Router Hd L} {req : Request H E B} {idx : ℕ}
    {entry : RouteEntry Hd L} {params : List (Str × Str)}
    (h : self.matchRoute req.uri.path = some (idx, entry, params)) :
    self.dispatch rt req = routed rt idx entry.pattern params
      (applyLayers rt (entry.methodRouter.clone.call rt) self.routeLayers) req := by
  rw [dispatch, h]
  exact congrArg (routed rt idx entry.pattern params · req) (layeredRoute_eq rt self entry)

end Dispatch

end Router
