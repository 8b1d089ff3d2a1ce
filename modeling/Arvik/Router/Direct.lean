import Arvik.Core.Body
import Arvik.Router.MethodUnion
import Arvik.Router.SharedRouters

/-!
# Calling a router directly

A router without layers of its own can be called directly, with a state, or have the state bound and
be turned into a service. The two dispatch in code of their own. Both keep the parameter names of a
route from its first match on, and method routers that are called directly keep the handlers they
built.

A reference says what a router answers, without anything that is kept (`Router.answer`). Whatever
requests were served before, both answer as the reference does, and so they answer alike
(`RouterInUse.call_eq_service`).

What is kept is right as long as it is empty or what would be computed now. That is `Coherent`, and
serving a request keeps it, in either of the two ways; the history of requests is a fold and the
invariant goes through it. A router whose state is bound is compared with the original through the
reference as well (`Binds.answer_eq`), so the two histories of what is kept are never compared with
each other.
-/

section Direct

variable {H E B : Type} {m : Type → Type} {Hd Hd' L : Type} [MatchitLib]

/-- A route without what its method router keeps. -/
def RouteEntry.clone (self : RouteEntry Hd L) : RouteEntry Hd L :=
  { self with methodRouter := self.methodRouter.clone }

/-- Bind the state of a router. -/
def Router.withState (self : Router Hd L) (bind : Hd → Hd') : Router Hd' L where
  trie := self.trie
  routes := self.routes.map fun entry ↦ ⟨entry.pattern, entry.methodRouter.withState bind⟩
  fallback := self.fallback.map bind
  layers := self.layers
  routeLayers := self.routeLayers
  numbered := by
    rw [List.map_map]
    exact self.numbered

/-- A router with the parameter names that it keeps for its routes. -/
structure RouterInUse (Hd L : Type) [MatchitLib] where
  router : Router Hd L
  paramKeys : ℕ → Option (List Str) := fun _ ↦ none

/-! ### Serving -/

namespace RouterInUse

/-- Bind the state of a router; the names are kept. -/
def withState (self : RouterInUse Hd L) (bind : Hd → Hd') : RouterInUse Hd' L where
  router := self.router.withState bind
  paramKeys := self.paramKeys

/-- A router after it served a path as a service: the names of the route that matched are kept. -/
def afterDispatch (self : RouterInUse Hd L) (path : Str) : RouterInUse Hd L :=
  { self with paramKeys := match self.router.matchRoute path with
    | some (idx, _, params) =>
      if params.isEmpty then self.paramKeys
      else Function.update self.paramKeys idx
        (some ((self.paramKeys idx).getD (params.map Prod.fst)))
    | none => self.paramKeys }

/-- A router after it was called directly: its method router keeps what it built as well. -/
def afterCall (self : RouterInUse Hd L) (path : Str) : RouterInUse Hd L :=
  { self.afterDispatch path with router := match self.router.matchRoute path with
    | some (idx, entry, _) => self.router.setMethodRouter idx entry.methodRouter.called
    | none => self.router }

variable [Multimap H HeaderName HeaderValue] [Extensions E] [Extensions.Slot E PathParams]
variable [Extensions.Slot E MatchedPathExt] [FromBytes B] [Monad m] (rt : Runtime H E B m Hd L)

/-- Dispatch a request directly, without the layers of the router. -/
def call (self : RouterInUse Hd L) : Service H E B m := fun req ↦
  match self.router.matchRoute req.uri.path with
  | some (idx, entry, params) => do
    -- the extension is not touched by a route without parameters
    let req := if params.isEmpty then req else
      let keys := (self.paramKeys idx).getD (params.map Prod.fst)
      req.insertExtension (PathParams.mk
        (List.zipWith (fun key p ↦ (key, percentDecode p.2)) keys params))
    let req := req.insertExtension (MatchedPathExt.mk entry.pattern)
    let response ← entry.methodRouter.call rt req
    pure (response.insertExtension (MatchedPathExt.mk entry.pattern))
  | none =>
    match self.router.fallback with
    | some handler => do
      let response ← rt.handle handler req
      pure (response.insertExtension (MatchedPathExt.mk "__fallback".toList))
    | none => pure (Router.notFound.insertExtension (MatchedPathExt.mk "__unmatched".toList))

/-- The service that a router is turned into, with the names that are kept. -/
def service (self : RouterInUse Hd L) : Service H E B m :=
  self.router.intoService
    { rt with getOrInit := fun idx names ↦ pure ((self.paramKeys idx).getD names) }

end RouterInUse

/-! ### The reference -/

namespace Router

variable [Multimap H HeaderName HeaderValue] [Extensions E] [Extensions.Slot E PathParams]
variable [Extensions.Slot E MatchedPathExt] [FromBytes B] [Monad m]

/-- What a pattern captured, with the values decoded; nothing if there are no parameters. -/
def captured (params : List (Str × Str)) : Option PathParams :=
  if params.isEmpty then none else some ⟨params.map fun p ↦ (p.1, percentDecode p.2)⟩

/-- The route that matches a path, without what it keeps, and what its pattern captured. -/
def found (self : Router Hd L) (path : Str) : Option (RouteEntry Hd L × Option PathParams) :=
  (self.matchRoute path).map fun (_, entry, params) ↦ (entry.clone, captured params)

/-- **The reference**: the method router of the route that matches is given the captures, or else
the fallback answers. -/
def answer (rt : Runtime H E B m Hd L) (self : Router Hd L) : Service H E B m := fun req ↦
  match self.found req.uri.path with
  | some (entry, params) => do
    let response ← entry.methodRouter.call rt (recordMatch entry.pattern params req)
    pure (response.insertExtension (MatchedPathExt.mk entry.pattern))
  | none =>
    match self.fallback with
    | some handler => do
      let response ← rt.handle handler req
      pure (response.insertExtension (MatchedPathExt.mk "__fallback".toList))
    | none => pure (notFound.insertExtension (MatchedPathExt.mk "__unmatched".toList))

end Router

/-! ### What is kept does not show -/

namespace RouterInUse

/-- What is kept is what would be built: the names are those of the patterns, and the method routers
are sound. -/
structure Coherent (served : RouterInUse Hd L) : Prop where
  paramKeys : ∀ idx keys entry, served.paramKeys idx = some keys →
    served.router.routes[idx]? = some entry →
      keys = RoutePattern.names (RoutePattern.parse entry.pattern)
  fresh : ∀ entry ∈ served.router.routes, entry.methodRouter.Fresh

/-- The routers are the same but for what is kept. -/
structure Alike (router router' : Router Hd L) : Prop where
  trie : router'.trie = router.trie
  routes : router'.routes.map RouteEntry.clone = router.routes.map RouteEntry.clone
  fallback : router'.fallback = router.fallback
  layers : router'.layers = router.layers
  routeLayers : router'.routeLayers = router.routeLayers

variable {self : RouterInUse Hd L}

/-- The names that are kept for a match are those that were captured. -/
theorem Coherent.getD_paramKeys [LawfulMatchit] (h : self.Coherent) {path : Str} {idx : ℕ}
    {entry : RouteEntry Hd L} {params : List (Str × Str)}
    (hmatch : self.router.matchRoute path = some (idx, entry, params)) :
    (self.paramKeys idx).getD (params.map Prod.fst) = params.map Prod.fst := by
  obtain ⟨hentry, hcaps⟩ := Router.matchRoute_eq_some hmatch
  rcases hkeys : self.paramKeys idx with - | keys
  · rfl
  · rw [Option.getD_some, h.paramKeys idx keys entry hkeys hentry,
      RoutePattern.map_fst_of_captures hcaps]

theorem Coherent.afterDispatch [LawfulMatchit] (h : self.Coherent) (path : Str) :
    (self.afterDispatch path).Coherent := by
  refine ⟨fun idx keys entry hkeys hentry ↦ ?_, h.fresh⟩
  rcases hmatch : self.router.matchRoute path with - | ⟨i, e, params⟩
  · simp only [RouterInUse.afterDispatch, hmatch] at hkeys
    exact h.paramKeys idx keys entry hkeys hentry
  · simp only [RouterInUse.afterDispatch, hmatch] at hkeys
    split_ifs at hkeys
    · exact h.paramKeys idx keys entry hkeys hentry
    · rw [h.getD_paramKeys hmatch] at hkeys
      obtain ⟨he, hcaps⟩ := Router.matchRoute_eq_some hmatch
      by_cases hidx : idx = i
      · rw [hidx, Function.update_self] at hkeys
        rw [hidx] at hentry
        obtain rfl := Option.some.inj (he.symm.trans hentry)
        rw [← Option.some.inj hkeys, RoutePattern.map_fst_of_captures hcaps]
      · rw [Function.update_of_ne hidx] at hkeys
        exact h.paramKeys idx keys entry hkeys hentry

theorem Coherent.afterCall [LawfulMatchit] (h : self.Coherent) (path : Str) :
    (self.afterCall path).Coherent := by
  have hdispatch := h.afterDispatch path
  rcases hmatch : self.router.matchRoute path with - | ⟨i, e, params⟩
  · have hsame : self.afterCall path = self.afterDispatch path := by
      simp only [RouterInUse.afterCall, RouterInUse.afterDispatch, hmatch]
    exact hsame ▸ hdispatch
  · have hrouter : (self.afterCall path).router =
        self.router.setMethodRouter i e.methodRouter.called := by
      simp only [RouterInUse.afterCall, hmatch]
    obtain ⟨-, he⟩ := Router.matchRoute_eq_some_iff.1 hmatch
    refine ⟨fun idx keys entry hkeys hentry ↦ ?_, fun entry hmem ↦ ?_⟩
    · rw [hrouter, Router.getElem?_setMethodRouter] at hentry
      obtain ⟨entry', hentry', rfl⟩ := Option.map_eq_some_iff.1 hentry
      have hpattern := hdispatch.paramKeys idx keys entry' hkeys hentry'
      split_ifs
      · exact hpattern
      · exact hpattern
    · obtain ⟨j, hj⟩ := List.mem_iff_getElem?.1 hmem
      rw [hrouter, Router.getElem?_setMethodRouter] at hj
      obtain ⟨entry', hentry', rfl⟩ := Option.map_eq_some_iff.1 hj
      split_ifs
      · exact (h.fresh e (List.mem_of_getElem? he)).called
      · exact h.fresh entry' (List.mem_of_getElem? hentry')

theorem Coherent.withState (h : self.Coherent) (bind : Hd → Hd') :
    (self.withState bind).Coherent := by
  refine ⟨fun idx keys entry hkeys hentry ↦ ?_, fun entry hmem ↦ ?_⟩
  · obtain ⟨entry', hentry', rfl⟩ := Option.map_eq_some_iff.1
      ((List.getElem?_map (l := self.router.routes)).symm.trans hentry)
    exact h.paramKeys idx keys entry' hkeys hentry'
  · obtain ⟨entry', -, rfl⟩ := List.mem_map.1 hmem
    exact MethodRouter.fresh_of_baked rfl

theorem Alike.refl (router : Router Hd L) : Alike router router :=
  ⟨rfl, rfl, rfl, rfl, rfl⟩

theorem Alike.trans {router router' router'' : Router Hd L} (h : Alike router router')
    (h' : Alike router' router'') : Alike router router'' :=
  ⟨h'.trie.trans h.trie, h'.routes.trans h.routes, h'.fallback.trans h.fallback,
    h'.layers.trans h.layers, h'.routeLayers.trans h.routeLayers⟩

theorem alike_afterCall (self : RouterInUse Hd L) (path : Str) :
    Alike self.router (self.afterCall path).router := by
  rcases hmatch : self.router.matchRoute path with - | ⟨i, e, params⟩
  · have hsame : (self.afterCall path).router = self.router := by
      simp only [RouterInUse.afterCall, hmatch]
    rw [hsame]
    exact .refl _
  · have hrouter : (self.afterCall path).router =
        self.router.setMethodRouter i e.methodRouter.called := by
      simp only [RouterInUse.afterCall, hmatch]
    obtain ⟨-, he⟩ := Router.matchRoute_eq_some_iff.1 hmatch
    rw [hrouter]
    refine ⟨rfl, List.ext_getElem? fun j ↦ ?_, rfl, rfl, rfl⟩
    rw [List.getElem?_map, List.getElem?_map, Router.getElem?_setMethodRouter, Option.map_map]
    rcases hj : self.router.routes[j]? with - | entry
    · rfl
    · rw [Option.map_some, Option.map_some, Option.some_inj, Function.comp_apply]
      split_ifs with hij
      · obtain rfl := Option.some.inj (he.symm.trans (hij ▸ hj))
        rfl
      · rfl

/-! ### Both answer as the reference does -/

section Answers

variable [Multimap H HeaderName HeaderValue] [Extensions E] [Extensions.Slot E PathParams]
variable [Extensions.Slot E MatchedPathExt] [FromBytes B] [Monad m]

/-- A direct call answers as the reference does. -/
theorem Coherent.call_eq [LawfulMatchit] (h : self.Coherent) (rt : Runtime H E B m Hd L) :
    self.call rt = self.router.answer rt := by
  funext req
  rw [RouterInUse.call, Router.answer, Router.found]
  rcases hmatch : self.router.matchRoute req.uri.path with - | ⟨idx, entry, params⟩
  · rfl
  · obtain ⟨-, hentry⟩ := Router.matchRoute_eq_some_iff.1 hmatch
    have hcall : entry.methodRouter.call rt = entry.clone.methodRouter.call rt :=
      ((h.fresh entry (List.mem_of_getElem? hentry)).call_clone_eq rt).symm
    simp only [h.getD_paramKeys hmatch, hcall, Option.map_some, Router.captured]
    split_ifs
    · rfl
    · rw [List.zipWith_map_left, List.zipWith_self]
      rfl

omit [Multimap H HeaderName HeaderValue] [Extensions E] [Extensions.Slot E PathParams]
  [Extensions.Slot E MatchedPathExt] [FromBytes B] in
theorem Coherent.pathParams_eq [LawfulMatchit] [LawfulMonad m] (h : self.Coherent)
    (rt : Runtime H E B m Hd L) {path : Str} {idx : ℕ} {entry : RouteEntry Hd L}
    {params : List (Str × Str)}
    (hmatch : self.router.matchRoute path = some (idx, entry, params)) :
    Router.pathParams
      { rt with getOrInit := fun idx names ↦ pure ((self.paramKeys idx).getD names) } idx params =
      pure (Router.captured params) := by
  rw [Router.pathParams, Router.captured]
  split_ifs
  · rfl
  · show (pure ((self.paramKeys idx).getD (params.map Prod.fst)) >>= fun keys ↦ _) = _
    rw [h.getD_paramKeys hmatch, pure_bind, List.zipWith_map_left, List.zipWith_self]

/-- So does the service, if the router has no layers. -/
theorem Coherent.service_eq [LawfulMatchit] [LawfulMonad m] (h : self.Coherent)
    (rt : Runtime H E B m Hd L) (hlayers : self.router.layers = [])
    (hrouteLayers : self.router.routeLayers = []) :
    self.service rt = self.router.answer rt := by
  funext req
  rw [RouterInUse.service, Router.intoService, hlayers]
  show Router.dispatch _ self.router req = _
  rw [Router.answer, Router.found]
  rcases hmatch : self.router.matchRoute req.uri.path with - | ⟨idx, entry, params⟩
  · rw [Router.dispatch, hmatch]
    rfl
  · rw [Router.dispatch_of_match hmatch, Router.routed, h.pathParams_eq rt hmatch, pure_bind,
      hrouteLayers]
    rfl

omit [Multimap H HeaderName HeaderValue] [Extensions E] [Extensions.Slot E PathParams]
  [Extensions.Slot E MatchedPathExt] [FromBytes B] [Monad m] in
theorem Alike.found_eq {router router' : Router Hd L} (h : Alike router router') (path : Str) :
    router'.found path = router.found path := by
  rw [Router.found, Router.found, Router.matchRoute, Router.matchRoute, h.trie]
  rcases MatchitLib.matchAt router.trie path with - | ⟨idx, params⟩
  · rfl
  · have hroute := congrArg (·[idx]?) h.routes
    simp only [List.getElem?_map] at hroute
    have hpair := congrArg (Option.map fun entry ↦ (entry, Router.captured params)) hroute
    rw [Option.map_map, Option.map_map] at hpair
    rw [Option.bind_some, Option.bind_some, Option.map_map, Option.map_map]
    exact hpair

/-- What is kept does not show in the reference. -/
theorem Alike.answer_eq {router router' : Router Hd L} (h : Alike router router')
    (rt : Runtime H E B m Hd L) : router'.answer rt = router.answer rt := by
  funext req
  rw [Router.answer, Router.answer, h.found_eq, h.fallback]

/-- A handler with its state bound answers as it does with the state. -/
structure Binds (rt : Runtime H E B m Hd L) (rt' : Runtime H E B m Hd' L) (bind : Hd → Hd') :
    Prop where
  handle : ∀ handler, rt'.handle (bind handler) = rt.handle handler
  layer : rt'.layer = rt.layer

omit [Extensions.Slot E PathParams] [Extensions.Slot E MatchedPathExt] [MatchitLib] in
theorem Binds.call_eq {rt : Runtime H E B m Hd L} {rt' : Runtime H E B m Hd' L} {bind : Hd → Hd'}
    (h : Binds rt rt' bind) (methodRouter : MethodRouter Hd L) :
    (methodRouter.withState bind).clone.call rt' = methodRouter.clone.call rt := by
  funext req
  have hfor : (methodRouter.withState bind).handlerFor req.method =
      (methodRouter.handlerFor req.method).map bind := by
    rw [MethodRouter.handlerFor, MethodRouter.handlerFor, MethodRouter.withState, List.find?_map,
      Option.map_map, Option.map_map]
    rfl
  rw [MethodRouter.call_clone, MethodRouter.call_clone, hfor]
  rcases methodRouter.handlerFor req.method with - | handler
  · rfl
  · show applyLayers rt' (rt'.handle (bind handler)) methodRouter.layers req = _
    rw [applyLayers, h.handle, h.layer]
    rfl

omit [Multimap H HeaderName HeaderValue] [Extensions E] [Extensions.Slot E PathParams]
  [Extensions.Slot E MatchedPathExt] [FromBytes B] [Monad m] in
theorem matchRoute_withState (router : Router Hd L) (bind : Hd → Hd') (path : Str) :
    (router.withState bind).matchRoute path = (router.matchRoute path).map fun found ↦
      (found.1, ⟨found.2.1.pattern, found.2.1.methodRouter.withState bind⟩, found.2.2) := by
  rw [Router.matchRoute, Router.matchRoute, Router.withState]
  rcases MatchitLib.matchAt router.trie path with - | ⟨idx, params⟩
  · rfl
  · simp only [Option.bind_some, List.getElem?_map, Option.map_map]
    rfl

/-- Binding the state does not show. -/
theorem Binds.answer_eq {rt : Runtime H E B m Hd L} {rt' : Runtime H E B m Hd' L}
    {bind : Hd → Hd'} (h : Binds rt rt' bind) (router : Router Hd L) :
    (router.withState bind).answer rt' = router.answer rt := by
  funext req
  rw [Router.answer, Router.answer, Router.found, Router.found, matchRoute_withState]
  rcases router.matchRoute req.uri.path with - | ⟨idx, entry, params⟩
  · rcases hfallback : router.fallback with - | handler
    · simp only [Router.withState, hfallback, Option.map_none]
    · simp only [Router.withState, hfallback, Option.map_none, Option.map_some, h.handle]
  · exact congrArg (fun service : Service H E B m ↦ service (Router.recordMatch entry.pattern
      (Router.captured params) req) >>= fun response ↦
        pure (response.insertExtension (MatchedPathExt.mk entry.pattern)))
      (h.call_eq entry.methodRouter)

end Answers

/-! ### Agreement -/

section Agreement

theorem Coherent.foldl_afterCall [LawfulMatchit] {self : RouterInUse Hd L} (h : self.Coherent)
    (paths : List Str) : (paths.foldl RouterInUse.afterCall self).Coherent ∧
      Alike self.router (paths.foldl RouterInUse.afterCall self).router := by
  induction paths generalizing self with
  | nil => exact ⟨h, .refl _⟩
  | cons path paths ih =>
    obtain ⟨hcoherent, halike⟩ := ih (h.afterCall path)
    exact ⟨hcoherent, (alike_afterCall self path).trans halike⟩

theorem Coherent.foldl_afterDispatch [LawfulMatchit] {self : RouterInUse Hd L}
    (h : self.Coherent) (paths : List Str) : (paths.foldl RouterInUse.afterDispatch self).Coherent ∧
      (paths.foldl RouterInUse.afterDispatch self).router = self.router := by
  induction paths generalizing self with
  | nil => exact ⟨h, rfl⟩
  | cons path paths ih => exact ih (h.afterDispatch path)

/-- A router that served nothing yet. -/
theorem coherent_new {router : Router Hd L}
    (hbuilt : ∀ entry ∈ router.routes, entry.methodRouter.Built) :
    Coherent ({ router } : RouterInUse Hd L) :=
  ⟨fun _ _ _ h ↦ absurd h (Option.some_ne_none _).symm, fun entry hmem ↦
    (hbuilt entry hmem).sound.fresh⟩

variable {σ : Type} [Multimap H HeaderName HeaderValue] [Extensions E]
variable [Extensions.Slot E PathParams] [Extensions.Slot E MatchedPathExt] [FromBytes B]
variable [Monad m] [LawfulMonad m]

/-- **A router that is called directly and one that became a service answer alike**, whatever either
of them served before: one was called on the paths `calls`, the other on the paths `earlier` before
its state was bound, and as a service on the paths `later`. -/
theorem call_eq_service [LawfulMatchit] (hl : SharedRouters.Handling H E B m Hd σ L)
    (router : Router (SharedRouters.Handler Hd σ) L)
    (hbuilt : ∀ entry ∈ router.routes, entry.methodRouter.Built)
    (hlayers : router.layers = []) (hrouteLayers : router.routeLayers = []) (state : σ)
    (calls earlier later : List Str) :
    (calls.foldl afterCall { router }).call (hl.runtime state) =
      (later.foldl afterDispatch
        ((earlier.foldl afterCall { router }).withState (.stateBound · state))).service
          (hl.runtime hl.unit) := by
  have hnew := coherent_new hbuilt
  obtain ⟨hcalls, halikeCalls⟩ := hnew.foldl_afterCall calls
  obtain ⟨hearlier, halikeEarlier⟩ := hnew.foldl_afterCall earlier
  obtain ⟨hlater, hrouter⟩ :=
    (hearlier.withState (SharedRouters.Handler.stateBound · state)).foldl_afterDispatch later
  have hbinds : Binds (hl.runtime state) (hl.runtime hl.unit)
      (SharedRouters.Handler.stateBound · state) := ⟨fun _ ↦ rfl, rfl⟩
  rw [hcalls.call_eq, halikeCalls.answer_eq, hlater.service_eq, hrouter]
  · exact ((hbinds.answer_eq _).trans (halikeEarlier.answer_eq _)).symm
  · rw [hrouter]
    exact halikeEarlier.layers.trans hlayers
  · rw [hrouter]
    exact halikeEarlier.routeLayers.trans hrouteLayers

end Agreement

end RouterInUse

end Direct

/-! ### A router with a parameter -/

namespace RouterInUse

section User

private abbrev UserFields := AssocList HeaderName HeaderValue

private abbrev UserExtensions := Option PathParams × Option MatchedPathExt

attribute [local instance] MatchitLib.list

/-- Handlers answer with their state. -/
private def answeringState : SharedRouters.Handling UserFields UserExtensions (Body UserFields) Id
    Unit StatusCode StatusCode where
  unit := .ok
  handle _ code _ := code.intoResponse
  layer code _ _ := code.intoResponse

/-- A route with a parameter, and a fallback. -/
private def userRouter : Router (SharedRouters.Handler Unit StatusCode) StatusCode :=
  ((Router.new.route "/users/{id}".toList (.any (.registered ()))).getD .new).withFallback
    (.registered ())

theorem call_eq_service_user :
    ([['/'], "/users/1".toList].foldl afterCall { router := userRouter }).call
        (answeringState.runtime .noContent) =
      (["/users/2".toList].foldl afterDispatch (([].foldl afterCall
        { router := userRouter }).withState (.stateBound · .noContent))).service
          (answeringState.runtime answeringState.unit) :=
  call_eq_service answeringState userRouter
    (List.forall_mem_singleton.2 (MethodRouter.built_any _)) rfl rfl .noContent _ _ _

end User

end RouterInUse
