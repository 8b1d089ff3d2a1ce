import Arvik.Core.Body
import Arvik.Router.Relay
import Arvik.Router.Service

/-!
# Which captures a handler finds

A router that was turned into a service can be an endpoint of another router, and so on. The routers
of a composition are numbered in the order in which they were turned into services: a route of the
router `k` leads to a handler or to a router before `k`. All of them share the extensions of a
request, and each keeps, for each of its routes, the parameter names it saw first.

A request takes one hop in each router it enters. What is found in the end is what the last hop that
captured something left there (`run_service`), whatever requests were served before. So a handler on
a pattern without parameters finds what the routers around its own captured (`seesOwnCaptures_iff`).

The numbering makes the composition a recursion: a service is defined from those before it, and no
router can lead to itself. `follow` lists the hops of a request without running anything, and
`run_service` compares the run with it by induction on the number of the router. What the routers
keep is in a state that all of them share, and is right as long as every request leaves it right
(`Coherent`), since the names of a route do not change.
-/

/-- A composition of routers, in the order in which they became services. -/
abbrev RouterFamily [MatchitLib] (T L : Type) : Type :=
  (k : ℕ) → Router (Endpoint (T ⊕ Fin k)) L

/-- The step of a request in a router. -/
inductive Hop
  | route (pattern path : Str)
  | fallback
  deriving DecidableEq

namespace Hop

/-- What the pattern captures. -/
def captures : Hop → List (Str × Str)
  | route pattern path => (RoutePattern.captures (RoutePattern.parse pattern) path).getD []
  | fallback => []

/-- The captures with their values decoded. -/
def decoded (self : Hop) : List (Str × Str) :=
  self.captures.map fun p ↦ (p.1, percentDecode p.2)

/-- What is stored after the step, given what was stored before. -/
def carry (stored : Option PathParams) (self : Hop) : Option PathParams :=
  if self.captures.isEmpty then stored else some ⟨self.decoded⟩

end Hop

namespace Endpoint

/-- The target of an endpoint. -/
def target {T : Type} : Endpoint T → T
  | service target => target
  | stripped _ target => target

/-- The URI of a request as the target of an endpoint sees it. -/
def uri {T : Type} (uri : Uri) : Endpoint T → Uri
  | service _ => uri
  | stripped pfx _ => (stripUriPrefix uri pfx).getD uri

end Endpoint

namespace RouterFamily

variable [MatchitLib] {H E B Λ T : Type} [Multimap H HeaderName HeaderValue] [Extensions E]
variable [Extensions.Slot E PathParams] [Extensions.Slot E MatchedPathExt]
variable [Extensions.Slot E OriginalUri] [FromBytes B]

/-! ### Serving -/

/-- What the routers keep between requests, and the handlers that were run. -/
structure World (H E B T : Type) where
  /-- The parameter names kept for each router and route. -/
  paramKeys : ℕ × ℕ → Option (List Str) := fun _ ↦ none
  /-- The handlers run, each with the request it was given. -/
  ran : List (T × Request H E B) := []

/-- The part of a request that its dispatch and its captures depend on. -/
def captureView (req : Request H E B) : Uri × Method × Option PathParams :=
  (req.uri, req.method, Extensions.Slot.get req.extensions)

/-- A layer that hands requests on without changing their dispatch or their captures. -/
abbrev CaptureRelay (H E B Λ : Type) [Extensions E] [Extensions.Slot E PathParams] : Type :=
  Relay (captureView : Request H E B → Uri × Method × Option PathParams) Λ

/-- The names kept under a key, set to the given ones if there are none. -/
def getOrInit (key : ℕ × ℕ) (names : List Str) : StateM (World H E B T) (List Str) := fun w ↦
  match w.paramKeys key with
  | some keys => (keys, w)
  | none => (names, { w with paramKeys := Function.update w.paramKeys key (some names) })

/-- Handlers record the request they are given, and answer. -/
def handle (answer : T → Request H E B → Response H E B) (target : T) :
    Service H E B (StateM (World H E B T)) := fun req ↦ do
  modify fun w ↦ { w with ran := w.ran ++ [(target, req)] }
  pure (answer target req)

/-- The runtime of the router `k`, given the services before. -/
def runtime (answer : T → Request H E B → Response H E B) (k : ℕ)
    (services : Fin k → Service H E B (StateM (World H E B T))) :
    Runtime H E B (StateM (World H E B T)) (Endpoint (T ⊕ Fin k)) (CaptureRelay H E B Λ) where
  handle := Endpoint.handle (Sum.elim (handle answer) services)
  layer := Relay.wrap fun _ w ↦ w
  getOrInit idx names := getOrInit (k, idx) names

/-- The service a router was turned into. -/
def service (self : RouterFamily T (CaptureRelay H E B Λ))
    (answer : T → Request H E B → Response H E B) (k : ℕ) :
    Service H E B (StateM (World H E B T)) :=
  (self k).intoService (runtime answer k fun j ↦ self.service answer j.1)
termination_by k
decreasing_by exact j.2

/-! ### The way of a request -/

/-- One hop to an endpoint, and the way from there; `inner` is the way from the routers before. -/
def follow {k : ℕ} (inner : Fin k → Uri → Method → Option (List Hop × T)) (uri : Uri)
    (method : Method) (hop : Hop) (endpoint : Endpoint (T ⊕ Fin k)) : Option (List Hop × T) :=
  let reached := match endpoint.target with
    | .inl target => some ([], target)
    | .inr j => inner j (endpoint.uri uri) method
  reached.map fun p ↦ (hop :: p.1, p.2)

/-- The hops of a request that enters at the router `k`, and the handler it reaches. -/
def resolve (self : RouterFamily T (CaptureRelay H E B Λ)) (k : ℕ) (uri : Uri) (method : Method) :
    Option (List Hop × T) :=
  let inner (j : Fin k) := self.resolve j.1
  match (self k).matchRoute uri.path with
  | some (_, entry, _) => (entry.methodRouter.handlerFor method).bind
      (follow inner uri method (.route entry.pattern uri.path))
  | none => (self k).fallback.bind (follow inner uri method .fallback)
termination_by k
decreasing_by exact j.2

/-- The names kept are those of the patterns. -/
def Coherent (self : RouterFamily T (CaptureRelay H E B Λ)) (w : World H E B T) : Prop :=
  ∀ k idx keys entry, w.paramKeys (k, idx) = some keys → (self k).routes[idx]? = some entry →
    keys = RoutePattern.names (RoutePattern.parse entry.pattern)

/-- What serving a request comes to: the handler that is expected is run, and finds what the hops
to it left. -/
def Outcome (self : RouterFamily T (CaptureRelay H E B Λ)) (stored : Option PathParams)
    (before after : World H E B T) (expected : Option (List Hop × T)) : Prop :=
  self.Coherent after ∧ match expected with
    | some (hops, target) => ∃ seen, after.ran = before.ran ++ [(target, seen)] ∧
        Extensions.Slot.get seen.extensions = hops.foldl Hop.carry stored
    | none => after.ran = before.ran

variable {self : RouterFamily T (CaptureRelay H E B Λ)}
variable {answer : T → Request H E B → Response H E B}

omit [Multimap H HeaderName HeaderValue] [Extensions.Slot E MatchedPathExt]
  [Extensions.Slot E OriginalUri] [FromBytes B] in
theorem coherent_fresh : self.Coherent {} :=
  fun _ _ _ _ h ↦ nomatch h

omit [Multimap H HeaderName HeaderValue] [Extensions.Slot E MatchedPathExt]
  [Extensions.Slot E OriginalUri] [FromBytes B] in
/-- One more hop. -/
theorem Outcome.hop {stored : Option PathParams} {before after : World H E B T}
    {expected : Option (List Hop × T)} {hop : Hop}
    (h : self.Outcome (hop.carry stored) before after expected) :
    self.Outcome stored before after (expected.map fun p ↦ (hop :: p.1, p.2)) := by
  rcases expected with - | ⟨hops, target⟩
  · exact h
  · exact h

omit [Multimap H HeaderName HeaderValue] [Extensions.Slot E MatchedPathExt]
  [Extensions.Slot E OriginalUri] [FromBytes B] in
/-- Only the handlers run before count. -/
theorem Outcome.of_ran_eq {stored : Option PathParams} {before w after : World H E B T}
    {expected : Option (List Hop × T)} (hran : w.ran = before.ran)
    (h : self.Outcome stored w after expected) : self.Outcome stored before after expected := by
  obtain ⟨hafter, hexpected⟩ := h
  refine ⟨hafter, ?_⟩
  rcases expected with - | ⟨hops, target⟩
  · exact hexpected.trans hran
  · obtain ⟨seen, hseen, hget⟩ := hexpected
    exact ⟨seen, hran ▸ hseen, hget⟩

omit [Multimap H HeaderName HeaderValue] [Extensions.Slot E MatchedPathExt]
  [Extensions.Slot E OriginalUri] [FromBytes B] in
/-- The names kept for a route are those of its pattern, before and after they are asked for. -/
theorem run_getOrInit {w : World H E B T} (hw : self.Coherent w) {k idx : ℕ}
    {entry : RouteEntry (Endpoint (T ⊕ Fin k)) (CaptureRelay H E B Λ)}
    (hentry : (self k).routes[idx]? = some entry) {names : List Str}
    (hnames : names = RoutePattern.names (RoutePattern.parse entry.pattern)) :
    ∃ w', (getOrInit (k, idx) names).run w = (names, w') ∧ self.Coherent w' ∧ w'.ran = w.ran := by
  rcases hkeys : w.paramKeys (k, idx) with - | keys
  · refine ⟨{ w with paramKeys := Function.update w.paramKeys (k, idx) (some names) }, ?_, ?_, rfl⟩
    · show (match w.paramKeys (k, idx) with
        | some keys => (keys, w)
        | none => (names, _)) = _
      rw [hkeys]
    · intro k' idx' keys' entry' hkeys' hentry'
      have hupdate : Function.update w.paramKeys (k, idx) (some names) (k', idx') = some keys' :=
        hkeys'
      by_cases hkey : (k', idx') = (k, idx)
      · obtain ⟨rfl, rfl⟩ := Prod.mk.inj hkey
        rw [Function.update_self] at hupdate
        obtain rfl := Option.some.inj hupdate
        obtain rfl := Option.some.inj (hentry.symm.trans hentry')
        exact hnames
      · rw [Function.update_of_ne hkey] at hupdate
        exact hw k' idx' keys' entry' hupdate hentry'
  · refine ⟨w, ?_, hw, rfl⟩
    show (match w.paramKeys (k, idx) with
      | some keys => (keys, w)
      | none => (names, _)) = _
    rw [hkeys, hnames, hw k idx keys entry hkeys hentry]

omit [Multimap H HeaderName HeaderValue] [Extensions.Slot E MatchedPathExt] [FromBytes B] in
/-- What is stored for a match is what its pattern captures. -/
theorem run_pathParams [LawfulMatchit] (answer : T → Request H E B → Response H E B)
    {w : World H E B T} (hw : self.Coherent w) {k idx : ℕ} {path : Str}
    {entry : RouteEntry (Endpoint (T ⊕ Fin k)) (CaptureRelay H E B Λ)}
    {params : List (Str × Str)} (hmatch : (self k).matchRoute path = some (idx, entry, params))
    (services : Fin k → Service H E B (StateM (World H E B T))) (stored : Option PathParams) :
    ∃ pathParams w', (Router.pathParams (runtime answer k services :
        Runtime H E B _ _ (CaptureRelay H E B Λ)) idx params).run w = (pathParams, w') ∧
      pathParams.or stored = (Hop.route entry.pattern path).carry stored ∧ self.Coherent w' ∧
        w'.ran = w.ran := by
  obtain ⟨hentry, hcaps⟩ := Router.matchRoute_eq_some hmatch
  have hcaptures : (Hop.route entry.pattern path).captures = params := by
    rw [Hop.captures, hcaps]
    rfl
  rw [Hop.carry, Hop.decoded, hcaptures, Router.pathParams]
  by_cases hparams : params.isEmpty
  · rw [if_pos hparams, if_pos hparams]
    exact ⟨none, w, rfl, rfl, hw, rfl⟩
  · rw [if_neg hparams, if_neg hparams]
    obtain ⟨w', hrun, hw', hran⟩ := run_getOrInit hw hentry
      (RoutePattern.map_fst_of_captures hcaps)
    refine ⟨some ⟨List.zipWith (fun key p ↦ (key, percentDecode p.2)) (params.map Prod.fst)
      params⟩, w', ?_, ?_, hw', hran⟩
    · show (let found := (getOrInit (k, idx) (params.map Prod.fst)).run w
        (some (PathParams.mk (List.zipWith (fun key p ↦ (key, percentDecode p.2)) found.1 params)),
          found.2)) = _
      rw [hrun]
    · rw [Option.some_or, List.zipWith_map_left, List.zipWith_self]

omit [MatchitLib] [Multimap H HeaderName HeaderValue] [Extensions.Slot E OriginalUri]
  [FromBytes B] in
theorem captureView_recordMatch [Extensions.Apart E PathParams MatchedPathExt] (pattern : Str)
    (pathParams : Option PathParams) (req : Request H E B) :
    captureView (Router.recordMatch pattern pathParams req) =
      (req.uri, req.method, pathParams.or (Extensions.Slot.get req.extensions)) := by
  have hget : (Extensions.Slot.get (Router.recordMatch pattern pathParams req).extensions :
      Option PathParams) = pathParams.or (Extensions.Slot.get req.extensions) := by
    rcases pathParams with - | pp
    · exact Extensions.Apart.get_insert _ _
    · exact (Extensions.Apart.get_insert _ _).trans (Extensions.Slot.get_insert _ _)
  rw [captureView, Router.uri_recordMatch, Router.method_recordMatch, hget]

omit [MatchitLib] [Multimap H HeaderName HeaderValue] [Extensions.Slot E MatchedPathExt]
  [FromBytes B] in
/-- Stripping a prefix changes the target only. -/
theorem captureView_stripRequest [Extensions.Apart E PathParams OriginalUri] (pfx : Str)
    (req : Request H E B) :
    captureView (stripRequest pfx req) = ((stripUriPrefix req.uri pfx).getD req.uri, req.method,
      Extensions.Slot.get req.extensions) := by
  have hrest : (stripRequest pfx req).method = req.method ∧
      (Extensions.Slot.get (stripRequest pfx req).extensions : Option PathParams) =
        Extensions.Slot.get req.extensions := by
    rw [stripRequest]
    rcases (Extensions.Slot.get req.extensions : Option OriginalUri) with - | original
    · rcases stripUriPrefix req.uri pfx with - | stripped
      · exact ⟨rfl, Extensions.Apart.get_insert _ _⟩
      · exact ⟨rfl, Extensions.Apart.get_insert _ _⟩
    · rcases stripUriPrefix req.uri pfx with - | stripped
      · exact ⟨rfl, rfl⟩
      · exact ⟨rfl, rfl⟩
  rw [captureView, uri_stripRequest, hrest.1, hrest.2]

omit [MatchitLib] [Multimap H HeaderName HeaderValue] [Extensions.Slot E MatchedPathExt]
  [Extensions.Slot E OriginalUri] [FromBytes B] in
/-- Requests that look the same are dispatched the same way. -/
theorem target_of_captureView {req req' : Request H E B} (h : captureView req = captureView req') :
    req.uri.path = req'.uri.path ∧ req.method = req'.method :=
  ⟨congrArg (fun v ↦ v.1.path) h, congrArg (fun v ↦ v.2.1) h⟩

omit [MatchitLib] [Multimap H HeaderName HeaderValue] [Extensions.Slot E OriginalUri]
  [FromBytes B] in
/-- Requests that look the same do so after a match was recorded. -/
theorem captureView_recordMatch_congr [Extensions.Apart E PathParams MatchedPathExt] (pattern : Str)
    (pathParams : Option PathParams) (req req' : Request H E B)
    (h : captureView req = captureView req') :
    captureView (Router.recordMatch pattern pathParams req) =
      captureView (Router.recordMatch pattern pathParams req') := by
  obtain ⟨huri, hrest⟩ := Prod.mk.inj h
  obtain ⟨hmethod, hget⟩ := Prod.mk.inj hrest
  rw [captureView_recordMatch, captureView_recordMatch, huri, hmethod, hget]

variable [Extensions.Apart E PathParams OriginalUri]

omit [Multimap H HeaderName HeaderValue] [Extensions.Slot E MatchedPathExt] [FromBytes B] in
/-- **One hop**: what an endpoint comes to on a request that looks as it should, given what the
services before come to. -/
theorem outcome_follow {k : ℕ} {services : Fin k → Service H E B (StateM (World H E B T))}
    (hservices : ∀ j req w, self.Coherent w → self.Outcome (Extensions.Slot.get req.extensions) w
      ((services j req).run w).2 (self.resolve j.1 req.uri req.method))
    {uri : Uri} {method : Method} {stored : Option PathParams} {hop : Hop}
    {before w : World H E B T} {req : Request H E B}
    (hview : captureView req = (uri, method, hop.carry stored))
    (hw : self.Coherent w) (hran : w.ran = before.ran) (endpoint : Endpoint (T ⊕ Fin k)) :
    self.Outcome stored before
      (((runtime answer k services : Runtime H E B _ _ (CaptureRelay H E B Λ)).handle endpoint
        req).run w).2
      (follow (fun j ↦ self.resolve j.1) uri method hop endpoint) := by
  obtain ⟨rfl, hrest⟩ := Prod.mk.inj hview
  obtain ⟨rfl, hget⟩ := Prod.mk.inj hrest
  refine Outcome.hop ?_
  rw [← hget]
  refine Outcome.of_ran_eq hran ?_
  rcases endpoint with (target | j) | ⟨pfx, target | j⟩
  · exact ⟨hw, req, rfl, rfl⟩
  · exact hservices j req w hw
  · exact ⟨hw, stripRequest pfx req, rfl,
      congrArg (fun v ↦ v.2.2) (captureView_stripRequest pfx req)⟩
  · have hj := hservices j (stripRequest pfx req) w hw
    obtain ⟨huri, hrest⟩ := Prod.mk.inj (captureView_stripRequest pfx req)
    obtain ⟨hmethod, hget⟩ := Prod.mk.inj hrest
    rw [huri, hmethod, hget] at hj
    exact hj

variable [Extensions.Apart E PathParams MatchedPathExt]

/-- **What serving a request comes to**: the handler at the end of its hops is run, and finds what
the last hop that captured something left. -/
theorem run_service [LawfulMatchit] (answer : T → Request H E B → Response H E B) (k : ℕ)
    (req : Request H E B) {w : World H E B T} (hw : self.Coherent w) :
    self.Outcome (Extensions.Slot.get req.extensions) w ((self.service answer k req).run w).2
      (self.resolve k req.uri req.method) := by
  induction k using Nat.strongRecOn generalizing req w with
  | ind k ih =>
    have hservices : ∀ (j : Fin k) req w, self.Coherent w →
        self.Outcome (Extensions.Slot.get req.extensions) w
          ((self.service answer j.1 req).run w).2 (self.resolve j.1 req.uri req.method) :=
      fun j req w hw ↦ ih j.1 j.2 req hw
    have hlayer : (runtime answer k fun j ↦ self.service answer j.1 :
      Runtime H E B _ _ (CaptureRelay H E B Λ)).layer = Relay.wrap fun _ w ↦ w := rfl
    rw [service, resolve]
    rcases hmatch : (self k).matchRoute req.uri.path with - | ⟨idx, entry, params⟩
    · obtain ⟨req', hview, hstate⟩ := Relay.state_intoService_of_unmatched hlayer
        (fun _ _ ↦ target_of_captureView) hmatch
      rw [hstate]
      rcases (self k).fallback with - | endpoint
      · exact ⟨hw, rfl⟩
      · exact outcome_follow hservices hview hw rfl endpoint
    · obtain ⟨pathParams, w', hrun, hcarry, hw', hran⟩ := run_pathParams answer hw hmatch
        (fun j ↦ self.service answer j.1) (Extensions.Slot.get req.extensions)
      show self.Outcome _ w _ ((entry.methodRouter.handlerFor req.method).bind _)
      rcases hhandler : entry.methodRouter.handlerFor req.method with - | endpoint
      · rw [Relay.state_intoService_of_mismatch hlayer (fun _ _ ↦ target_of_captureView)
          captureView_recordMatch_congr hmatch hhandler, hrun]
        exact ⟨hw', hran⟩
      · obtain ⟨reach, hreach, hstate⟩ := Relay.state_intoService_of_match hlayer
          (fun _ _ ↦ target_of_captureView) captureView_recordMatch_congr hmatch hhandler
        rw [hstate, hrun]
        refine outcome_follow hservices ((hreach pathParams).trans ?_) hw' hran endpoint
        rw [captureView_recordMatch, hcarry]

/-! ### Own captures -/

/-- What is kept after a history of requests, each to one of the routers. -/
def after (self : RouterFamily T (CaptureRelay H E B Λ))
    (answer : T → Request H E B → Response H E B) (history : List (ℕ × Request H E B)) :
    World H E B T :=
  history.foldl (fun w p ↦ ((self.service answer p.1 p.2).run w).2) {}

theorem coherent_after [LawfulMatchit] (answer : T → Request H E B → Response H E B)
    (history : List (ℕ × Request H E B)) : self.Coherent (self.after answer history) := by
  suffices h : ∀ w, self.Coherent w →
      self.Coherent (history.foldl (fun w p ↦ ((self.service answer p.1 p.2).run w).2) w) from
    h {} coherent_fresh
  induction history with
  | nil => exact fun w hw ↦ hw
  | cons p history ih => exact fun w hw ↦ ih _ (run_service answer p.1 p.2 hw).1

omit [MatchitLib] [Multimap H HeaderName HeaderValue] [Extensions.Slot E MatchedPathExt]
  [Extensions.Slot E OriginalUri] [FromBytes B] [Extensions.Apart E PathParams OriginalUri]
  [Extensions.Apart E PathParams MatchedPathExt] in
/-- The captures found on a request. -/
def foundCaptures (req : Request H E B) : List (Str × Str) :=
  ((Extensions.Slot.get req.extensions : Option PathParams).map PathParams.pairs).getD []

/-- After any history, the request runs the target, which finds what the pattern captures of the
path, decoded. -/
def SeesOwnCaptures (self : RouterFamily T (CaptureRelay H E B Λ))
    (answer : T → Request H E B → Response H E B) (history : List (ℕ × Request H E B)) (k : ℕ)
    (req : Request H E B) (target : T) (pattern path : Str) : Prop :=
  let before := self.after answer history
  ∃ seen params, ((self.service answer k req).run before).2.ran = before.ran ++ [(target, seen)] ∧
    RoutePattern.captures (RoutePattern.parse pattern) path = some params ∧
      foundCaptures seen = params.map fun p ↦ (p.1, percentDecode p.2)

omit [MatchitLib] [Multimap H HeaderName HeaderValue]
  [Extensions.Slot E MatchedPathExt]
  [Extensions.Slot E OriginalUri] [FromBytes B] [Extensions.Apart E PathParams OriginalUri]
  [Extensions.Apart E PathParams MatchedPathExt] in
theorem exists_of_follow {k : ℕ} {inner : Fin k → Uri → Method → Option (List Hop × T)} {uri : Uri}
    {method : Method} {hop : Hop} {endpoint : Endpoint (T ⊕ Fin k)} {hops : List Hop} {target : T}
    (h : follow inner uri method hop endpoint = some (hops, target)) :
    ∃ below, hops = hop :: below ∧
      (below = [] ∨ ∃ j uri', inner j uri' method = some (below, target)) := by
  rw [follow, Option.map_eq_some_iff] at h
  obtain ⟨⟨below, target'⟩, hreached, heq⟩ := h
  obtain ⟨rfl, rfl⟩ := Prod.mk.inj heq
  refine ⟨below, rfl, ?_⟩
  rcases htarget : endpoint.target with t | j
  · rw [htarget] at hreached
    exact .inl (Prod.mk.inj (Option.some.inj hreached)).1.symm
  · rw [htarget] at hreached
    exact .inr ⟨j, endpoint.uri uri, hreached⟩

omit [Multimap H HeaderName HeaderValue] [Extensions.Slot E MatchedPathExt]
  [Extensions.Slot E OriginalUri] [FromBytes B] [Extensions.Apart E PathParams OriginalUri]
  [Extensions.Apart E PathParams MatchedPathExt] in
/-- The patterns on the way of a request match. -/
theorem isSome_captures_of_resolve [LawfulMatchit] {k : ℕ} {uri : Uri} {method : Method}
    {hops : List Hop} {target : T} (h : self.resolve k uri method = some (hops, target))
    {pattern path : Str} (hmem : .route pattern path ∈ hops) :
    (RoutePattern.captures (RoutePattern.parse pattern) path).isSome := by
  induction k using Nat.strongRecOn generalizing uri hops with
  | ind k ih =>
    rw [resolve] at h
    rcases hmatch : (self k).matchRoute uri.path with - | ⟨idx, entry, params⟩
    · rw [hmatch] at h
      obtain ⟨endpoint, -, hfollow⟩ := Option.bind_eq_some_iff.1 h
      obtain ⟨below, rfl, rfl | ⟨j, uri', hinner⟩⟩ := exists_of_follow hfollow
      · exact nomatch List.mem_singleton.1 hmem
      · exact ih j.1 j.2 hinner ((List.mem_cons.1 hmem).resolve_left nofun)
    · rw [hmatch] at h
      obtain ⟨endpoint, -, hfollow⟩ := Option.bind_eq_some_iff.1 h
      obtain ⟨below, rfl, hbelow⟩ := exists_of_follow hfollow
      rcases List.mem_cons.1 hmem with heq | hmem'
      · obtain ⟨rfl, rfl⟩ := Hop.route.inj heq
        rw [(Router.matchRoute_eq_some hmatch).2]
        rfl
      · obtain rfl | ⟨j, uri', hinner⟩ := hbelow
        · exact nomatch hmem'
        · exact ih j.1 j.2 hinner hmem'

end RouterFamily

namespace Hop

/-- A step that captures nothing leaves what was stored. -/
theorem carry_of_nil {self : Hop} (h : self.captures = []) (stored : Option PathParams) :
    self.carry stored = stored := by
  rw [carry, h]
  rfl

theorem carry_of_ne_nil {self : Hop} (h : self.captures ≠ []) (stored : Option PathParams) :
    self.carry stored = some ⟨self.decoded⟩ := by
  rw [carry, if_neg (by rwa [List.isEmpty_iff])]

/-- Nothing is found after some steps exactly if nothing was before and none captured. -/
theorem foldl_carry_eq_nil_iff (hops : List Hop) (stored : Option PathParams) :
    ((hops.foldl carry stored).map PathParams.pairs).getD [] = [] ↔
      (stored.map PathParams.pairs).getD [] = [] ∧ ∀ hop ∈ hops, hop.captures = [] := by
  induction hops generalizing stored with
  | nil => simp
  | cons hop hops ih =>
    rw [List.foldl_cons, ih, List.forall_mem_cons]
    by_cases hcaptures : hop.captures = []
    · rw [carry_of_nil hcaptures]
      exact and_congr_right fun _ ↦ (and_iff_right hcaptures).symm
    · have hdecoded : hop.decoded ≠ [] := by
        rwa [decoded, Ne, List.map_eq_nil_iff]
      rw [carry_of_ne_nil hcaptures]
      exact iff_of_false (fun h ↦ hdecoded h.1) fun h ↦ hcaptures h.2.1

end Hop

namespace RouterFamily

section Own

variable [MatchitLib] {H E B Λ T : Type} [Multimap H HeaderName HeaderValue] [Extensions E]
variable [Extensions.Slot E PathParams] [Extensions.Slot E MatchedPathExt]
variable [Extensions.Slot E OriginalUri] [FromBytes B]
variable [Extensions.Apart E PathParams OriginalUri] [Extensions.Apart E PathParams MatchedPathExt]
variable {self : RouterFamily T (CaptureRelay H E B Λ)}
variable {answer : T → Request H E B → Response H E B}

/-- Whether a handler finds its own captures depends on what the hops to it left. -/
theorem seesOwnCaptures_iff_foldl [LawfulMatchit] (history : List (ℕ × Request H E B)) {k : ℕ}
    {req : Request H E B} {enclosing : List Hop} {pattern path : Str} {target : T}
    (hresolve : self.resolve k req.uri req.method =
      some (enclosing ++ [.route pattern path], target)) :
    self.SeesOwnCaptures answer history k req target pattern path ↔
      (((Hop.route pattern path).carry (enclosing.foldl Hop.carry
        (Extensions.Slot.get req.extensions))).map PathParams.pairs).getD [] =
          (Hop.route pattern path).decoded := by
  obtain ⟨-, hexpected⟩ := run_service answer k req (coherent_after answer history)
  rw [hresolve] at hexpected
  obtain ⟨seen, hran, hget⟩ := hexpected
  obtain ⟨params, hparams⟩ := Option.isSome_iff_exists.1 (isSome_captures_of_resolve hresolve
    (List.mem_append_right enclosing (List.mem_singleton_self _)))
  have hcaptures : (Hop.route pattern path).captures = params := by
    rw [Hop.captures, hparams]
    rfl
  rw [List.foldl_concat] at hget
  rw [← hget, Hop.decoded, hcaptures]
  constructor
  · rintro ⟨seen', params', hran', hparams', hfound⟩
    obtain rfl := (Prod.mk.inj (List.singleton_inj.1
      (List.append_cancel_left (hran.symm.trans hran')))).2
    obtain rfl := Option.some.inj (hparams.symm.trans hparams')
    exact hfound
  · exact fun hfound ↦ ⟨seen, params, hran, hparams, hfound⟩

/-- **When a handler finds its own captures**: its pattern captured something, or nothing did
before. A match without captures leaves those of the routers around in the extensions. -/
theorem seesOwnCaptures_iff [LawfulMatchit] (history : List (ℕ × Request H E B)) {k : ℕ}
    {req : Request H E B} {enclosing : List Hop} {pattern path : Str} {target : T}
    (hresolve : self.resolve k req.uri req.method =
      some (enclosing ++ [.route pattern path], target)) :
    self.SeesOwnCaptures answer history k req target pattern path ↔
      (Hop.route pattern path).captures ≠ [] ∨
        foundCaptures req = [] ∧ ∀ hop ∈ enclosing, hop.captures = [] := by
  rw [seesOwnCaptures_iff_foldl history hresolve]
  by_cases hown : (Hop.route pattern path).captures = []
  · rw [Hop.carry_of_nil hown, Hop.decoded, hown, List.map_nil, Hop.foldl_carry_eq_nil_iff]
    exact (or_iff_right fun h ↦ h rfl).symm
  · rw [Hop.carry_of_ne_nil hown]
    exact iff_of_true rfl (.inl hown)

end Own

/-! ### A router in a router -/

section Examples

private abbrev CaptureFields := AssocList HeaderName HeaderValue

private abbrev CaptureExtensions :=
  Option OriginalUri × Option PathParams × Option MatchedPathExt

private abbrev UsersRouter (k : ℕ) := RouterTree (Endpoint (Unit ⊕ Fin k))
  (CaptureRelay CaptureFields CaptureExtensions (Body CaptureFields) Unit)

attribute [local instance] MatchitLib.list

/-- A router with one route, mounted in another. -/
private def users (pattern : Str) : RouterFamily Unit
    (CaptureRelay CaptureFields CaptureExtensions (Body CaptureFields) Unit)
  | 0 => ((RouterTree.new : UsersRouter 0).route pattern (.any (.service (.inl ())))).build.getD
      Router.new
  | k + 1 => ((RouterTree.new : UsersRouter (k + 1)).nestService "/api".toList
      (.inr (Fin.last k))).build.getD Router.new

private def usersRequest (path : Str) :
    Request CaptureFields CaptureExtensions (Body CaptureFields) :=
  .new ⟨.get, { path }, Multimap.empty, Extensions.empty, Body.empty, .http11⟩

private def imagePattern : Str :=
  "/images/img{id}.png/{tag}".toList

/-- The path of an image, and what is in front of it for the outer router. -/
private def imagePath (outer : Str) : Str :=
  outer ++ "/images/img7.png/a%40b".toList

theorem seesOwnCaptures_image :
    (users imagePattern).SeesOwnCaptures (fun _ _ ↦ StatusCode.ok.intoResponse)
      [(1, usersRequest "/api/images/img1.png/new".toList)] 1
      (usersRequest (imagePath "/api".toList)) () imagePattern (imagePath []) := by
  have hinner : (users imagePattern).resolve 0 { path := imagePath [] } .get =
      some ([.route imagePattern (imagePath [])], ()) := by
    rw [resolve]
    rfl
  have houter : (users imagePattern).resolve 1 { path := imagePath "/api".toList } .get =
      some ([.route "/api/{*__rest}".toList (imagePath "/api".toList)] ++
        [.route imagePattern (imagePath [])], ()) := by
    rw [resolve]
    show Option.map _ ((users _).resolve 0 { path := imagePath [] } .get) = _
    rw [hinner]
    rfl
  exact (seesOwnCaptures_iff _ houter).2 (.inl (by decide))

/-- A handler without parameters finds what the mount captured. -/
theorem not_seesOwnCaptures_users :
    (users "/users".toList).resolve 1 { path := "/api/users".toList } .get =
      some ([.route "/api/{*__rest}".toList "/api/users".toList] ++
        [.route "/users".toList "/users".toList], ()) ∧
    ¬ (users "/users".toList).SeesOwnCaptures (fun _ _ ↦ StatusCode.ok.intoResponse) [] 1
      (usersRequest "/api/users".toList) () "/users".toList "/users".toList := by
  have hinner : (users "/users".toList).resolve 0 { path := "/users".toList } .get =
      some ([.route "/users".toList "/users".toList], ()) := by
    rw [resolve]
    rfl
  have houter : (users "/users".toList).resolve 1 { path := "/api/users".toList } .get =
      some ([.route "/api/{*__rest}".toList "/api/users".toList] ++
        [.route "/users".toList "/users".toList], ()) := by
    rw [resolve]
    show Option.map _ ((users _).resolve 0 { path := "/users".toList } .get) = _
    rw [hinner]
    rfl
  refine ⟨houter, ?_⟩
  rw [seesOwnCaptures_iff_foldl _ houter]
  decide

end Examples

end RouterFamily
