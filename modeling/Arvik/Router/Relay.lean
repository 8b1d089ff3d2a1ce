import Arvik.Router.Router

/-!
# Layers that hand requests on

A relay is a layer that edits the request, hands it on once, and edits the response. What it must
leave alone in the request is a parameter (`view`). Under a runtime that keeps a state, each relay
leaves a mark in it on the way in; `run_applyLayers` says what a stack of relays comes to: the
service inside is run once, on a request with the same view, in the state with all marks.

`state_intoService_of_match` is the same for a whole router whose relays leave no mark: the handler
of the route that matches is run once, on a request that looks like the one that came in with the
match recorded.

What a theorem about a router observes are marks: of the layers that were passed, of the handler
that was reached, of the request it was given. A layer that answers by itself or asks twice would
make any such observation meaningless, so the theorems that observe are about relays, with the
weakest view they need, and the theorems about layers that may do anything are stated about the
responses instead.
-/

variable {H E B K W Λ : Type} {Hd : Type}

/-- A layer that hands every request on, leaving a view of it as it is. -/
structure Relay (view : Request H E B → K) (Λ : Type) where
  label : Λ
  onRequest : Request H E B → Request H E B
  onResponse : Request H E B → Response H E B → Response H E B
  keeps : ∀ req, view (onRequest req) = view req

namespace Relay

variable {view : Request H E B → K}

/-- A service inside a relay that leaves a mark in the state. -/
def wrap (mark : Λ → W → W) (self : Relay view Λ) (service : Service H E B (StateM W)) :
    Service H E B (StateM W) := fun req ↦ do
  modify (mark self.label)
  let response ← service (self.onRequest req)
  pure (self.onResponse req response)

/-- The request that has passed a stack of relays, the last of them outermost. -/
def through (relays : List (Relay view Λ)) (req : Request H E B) : Request H E B :=
  relays.foldr Relay.onRequest req

/-- The state with the marks of a stack of relays, the outermost first. -/
def marked (mark : Λ → W → W) (relays : List (Relay view Λ)) (w : W) : W :=
  relays.foldr (fun relay w ↦ mark relay.label w) w

theorem view_through (relays : List (Relay view Λ)) (req : Request H E B) :
    view (through relays req) = view req := by
  induction relays with
  | nil => rfl
  | cons relay relays ih => exact (relay.keeps _).trans ih

variable {rt : Runtime H E B (StateM W) Hd (Relay view Λ)} {mark : Λ → W → W}

/-- **What a stack of relays comes to.** By induction on the stack, whose outermost relay sees the
request first and leaves its mark before the others. -/
theorem run_applyLayers (hlayer : rt.layer = wrap mark) (base : Service H E B (StateM W))
    (relays : List (Relay view Λ)) (req : Request H E B) :
    ∃ respond : Response H E B → Response H E B, ∀ w,
      (applyLayers rt base relays req).run w =
        (respond ((base (through relays req)).run (marked mark relays w)).1,
          ((base (through relays req)).run (marked mark relays w)).2) := by
  induction relays generalizing base with
  | nil => exact ⟨id, fun _ ↦ rfl⟩
  | cons relay relays ih =>
    obtain ⟨respond, hrespond⟩ := ih (rt.layer relay base)
    refine ⟨fun response ↦ respond (relay.onResponse (through relays req) response), fun w ↦ ?_⟩
    rw [applyLayers, Layering.applyAll_cons]
    refine (hrespond w).trans ?_
    rw [hlayer]
    rfl

theorem marked_silent (relays : List (Relay view Λ)) (w : W) :
    marked (fun _ w ↦ w) relays w = w := by
  induction relays with
  | nil => rfl
  | cons relay relays ih => exact ih

/-- The state after a stack of relays is the state after the service inside. -/
theorem state_applyLayers (hlayer : rt.layer = wrap mark) (base : Service H E B (StateM W))
    (relays : List (Relay view Λ)) (req : Request H E B) (w : W) :
    ((applyLayers rt base relays req).run w).2 =
      ((base (through relays req)).run (marked mark relays w)).2 := by
  obtain ⟨respond, hrespond⟩ := run_applyLayers hlayer base relays req
  rw [hrespond w]

/-! ### Routers whose layers are relays -/

section Router

variable [MatchitLib] [Multimap H HeaderName HeaderValue] [Extensions E]
variable [Extensions.Slot E PathParams] [Extensions.Slot E MatchedPathExt] [FromBytes B]
variable {router : Router Hd (Relay view Λ)} {req : Request H E B}

/-- **A request with a route and a handler for its method**: the handler is run once, on a request
that looks like the one that came in with the match recorded. -/
theorem state_intoService_of_match (hlayer : rt.layer = wrap fun _ w ↦ w)
    (hview : ∀ req req', view req = view req' →
      req.uri.path = req'.uri.path ∧ req.method = req'.method)
    (hrecord : ∀ pattern pathParams req req', view req = view req' →
      view (Router.recordMatch pattern pathParams req) =
        view (Router.recordMatch pattern pathParams req'))
    {idx : ℕ} {entry : RouteEntry Hd (Relay view Λ)} {params : List (Str × Str)} {handler : Hd}
    (hmatch : router.matchRoute req.uri.path = some (idx, entry, params))
    (hhandler : entry.methodRouter.handlerFor req.method = some handler) :
    ∃ reach : Option PathParams → Request H E B,
      (∀ pathParams, view (reach pathParams) =
        view (Router.recordMatch entry.pattern pathParams req)) ∧
      ∀ w, ((router.intoService rt req).run w).2 =
        ((rt.handle handler (reach ((Router.pathParams rt idx params).run w).1)).run
          ((Router.pathParams rt idx params).run w).2).2 := by
  have hin := view_through router.layers req
  obtain ⟨hpath, -⟩ := hview _ _ hin
  refine ⟨fun pathParams ↦ through entry.methodRouter.layers (through router.routeLayers
    (Router.recordMatch entry.pattern pathParams (through router.layers req))),
    fun pathParams ↦ ?_, fun w ↦ ?_⟩
  · exact ((view_through _ _).trans (view_through _ _)).trans (hrecord _ _ _ _ hin)
  · rw [Router.intoService, state_applyLayers hlayer, marked_silent,
      Router.dispatch_of_match (hpath ▸ hmatch)]
    show ((applyLayers rt (entry.methodRouter.clone.call rt) router.routeLayers
      (Router.recordMatch entry.pattern ((Router.pathParams rt idx params).run w).1
        (through router.layers req))).run ((Router.pathParams rt idx params).run w).2).2 = _
    generalize (Router.pathParams rt idx params).run w = found
    have hinner := (view_through router.routeLayers
      (Router.recordMatch entry.pattern found.1 (through router.layers req))).trans
        (hrecord entry.pattern found.1 _ _ hin)
    have hmethod := (hview _ _ hinner).2.trans (Router.method_recordMatch _ _ _)
    rw [state_applyLayers hlayer, marked_silent, MethodRouter.call_clone, hmethod, hhandler]
    show ((applyLayers rt (rt.handle handler) entry.methodRouter.layers _).run found.2).2 = _
    rw [state_applyLayers hlayer, marked_silent]

/-- A request without a route: the fallback is run, if there is one. -/
theorem state_intoService_of_unmatched (hlayer : rt.layer = wrap fun _ w ↦ w)
    (hview : ∀ req req', view req = view req' →
      req.uri.path = req'.uri.path ∧ req.method = req'.method)
    (hmatch : router.matchRoute req.uri.path = none) :
    ∃ req', view req' = view req ∧ ∀ w, ((router.intoService rt req).run w).2 =
      match router.fallback with
      | some handler => ((rt.handle handler req').run w).2
      | none => w := by
  have hin := view_through router.layers req
  refine ⟨through router.layers req, hin, fun w ↦ ?_⟩
  rw [Router.intoService, state_applyLayers hlayer, marked_silent, Router.dispatch,
    (hview _ _ hin).1, hmatch]
  rcases router.fallback with - | handler
  · rfl
  · rfl

/-- A request whose route has no handler for the method: nothing is run. -/
theorem state_intoService_of_mismatch (hlayer : rt.layer = wrap fun _ w ↦ w)
    (hview : ∀ req req', view req = view req' →
      req.uri.path = req'.uri.path ∧ req.method = req'.method)
    (hrecord : ∀ pattern pathParams req req', view req = view req' →
      view (Router.recordMatch pattern pathParams req) =
        view (Router.recordMatch pattern pathParams req'))
    {idx : ℕ} {entry : RouteEntry Hd (Relay view Λ)} {params : List (Str × Str)}
    (hmatch : router.matchRoute req.uri.path = some (idx, entry, params))
    (hhandler : entry.methodRouter.handlerFor req.method = none) (w : W) :
    ((router.intoService rt req).run w).2 = ((Router.pathParams rt idx params).run w).2 := by
  have hin := view_through router.layers req
  rw [Router.intoService, state_applyLayers hlayer, marked_silent,
    Router.dispatch_of_match ((hview _ _ hin).1 ▸ hmatch)]
  show ((applyLayers rt (entry.methodRouter.clone.call rt) router.routeLayers
    (Router.recordMatch entry.pattern ((Router.pathParams rt idx params).run w).1
      (through router.layers req))).run ((Router.pathParams rt idx params).run w).2).2 = _
  generalize (Router.pathParams rt idx params).run w = found
  have hinner := (view_through router.routeLayers
    (Router.recordMatch entry.pattern found.1 (through router.layers req))).trans
      (hrecord entry.pattern found.1 _ _ hin)
  have hmethod := (hview _ _ hinner).2.trans (Router.method_recordMatch _ _ _)
  rw [state_applyLayers hlayer, marked_silent, MethodRouter.call_clone, hmethod, hhandler]
  rfl

end Router

end Relay
