import Arvik.Observe.Metrics
import Arvik.Router.AllowHeader
import Mathlib.Data.Set.Finite.Basic
import Mathlib.Data.Set.Functor

/-!
# The series of the metrics of a router

A series is created under labels the first time they are used, and stays. The route of a series is a
pattern of the router or one of a few names, whatever the paths of the requests
(`routesWithin_intoService`); but the method is the token of the request, and a request may have any
token for a method. So the series of a run are those of the router (`series`) exactly if the methods
of its requests are standard ones (`covered_iff`), and no list covers the series of all runs
(`not_bounded`).

The router is observed from the layer outside it, which reads the pattern off the response. So what
is shown of it is an invariant of what may come out (`RoutesWithin`), kept by every handler and
layer that does not write patterns of its own, and not which pattern a request is matched with.

The rest is about runs of the registry. The labels in it come from requests that were taken on, each
of them under labels of its own (`Labelled`), and a step creates series for one of these only; the
run lemma is an induction over the events.
-/

namespace Observe

variable {H E B : Type} [Extensions E] [Extensions.Slot E MatchedPathExt]

/-! ### The routes of responses -/

section Routes

/-- The names under which a router counts responses. -/
def routeLabels [MatchitLib] {Hd L : Type} (router : Router Hd L) : List Str :=
  "__fallback".toList :: "__unmatched".toList :: router.routes.map RouteEntry.pattern

/-- The routes of all responses a service may give are among these. -/
def RoutesWithin (routes : List Str) (service : Service H E B SetM) : Prop :=
  ∀ req, ∀ response ∈ (service req).run, ∀ matched : MatchedPathExt,
    Extensions.Slot.get response.extensions = some matched → matched.path ∈ routes

/-- A layer that puts no route of its own on responses. A route on a response is what the registry
labels the request with. -/
def KeepsRoutes (layer : Service H E B SetM → Service H E B SetM) : Prop :=
  ∀ routes service, RoutesWithin routes service → RoutesWithin routes (layer service)

/-- What a computation may come to that goes on from the outcomes of another. -/
theorem mem_run_bind_iff {α β : Type} {x : SetM α} {f : α → SetM β} {b : β} :
    b ∈ (x >>= f).run ↔ ∃ a ∈ x.run, b ∈ (f a).run := by
  show b ∈ (⋃ a ∈ x.run, (f a).run) ↔ _
  rw [Set.mem_iUnion₂]
  exact ⟨fun ⟨a, ha, hb⟩ ↦ ⟨a, ha, hb⟩, fun ⟨a, ha, hb⟩ ↦ ⟨a, ha, hb⟩⟩

theorem mem_run_pure_iff {α : Type} {a b : α} : b ∈ (pure a : SetM α).run ↔ b = a :=
  Iff.rfl

variable [MatchitLib] [Multimap H HeaderName HeaderValue] [Extensions.Slot E PathParams]
variable [FromBytes B] {Hd L : Type} {rt : Runtime H E B SetM Hd L} {router : Router Hd L}

/-- The router itself puts its own names on responses. -/
theorem routesWithin_dispatch : RoutesWithin (routeLabels router) (router.dispatch rt) := by
  intro req response hresponse matched hmatched
  rw [Router.dispatch] at hresponse
  split at hresponse
  · next idx entry params hmatch =>
    obtain ⟨pathParams, -, hrouted⟩ := mem_run_bind_iff.1 hresponse
    obtain ⟨inner, -, hpure⟩ := mem_run_bind_iff.1 hrouted
    obtain rfl := mem_run_pure_iff.1 hpure
    obtain rfl := Option.some.inj ((Extensions.Slot.get_insert _ _).symm.trans hmatched)
    have hentry := List.mem_of_getElem? (Router.matchRoute_eq_some_iff.1 hmatch).2
    exact .tail _ (.tail _ (List.mem_map_of_mem (f := RouteEntry.pattern) hentry))
  · split at hresponse
    · obtain ⟨inner, -, hpure⟩ := mem_run_bind_iff.1 hresponse
      obtain rfl := mem_run_pure_iff.1 hpure
      obtain rfl := Option.some.inj ((Extensions.Slot.get_insert _ _).symm.trans hmatched)
      exact .head _
    · obtain rfl := mem_run_pure_iff.1 hresponse
      obtain rfl := Option.some.inj ((Extensions.Slot.get_insert _ _).symm.trans hmatched)
      exact .tail _ (.head _)

/-- **The routes of the responses of a router**, within layers that put none of their own. The
pattern on a response is the one that was matched, or none, whatever the path was. -/
theorem routesWithin_intoService
    (hkeep : ∀ layer ∈ router.layers, KeepsRoutes (rt.layer layer)) :
    RoutesWithin (routeLabels router) (router.intoService rt) :=
  Layering.applyAll_induction routesWithin_dispatch
    fun layer hlayer service ↦ hkeep layer hlayer (routeLabels router) service

end Routes

/-! ### The series of a router -/

/-- The methods of the standard. -/
def standardMethods : List Method :=
  .connect :: MethodRouter.standardMethods

/-- All status codes. -/
def statuses : List StatusCode :=
  (List.finRange 900).map fun n : Fin 900 ↦ ⟨100 + n.val, by omega⟩

theorem mem_statuses (status : StatusCode) : status ∈ statuses := by
  obtain ⟨code, hlow, hhigh⟩ := status
  obtain ⟨n, rfl⟩ := Nat.exists_eq_add_of_le hlow
  exact List.mem_map.2 ⟨⟨n, by omega⟩, List.mem_finRange _, rfl⟩

/-- The labels of a request in flight, or of one that is completed by one of the routes. -/
inductive IsSeries (labels : StaticLabels) (routes : List Str) (method : Str) : Labels → Prop
  | pending : IsSeries labels routes method
      (labels.values method pendingRoute "pending".toList)
  | completed {route : Str} (hroute : route ∈ unknownRoute :: routes) (status : StatusCode) :
      IsSeries labels routes method (labels.values method route status.asStr)

theorem IsSeries.method_eq {labels : StaticLabels} {routes : List Str} {method : Str}
    {values : Labels} (h : IsSeries labels routes method values) : values.method = method := by
  cases h with
  | pending => rfl
  | completed hroute status => rfl

/-- The series a configuration allows. -/
def series (labels : StaticLabels) (routes : List Str) : List Labels :=
  standardMethods.flatMap fun method ↦
    labels.values method.asStr pendingRoute "pending".toList ::
      (unknownRoute :: routes).flatMap fun route ↦
        statuses.map fun status ↦ labels.values method.asStr route status.asStr

theorem mem_series_iff {labels : StaticLabels} {routes : List Str} {values : Labels} :
    values ∈ series labels routes ↔
      ∃ method ∈ standardMethods, IsSeries labels routes method.asStr values := by
  rw [series, List.mem_flatMap]
  refine exists_congr fun method ↦ and_congr_right fun _ ↦ ?_
  rw [List.mem_cons, List.mem_flatMap]
  constructor
  · rintro (rfl | ⟨route, hroute, hvalues⟩)
    · exact .pending
    · obtain ⟨status, -, rfl⟩ := List.mem_map.1 hvalues
      exact .completed hroute status
  · intro h
    cases h with
    | pending => exact .inl rfl
    | completed hroute status =>
      exact .inr ⟨_, hroute, List.mem_map.2 ⟨status, mem_statuses status, rfl⟩⟩

/-! ### The series of a run -/

/-- A series was created in one of the families of requests. -/
def MetricsRegistry.Has (registry : MetricsRegistry) (values : Labels) : Prop :=
  (registry.requestsTotal.find values).isSome ∨ (registry.requestDuration.find values).isSome ∨
    (registry.requestsInFlight.find values).isSome

/-- The events of a service with these labels, around an inner service. -/
def Event.From (metrics : PrometheusMetricsService) (inner : Service H E B SetM) :
    Event H E B → Prop
  | .call service _ => service = metrics
  | .act _ (.poll _ _ (some response)) => ∃ req, response ∈ (inner req).run
  | .act _ _ => True

namespace MetricsRegistry

variable {registry : MetricsRegistry} {values : Labels}

theorem has_dropGuard_iff {guard : InFlightGuard} : (registry.dropGuard guard).Has values ↔
    registry.Has values ∨ guard.active ∧ values = guard.gauge := by
  rw [dropGuard]
  split
  · next hactive =>
    rw [Has, Has, Tally.isSome_find_add_iff]
    tauto
  · next hactive => exact (or_iff_left fun h ↦ hactive h.1).symm

end MetricsRegistry

variable {sizeHint : B → SizeHint} {x x' : Exchange H} {registry registry' : MetricsRegistry}

theorem has_complete_iff {guard : InFlightGuard} {elapsed : ℕ} {response : Response H E B}
    {values : Labels} : (complete sizeHint registry x guard elapsed response).1.Has values ↔
      (registry.Has values ∨ values = x.service.labels.values x.method
        (matchedRoute response.extensions) response.status.asStr) ∨
          guard.active ∧ values = guard.gauge := by
  obtain ⟨counted, payload, hcomplete, hcompletes⟩ :=
    exists_complete_eq sizeHint registry x guard elapsed response rfl
  rw [hcomplete, MetricsRegistry.has_dropGuard_iff, MetricsRegistry.Has, MetricsRegistry.Has,
    hcompletes.requestsTotal, hcompletes.requestDuration, hcompletes.inFlight,
    Tally.isSome_find_add_iff, Tally.isSome_find_add_iff]
  tauto

/-- What an action does to the series, and to what they are labelled with. -/
structure Extends (x : Exchange H) (registry : MetricsRegistry) (action : Action H E B)
    (x' : Exchange H) (registry' : MetricsRegistry) : Prop where
  service : x'.service = x.service
  method : x'.method = x.method
  mono : ∀ values, registry.Has values → registry'.Has values
  new : ∀ values, registry'.Has values → registry.Has values ∨ values = x.pendingValues ∨
    ∃ polled now response, action = .poll polled now (some response) ∧
      values = x.service.labels.values x.method (matchedRoute response.extensions)
        response.status.asStr

theorem Exchange.Kept.extends {action : Action H E B} (hkept : x.Kept)
    (h : x.step sizeHint registry action = some (x', registry')) :
    Extends x registry action x' registry' := by
  cases Exchange.stepped_of_step h with
  | complete polled now response hfuture =>
    obtain rfl := hkept.guard _ _ hfuture
    refine ⟨rfl, rfl, fun values hhas ↦ has_complete_iff.2 (.inl (.inl hhas)),
      fun values hhas ↦ ?_⟩
    rcases has_complete_iff.1 hhas with (hold | hcounted) | ⟨-, hpending⟩
    · exact .inl hold
    · exact .inr (.inr ⟨polled, now, response, rfl, hcounted⟩)
    · exact .inr (.inl hpending)
  | drop hfuture =>
    obtain rfl := hkept.guard _ _ hfuture
    refine ⟨rfl, rfl, fun values hhas ↦ MetricsRegistry.has_dropGuard_iff.2 (.inl hhas),
      fun values hhas ↦ ?_⟩
    rcases MetricsRegistry.has_dropGuard_iff.1 hhas with hold | ⟨-, hpending⟩
    · exact .inl hold
    · exact .inr (.inl hpending)
  | wait | pollRequestBody | pollBody | dropBody =>
    exact ⟨rfl, rfl, fun _ ↦ id, fun _ ↦ .inl⟩

/-- The labels under which a request is counted in. -/
def pendingSeries (labels : StaticLabels) (req : Request H E B) : Labels :=
  labels.values req.method.asStr pendingRoute "pending".toList

/-- What holds after events: a series is labelled with the method of a request, and each request has
left one. -/
structure Labelled (metrics : PrometheusMetricsService) (routes : List Str)
    (es : List (Event H E B)) (s : State H) : Prop where
  exchange : ∀ x ∈ s.exchanges, x.service = metrics ∧
    ∃ req, .call metrics req ∈ es ∧ x.method = req.method.asStr
  series : ∀ values, s.registry.Has values →
    ∃ req, .call metrics req ∈ es ∧ IsSeries metrics.labels routes req.method.asStr values
  called : ∀ req, .call metrics req ∈ es → s.registry.Has (pendingSeries metrics.labels req)

section Runs

variable {metrics : PrometheusMetricsService} {inner : Service H E B SetM} {routes : List Str}

omit [Extensions.Slot E MatchedPathExt] [Extensions E] in
theorem Labelled.call {es : List (Event H E B)} {s : State H} (h : Labelled metrics routes es s)
    (req : Request H E B) :
    Labelled metrics routes (es ++ [.call metrics req]) (s.call metrics req) := by
  have hhas {values : Labels} : (s.call metrics req).registry.Has values ↔
      s.registry.Has values ∨ values = pendingSeries metrics.labels req := by
    show _ ∨ _ ∨ (Option.isSome _ : Prop) ↔ _
    rw [State.call, Tally.isSome_find_add_iff, MetricsRegistry.Has]
    tauto
  have hlast : .call metrics req ∈ es ++ [.call metrics req] :=
    List.mem_append_right _ List.mem_cons_self
  refine ⟨fun x hx ↦ ?_, fun values hvalues ↦ ?_, fun req' hreq' ↦ hhas.2 ?_⟩
  · rcases List.mem_append.1 hx with hx | hx
    · obtain ⟨hservice, req', hreq', hmethod⟩ := h.exchange x hx
      exact ⟨hservice, req', List.mem_append_left _ hreq', hmethod⟩
    · obtain rfl := List.mem_singleton.1 hx
      exact ⟨rfl, req, hlast, rfl⟩
  · rcases hhas.1 hvalues with hvalues | rfl
    · obtain ⟨req', hreq', hseries⟩ := h.series values hvalues
      exact ⟨req', List.mem_append_left _ hreq', hseries⟩
    · exact ⟨req, hlast, .pending⟩
  · rcases List.mem_append.1 hreq' with hreq' | hreq'
    · exact .inl (h.called req' hreq')
    · obtain ⟨-, rfl⟩ := Event.call.inj (List.mem_singleton.1 hreq')
      exact .inr rfl

theorem Labelled.act {es : List (Event H E B)} {s s' : State H} {i : ℕ} {action : Action H E B}
    (h : Labelled metrics routes es s) (hinv : s.Inv) (hroutes : RoutesWithin routes inner)
    (hfrom : Event.From metrics inner (.act i action))
    (hstep : step sizeHint s (.act i action) = some s') :
    Labelled metrics routes (es ++ [.act i action]) s' := by
  obtain ⟨x, hx, hnext⟩ := Option.bind_eq_some_iff.1 hstep
  obtain ⟨⟨x', registry'⟩, haction, rfl⟩ := Option.map_eq_some_iff.1 hnext
  have hmem := List.mem_of_getElem? hx
  have hext := (hinv.kept x hmem).extends haction
  obtain ⟨hservice, req, hreq, hmethod⟩ := h.exchange x hmem
  have hgrow {req : Request H E B} (hreq : .call metrics req ∈ es) :
      .call metrics req ∈ es ++ [.act i action] := List.mem_append_left _ hreq
  refine ⟨fun y hy ↦ ?_, fun values hvalues ↦ ?_, fun req' hreq' ↦ ?_⟩
  · rcases List.mem_or_eq_of_mem_set hy with hy | rfl
    · obtain ⟨hservice', req', hreq', hmethod'⟩ := h.exchange y hy
      exact ⟨hservice', req', hgrow hreq', hmethod'⟩
    · exact ⟨hext.service.trans hservice, req, hgrow hreq, hext.method.trans hmethod⟩
  · rcases hext.new values hvalues with hold | rfl | ⟨polled, now, response, rfl, rfl⟩
    · obtain ⟨req', hreq', hseries⟩ := h.series values hold
      exact ⟨req', hgrow hreq', hseries⟩
    · rw [Exchange.pendingValues, hservice, hmethod]
      exact ⟨req, hgrow hreq, .pending⟩
    · obtain ⟨req', hresponse⟩ := hfrom
      rw [hservice, hmethod]
      refine ⟨req, hgrow hreq, .completed ?_ response.status⟩
      rw [matchedRoute]
      rcases hget : (Extensions.Slot.get response.extensions : Option MatchedPathExt) with
        - | matched
      · exact List.mem_cons_self
      · exact List.mem_cons_of_mem _ (hroutes req' response hresponse matched hget)
  · rcases List.mem_append.1 hreq' with hreq' | hreq'
    · exact hext.mono _ (h.called req' hreq')
    · cases List.mem_singleton.1 hreq'

/-- **The series of a run are labelled with the methods of its requests.** A step creates series for
the request it moves, under the labels that were taken from it in the beginning. -/
theorem labelled_of_run {es : List (Event H E B)} {s : State H}
    (hroutes : RoutesWithin routes inner) (hfrom : ∀ e ∈ es, e.From metrics inner)
    (hrun : (system sizeHint).run es = some s) : Labelled metrics routes es s := by
  refine Transition.run_induction
    (P := fun es s ↦ (∀ e ∈ es, Event.From metrics inner e) → Labelled metrics routes es s)
    (fun _ ↦ ⟨fun _ hx ↦ absurd hx List.not_mem_nil, fun _ hhas ↦ ?_,
      fun _ hreq ↦ absurd hreq List.not_mem_nil⟩) (fun es s e s' hs ih hstep hfrom ↦ ?_) hrun hfrom
  · rcases hhas with h | h | h
    · cases h
    · cases h
    · cases h
  · have hbefore := ih fun e' he' ↦ hfrom e' (List.mem_append_left _ he')
    have hlast := hfrom e (List.mem_append_right _ List.mem_cons_self)
    cases e with
    | call service req =>
      obtain rfl : service = metrics := hlast
      obtain rfl := Option.some.inj hstep
      exact hbefore.call req
    | act i action => exact hbefore.act (inv_of_run hs) hroutes hlast hstep

/-- **When the series stay within those of the router**: exactly if all methods are standard. Routes
and statuses are bounded whatever the requests are; the method is taken from the request as it came.
-/
theorem covered_iff [MatchitLib] [Multimap H HeaderName HeaderValue] [Extensions.Slot E PathParams]
    [FromBytes B] {Hd L : Type} {rt : Runtime H E B SetM Hd L} {router : Router Hd L}
    {es : List (Event H E B)} {s : State H}
    (hkeep : ∀ layer ∈ router.layers, KeepsRoutes (rt.layer layer))
    (hfrom : ∀ e ∈ es, e.From metrics (router.intoService rt))
    (hrun : (system sizeHint).run es = some s) :
    (∀ values, s.registry.Has values → values ∈ series metrics.labels (routeLabels router)) ↔
      ∀ req, .call metrics req ∈ es → req.method.asStr ∈ standardMethods.map Method.asStr := by
  have hlabelled := labelled_of_run (routesWithin_intoService hkeep) hfrom hrun
  constructor
  · intro h req hreq
    obtain ⟨method, hmethod, hseries⟩ := mem_series_iff.1 (h _ (hlabelled.called req hreq))
    exact List.mem_map.2 ⟨method, hmethod, hseries.method_eq.symm⟩
  · intro h values hvalues
    obtain ⟨req, hreq, hseries⟩ := hlabelled.series values hvalues
    obtain ⟨method, hmethod, heq⟩ := List.mem_map.1 (h req hreq)
    exact mem_series_iff.2 ⟨method, hmethod, heq ▸ hseries⟩

end Runs

end Observe

namespace Observe

/-! ### Methods without end -/

section Tokens

private abbrev PlainFields := AssocList HeaderName HeaderValue

private abbrev PlainExtensions := Option PathParams × Option MatchedPathExt

attribute [local instance] MatchitLib.list

/-- Handlers and layers of which there are none. -/
private def withoutHandlers : Runtime PlainFields PlainExtensions (Body PlainFields) SetM Empty
    Empty where
  handle handler := handler.elim
  layer layer := layer.elim
  getOrInit _ names := pure names

private def plainRequest (method : Method) :
    Request PlainFields PlainExtensions (Body PlainFields) :=
  .new ⟨method, { path := "/nowhere".toList }, Multimap.empty, Extensions.empty, Body.empty,
    .http11⟩

private def unmatchedResponse : Response PlainFields PlainExtensions (Body PlainFields) :=
  Router.notFound.insertExtension (MatchedPathExt.mk "__unmatched".toList)

/-- One request for a path without a route. -/
private def onePlainRequest (method : Method) :
    List (Event PlainFields PlainExtensions (Body PlainFields)) :=
  [.call {} (plainRequest method), .act 0 (.poll 0 0 (some unmatchedResponse))]

theorem from_onePlainRequest (method : Method) : ∀ e ∈ onePlainRequest method,
    e.From {} ((Router.new : Router Empty Empty).intoService withoutHandlers) := by
  intro e he
  rcases List.mem_pair.1 he with rfl | rfl
  · exact rfl
  · exact ⟨plainRequest method, mem_run_pure_iff.2 rfl⟩

theorem exists_run_onePlainRequest (method : Method) :
    ∃ s, (system Body.sizeHint).run (onePlainRequest method) = some s :=
  ⟨_, rfl⟩

theorem covered_onePlainRequest : ∃ s,
    (system Body.sizeHint).run (onePlainRequest .get) = some s ∧ ∀ values, s.registry.Has values →
      values ∈ series {} (routeLabels (Router.new : Router Empty Empty)) := by
  obtain ⟨s, hrun⟩ := exists_run_onePlainRequest .get
  refine ⟨s, hrun, (covered_iff (fun layer ↦ layer.elim) (from_onePlainRequest .get) hrun).2
    fun req hreq ↦ ?_⟩
  rcases List.mem_pair.1 hreq with hcall | hcall
  · obtain ⟨-, rfl⟩ := Event.call.inj hcall
    decide
  · cases hcall

/-- No list has the series of all requests to a router without routes. -/
theorem not_bounded : ¬∃ series : List Labels, ∀ es s,
    (∀ e ∈ es, e.From {} ((Router.new : Router Empty Empty).intoService withoutHandlers)) →
      (system Body.sizeHint).run es = some s →
        ∀ values, s.registry.Has values → values ∈ series := by
  rintro ⟨series, h⟩
  have hmem (n : ℕ) : pendingSeries {} (plainRequest (.extension (List.replicate (n + 1) 'X'))) ∈
      {values | values ∈ series} := by
    have hfrom := from_onePlainRequest (.extension (List.replicate (n + 1) 'X'))
    obtain ⟨s, hrun⟩ := exists_run_onePlainRequest (.extension (List.replicate (n + 1) 'X'))
    have hlabelled := labelled_of_run (routesWithin_intoService fun layer ↦ layer.elim) hfrom hrun
    exact h _ s hfrom hrun _ (hlabelled.called _ List.mem_cons_self)
  refine Set.infinite_of_injective_forall_mem (fun n n' heq ↦ ?_) hmem (List.finite_toSet series)
  have hmethod : List.replicate (n + 1) 'X' = List.replicate (n' + 1) 'X' :=
    congrArg Labels.method heq
  simpa using congrArg List.length hmethod

end Tokens

end Observe
