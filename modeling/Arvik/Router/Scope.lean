import Arvik.Core.Body
import Arvik.Router.Relay
import Arvik.Router.Tree

/-!
# Which layers see a refusal

A request that no handler takes is answered by the router itself: with 404 or by the fallback if no
route matches, with 405 if the route has no handler for the method. Which layers such a request
passes is observed with relays that record their label. A refusal for the path passes the `layers`
of the outermost router; a refusal for the method passes its `routeLayers` as well, being made by
the method router. The layers of the other routers are around their handlers only.

`scopedAt_iff` compares that with the documented scopes: `layers` see all requests and refusals,
`routeLayers` see no refusal.

The labels of a tree are distinct, so that a recorded label names one layer of one router; without
this a layer that is not passed could hide behind another one of its name. What is passed is then a
list that is known for each kind of refusal (`passed_of_unmatched`, `passed_of_mismatch`), and the
comparison with the scopes is about membership in it. A fallback that was adopted from a router
brings the layers of that router along, which is why the condition has a part about it.
-/

namespace RouterTree

/-! ### The routers of a tree -/

section Routers

variable {Hd L : Type}

/-- The routers that were nested or merged, at any depth. -/
def subRouters : RouterTree Hd L → List (RouterTree Hd L)
  | new => []
  | route self _ _ => self.subRouters
  | routeLayer self _ => self.subRouters
  | layer self _ => self.subRouters
  | withFallback self _ => self.subRouters
  | nest self _ other => self.subRouters ++ other :: other.subRouters
  | merge self other => self.subRouters ++ other :: other.subRouters

/-- All routers of a tree. -/
def routers (self : RouterTree Hd L) : List (RouterTree Hd L) :=
  self :: self.subRouters

/-- The router that makes a declaration, given the routers the declaration was taken over from. -/
def declaring (self : RouterTree Hd L) (enclosing : List (Enclosure Hd L)) : RouterTree Hd L :=
  (enclosing.head?.map Enclosure.router).getD self

/-- What is taken over from a router or one of its routers comes from one of them. -/
private theorem mem_of_within {other : RouterTree Hd L} {pfx : Option Str}
    {enclosing : List (Enclosure Hd L)}
    (h : ∀ enclosure ∈ enclosing, enclosure.router ∈ other.subRouters) :
    ∀ enclosure ∈ enclosing ++ [⟨pfx, other⟩], enclosure.router ∈ other :: other.subRouters := by
  intro enclosure hmem
  rcases List.mem_append.1 hmem with hmem | hmem
  · exact List.mem_cons_of_mem _ (h enclosure hmem)
  · obtain rfl := List.mem_singleton.1 hmem
    exact List.mem_cons_self

/-- A route is taken over from routers of the tree only. -/
theorem mem_subRouters_of_declared {tree : RouterTree Hd L} {d : Declared Hd L}
    (hd : d ∈ tree.declared) : ∀ enclosure ∈ d.enclosing, enclosure.router ∈ tree.subRouters := by
  induction tree generalizing d with
  | new => exact absurd hd List.not_mem_nil
  | route self path methodRouter ih =>
    rcases List.mem_append.1 hd with hd | hd
    · exact ih hd
    · obtain rfl := List.mem_singleton.1 hd
      exact fun _ h ↦ absurd h List.not_mem_nil
  | routeLayer self l ih => exact ih hd
  | layer self l ih => exact ih hd
  | withFallback self handler ih => exact ih hd
  | nest self pfx other ih ihOther =>
    rcases List.mem_append.1 hd with hd | hd
    · exact fun e he ↦ List.mem_append_left _ (ih hd e he)
    · obtain ⟨d', hd', rfl⟩ := List.mem_map.1 hd
      exact fun e he ↦ List.mem_append_right _ (mem_of_within (ihOther hd') e he)
  | merge self other ih ihOther =>
    rcases List.mem_append.1 hd with hd | hd
    · exact fun e he ↦ List.mem_append_left _ (ih hd e he)
    · obtain ⟨d', hd', rfl⟩ := List.mem_map.1 hd
      exact fun e he ↦ List.mem_append_right _ (mem_of_within (ihOther hd') e he)

/-- A fallback is taken over from routers of the tree only. -/
theorem mem_subRouters_of_adopted {tree : RouterTree Hd L} {handler : Hd}
    {enclosing : List (Enclosure Hd L)} (h : tree.adopted = some (handler, enclosing)) :
    ∀ enclosure ∈ enclosing, enclosure.router ∈ tree.subRouters := by
  induction tree generalizing enclosing with
  | new => exact nomatch h
  | route self path methodRouter ih => exact ih h
  | routeLayer self l ih => exact ih h
  | layer self l ih => exact ih h
  | withFallback self own ih =>
    obtain ⟨-, rfl⟩ := Prod.mk.inj (Option.some.inj h)
    exact fun _ h ↦ absurd h List.not_mem_nil
  | nest self pfx other ih ihOther => exact fun e he ↦ List.mem_append_left _ (ih h e he)
  | merge self other ih ihOther =>
    rcases Option.or_eq_some_iff.1 h with hself | ⟨-, hother⟩
    · exact fun e he ↦ List.mem_append_left _ (ih hself e he)
    · obtain ⟨⟨handler', enclosing'⟩, hadopted, heq⟩ := Option.map_eq_some_iff.1 hother
      obtain ⟨rfl, rfl⟩ := Prod.mk.inj heq
      exact fun e he ↦ List.mem_append_right _ (mem_of_within (ihOther hadopted) e he)

/-- The router that declares something taken over is not the outermost one. -/
theorem declaring_eq {tree : RouterTree Hd L} {enclosing : List (Enclosure Hd L)}
    (h : ∀ enclosure ∈ enclosing, enclosure.router ∈ tree.subRouters) (hne : enclosing ≠ []) :
    tree.declaring enclosing ∈ tree.subRouters := by
  rcases enclosing with - | ⟨enclosure, enclosing⟩
  · exact absurd rfl hne
  · exact h enclosure List.mem_cons_self

end Routers

/-! ### The layers a request passes -/

section Observation

variable [MatchitLib] {H E B Λ : Type} {Hd : Type}
variable [Multimap H HeaderName HeaderValue] [Extensions E] [Extensions.Slot E PathParams]
variable [Extensions.Slot E MatchedPathExt] [FromBytes B]

/-- The part of a request by which it is dispatched. -/
def target (req : Request H E B) : Str × Method :=
  (req.uri.path, req.method)

/-- A layer that hands requests on without changing how they are dispatched. -/
abbrev TargetRelay (H E B Λ : Type) : Type :=
  Relay (target : Request H E B → Str × Method) Λ

/-- Record a label. -/
def recordLabel (label : Λ) (labels : List Λ) : List Λ :=
  labels ++ [label]

/-- Handlers answer, and relays record their label; `names` is what is kept for each route. -/
def recording (answer : Hd → Request H E B → Response H E B) (names : ℕ → List Str → List Str) :
    Runtime H E B (StateM (List Λ)) Hd (TargetRelay H E B Λ) where
  handle handler req := pure (answer handler req)
  layer := Relay.wrap recordLabel
  getOrInit idx keys := pure (names idx keys)

variable {answer : Hd → Request H E B → Response H E B} {names : ℕ → List Str → List Str}

/-- The layers a request passes, from the outside in. -/
def passed (answer : Hd → Request H E B → Response H E B) (names : ℕ → List Str → List Str)
    (router : Router Hd (TargetRelay H E B Λ)) (req : Request H E B) :
    List Λ :=
  ((router.intoService (recording answer names) req).run []).2

omit [MatchitLib] [Multimap H HeaderName HeaderValue] [Extensions E] [Extensions.Slot E PathParams]
  [Extensions.Slot E MatchedPathExt] [FromBytes B] in
/-- A stack of relays records its labels, the outermost first. -/
theorem state_applyLayers_recording (base : Service H E B (StateM (List Λ)))
    (relays : List (TargetRelay H E B Λ)) (req : Request H E B)
    (labels : List Λ) :
    ((applyLayers (recording answer names) base relays req).run labels).2 =
      ((base (Relay.through relays req)).run (labels ++ (relays.map Relay.label).reverse)).2 := by
  have hlayer : (recording answer names).layer = Relay.wrap (recordLabel : Λ → _ → _) :=
    rfl
  have hmarked : Relay.marked recordLabel relays labels =
      labels ++ (relays.map Relay.label).reverse := by
    induction relays with
    | nil => exact (List.append_nil labels).symm
    | cons relay relays ih =>
      rw [List.map_cons, List.reverse_cons, ← List.append_assoc, ← ih]
      rfl
  rw [Relay.state_applyLayers hlayer, hmarked]

omit [MatchitLib] [Multimap H HeaderName HeaderValue] [FromBytes B] in
/-- Recording a match leaves no mark. -/
theorem state_routed (answer : Hd → Request H E B → Response H E B)
    (names : ℕ → List Str → List Str) (idx : ℕ) (pattern : Str) (params : List (Str × Str))
    (service : Service H E B (StateM (List Λ))) (req : Request H E B) :
    ∃ pathParams, ∀ w, ((Router.routed (recording answer names) idx pattern params service req).run
      w).2 = ((service (Router.recordMatch pattern pathParams req)).run w).2 := by
  by_cases hparams : params.isEmpty
  · refine ⟨none, fun w ↦ ?_⟩
    rw [Router.routed, Router.pathParams, if_pos hparams]
    rfl
  · refine ⟨some ⟨List.zipWith (fun key p ↦ (key, percentDecode p.2))
      (names idx (params.map Prod.fst)) params⟩, fun w ↦ ?_⟩
    rw [Router.routed, Router.pathParams, if_neg hparams]
    rfl

variable {router : Router Hd (TargetRelay H E B Λ)} {req : Request H E B}

/-- A request without a route passes the layers of the router. -/
theorem passed_of_unmatched (h : router.matchRoute req.uri.path = none) :
    passed answer names router req = (router.layers.map Relay.label).reverse := by
  have hthrough : (Relay.through router.layers req).uri.path = req.uri.path :=
    congrArg Prod.fst (Relay.view_through router.layers req)
  rw [passed, Router.intoService, state_applyLayers_recording, List.nil_append, Router.dispatch,
    hthrough, h]
  rcases router.fallback with - | handler
  · rfl
  · rfl

/-- A request whose route has no handler for the method passes the layers for matched routes as
well. -/
theorem passed_of_mismatch {idx : ℕ}
    {entry : RouteEntry Hd (TargetRelay H E B Λ)}
    {params : List (Str × Str)} (h : router.matchRoute req.uri.path = some (idx, entry, params))
    (hhandler : entry.methodRouter.handlerFor req.method = none) :
    passed answer names router req =
      (router.layers.map Relay.label).reverse ++ (router.routeLayers.map Relay.label).reverse := by
  obtain ⟨hpath, hmethod⟩ := Prod.mk.inj (Relay.view_through router.layers req)
  obtain ⟨pathParams, hrouted⟩ := state_routed answer names idx entry.pattern params
    (applyLayers (recording answer names)
      (entry.methodRouter.clone.call (recording answer names)) router.routeLayers)
    (Relay.through router.layers req)
  rw [passed, Router.intoService, state_applyLayers_recording, List.nil_append,
    Router.dispatch_of_match (hpath ▸ h), hrouted, state_applyLayers_recording,
    MethodRouter.call_clone]
  have hinner : (Relay.through router.routeLayers (Router.recordMatch entry.pattern pathParams
      (Relay.through router.layers req))).method = req.method :=
    (congrArg Prod.snd (Relay.view_through router.routeLayers _)).trans
      ((Router.method_recordMatch _ _ _).trans hmethod)
  rw [hinner, hhandler]
  rfl

/-! ### The documented scopes -/

variable {tree : RouterTree Hd (TargetRelay H E B Λ)}

/-- Every layer of the tree has a label of its own, so that a label in a record tells which layer
was passed. -/
def DistinctLabels (tree : RouterTree Hd (TargetRelay H E B Λ)) : Prop :=
  ((tree.routers.flatMap scope).map Relay.label).Nodup

/-- No handler takes the request. -/
def Refused (router : Router Hd (TargetRelay H E B Λ)) (req : Request H E B) : Prop :=
  ∀ idx entry params, router.matchRoute req.uri.path = some (idx, entry, params) →
    entry.methodRouter.handlerFor req.method = none

/-- The layers see a refused request as documented: none that is for matched routes, each of the
outermost router, and each of the router that declares the route or the fallback. -/
structure ScopedAt (answer : Hd → Request H E B → Response H E B)
    (names : ℕ → List Str → List Str) (tree : RouterTree Hd (TargetRelay H E B Λ))
    (router : Router Hd (TargetRelay H E B Λ)) (req : Request H E B) : Prop where
  routeLayers : ∀ r ∈ tree.routers, ∀ l ∈ r.routeLayers, l.label ∉ passed answer names router req
  layers : ∀ l ∈ tree.layers, l.label ∈ passed answer names router req
  mismatch : ∀ idx entry params d, router.matchRoute req.uri.path = some (idx, entry, params) →
    tree.declared[idx]? = some d →
      ∀ l ∈ (tree.declaring d.enclosing).layers, l.label ∈ passed answer names router req
  fallback : router.matchRoute req.uri.path = none →
    ∀ handler enclosing, tree.adopted = some (handler, enclosing) →
      ∀ l ∈ (tree.declaring enclosing).layers, l.label ∈ passed answer names router req

/-- What was taken over was not declared in a router with layers. -/
def Unlayered (tree : RouterTree Hd (TargetRelay H E B Λ))
    (enclosing : List (Enclosure Hd (TargetRelay H E B Λ))) : Prop :=
  enclosing = [] ∨ (tree.declaring enclosing).layers = []

/-- No layer of the tree is out of place for this request: where it is refused for its method there
are no layers for matched routes, and no other router has layers around the refusal. -/
structure InPlace (tree : RouterTree Hd (TargetRelay H E B Λ))
    (router : Router Hd (TargetRelay H E B Λ)) (req : Request H E B) : Prop where
  mismatch : ∀ idx entry params d, router.matchRoute req.uri.path = some (idx, entry, params) →
    tree.declared[idx]? = some d → tree.routeLayers = [] ∧ tree.Unlayered d.enclosing
  fallback : router.matchRoute req.uri.path = none →
    ∀ handler enclosing, tree.adopted = some (handler, enclosing) → tree.Unlayered enclosing

section Labels

omit [MatchitLib] [Multimap H HeaderName HeaderValue] [Extensions E] [Extensions.Slot E PathParams]
  [Extensions.Slot E MatchedPathExt] [FromBytes B]

/-- The two kinds of layers of the outermost router have different labels. -/
theorem DistinctLabels.own (h : tree.DistinctLabels) {l l' : TargetRelay H E B Λ}
    (hl : l ∈ tree.routeLayers) (hl' : l' ∈ tree.layers) : l.label ≠ l'.label := by
  rw [DistinctLabels, routers, List.flatMap_cons, List.map_append, scope, List.map_append] at h
  have hscope := (List.nodup_append.1 h).1
  exact (List.nodup_append.1 hscope).2.2 _ (List.mem_map_of_mem hl) _ (List.mem_map_of_mem hl')

/-- The layers of the other routers have labels different from those of the outermost one. -/
theorem DistinctLabels.sub (h : tree.DistinctLabels) {r : RouterTree Hd (TargetRelay H E B Λ)}
    (hr : r ∈ tree.subRouters) {l l' : TargetRelay H E B Λ} (hl : l ∈ r.scope)
    (hl' : l' ∈ tree.scope) : l.label ≠ l'.label := by
  rw [DistinctLabels, routers, List.flatMap_cons, List.map_append] at h
  have hmem : l ∈ tree.subRouters.flatMap scope := List.mem_flatMap.2 ⟨r, hr, hl⟩
  exact ((List.nodup_append.1 h).2.2 _ (List.mem_map_of_mem hl') _
    (List.mem_map_of_mem hmem)).symm

/-- The declaring router sees what the outermost one sees only if it is that router, or has no
layers. -/
theorem forall_declaring_iff (hlabels : tree.DistinctLabels)
    {enclosing : List (Enclosure Hd (TargetRelay H E B Λ))}
    (henc : ∀ enclosure ∈ enclosing, enclosure.router ∈ tree.subRouters) {labels : List Λ}
    (hlayers : ∀ l ∈ tree.layers, l.label ∈ labels)
    (hscope : ∀ label ∈ labels, ∃ l ∈ tree.scope, l.label = label) :
    (∀ l ∈ (tree.declaring enclosing).layers, l.label ∈ labels) ↔ tree.Unlayered enclosing := by
  constructor
  · intro hall
    by_contra hlayered
    obtain ⟨hne, hne'⟩ := not_or.1 hlayered
    obtain ⟨l, hl⟩ := List.exists_mem_of_ne_nil _ hne'
    obtain ⟨l', hl', heq⟩ := hscope l.label (hall l hl)
    exact hlabels.sub (declaring_eq henc hne) (List.mem_append_right _ hl) hl' heq.symm
  · rintro (rfl | hnil) l hl
    · exact hlayers l hl
    · rw [hnil] at hl
      exact absurd hl List.not_mem_nil

end Labels

/-- Every layer of the outermost router sees a refused request. -/
theorem mem_passed_of_layers (hbuild : tree.build = some router) (hrefused : Refused router req) :
    ∀ l ∈ tree.layers, l.label ∈ passed answer names router req := by
  intro l hl
  have hmem : l.label ∈ (router.layers.map Relay.label).reverse := by
    rw [(represents_of_build hbuild).layers]
    exact List.mem_reverse.2 (List.mem_map_of_mem hl)
  rcases hmatch : router.matchRoute req.uri.path with - | ⟨idx, entry, params⟩
  · rw [passed_of_unmatched hmatch]
    exact hmem
  · rw [passed_of_mismatch hmatch (hrefused idx entry params hmatch)]
    exact List.mem_append_left _ hmem

/-- Only layers of the outermost router see a refused request. -/
theorem exists_of_mem_passed (hbuild : tree.build = some router) (hrefused : Refused router req) :
    ∀ label ∈ passed answer names router req, ∃ l ∈ tree.scope, l.label = label := by
  have hrep := represents_of_build hbuild
  intro label hlabel
  have hmem : label ∈ (router.routeLayers ++ router.layers).map Relay.label := by
    rw [List.map_append]
    rcases hmatch : router.matchRoute req.uri.path with - | ⟨idx, entry, params⟩
    · rw [passed_of_unmatched hmatch, List.mem_reverse] at hlabel
      exact List.mem_append_right _ hlabel
    · rw [passed_of_mismatch hmatch (hrefused idx entry params hmatch), List.mem_append,
        List.mem_reverse, List.mem_reverse] at hlabel
      exact List.mem_append.2 hlabel.symm
  rw [hrep.routeLayers, hrep.layers] at hmem
  exact List.mem_map.1 hmem

/-- **When the layers see a refusal as documented.** A refusal for the method also passes the
layers for matched routes of the outermost router, and no refusal passes a layer of a router that
was nested or merged. -/
theorem scopedAt_iff (hbuild : tree.build = some router) (hlabels : tree.DistinctLabels)
    (hrefused : Refused router req) :
    ScopedAt answer names tree router req ↔ InPlace tree router req := by
  have hlayers : ∀ l ∈ tree.layers, l.label ∈ passed answer names router req :=
    mem_passed_of_layers hbuild hrefused
  have hscope : ∀ label ∈ passed answer names router req, ∃ l ∈ tree.scope, l.label = label :=
    exists_of_mem_passed hbuild hrefused
  have hrep := represents_of_build hbuild
  refine ⟨fun h ↦ ⟨fun idx entry params d hmatch hd ↦ ⟨?_, ?_⟩,
      fun hmatch handler enclosing hf ↦ ?_⟩,
    fun h ↦ ⟨fun r hr l hl hmem ↦ ?_, hlayers, fun idx entry params d hmatch hd ↦ ?_,
      fun hmatch handler enclosing hf ↦ ?_⟩⟩
  · -- A layer for matched routes would have seen the refusal.
    by_contra hne
    obtain ⟨l, hl⟩ := List.exists_mem_of_ne_nil _ hne
    refine h.routeLayers tree List.mem_cons_self l hl ?_
    rw [passed_of_mismatch hmatch (hrefused idx entry params hmatch), hrep.routeLayers]
    exact List.mem_append_right _ (List.mem_reverse.2 (List.mem_map_of_mem hl))
  · exact (forall_declaring_iff hlabels (mem_subRouters_of_declared (List.mem_of_getElem? hd))
      hlayers hscope).1 (h.mismatch idx entry params d hmatch hd)
  · exact (forall_declaring_iff hlabels (mem_subRouters_of_adopted hf) hlayers hscope).1
      (h.fallback hmatch handler enclosing hf)
  · rcases List.mem_cons.1 hr with rfl | hr
    · rcases hmatch : router.matchRoute req.uri.path with - | ⟨idx, entry, params⟩
      · rw [passed_of_unmatched hmatch, hrep.layers, List.mem_reverse] at hmem
        obtain ⟨l', hl', heq⟩ := List.mem_map.1 hmem
        exact hlabels.own hl hl' heq.symm
      · obtain ⟨d, hd, -⟩ := exists_declared_of_match hbuild hmatch
        rw [(h.mismatch idx entry params d hmatch hd).1] at hl
        exact absurd hl List.not_mem_nil
    · obtain ⟨l', hl', heq⟩ := hscope _ hmem
      exact hlabels.sub hr (List.mem_append_left _ hl) hl' heq.symm
  · exact (forall_declaring_iff hlabels (mem_subRouters_of_declared (List.mem_of_getElem? hd))
      hlayers hscope).2 (h.mismatch idx entry params d hmatch hd).2
  · exact (forall_declaring_iff hlabels (mem_subRouters_of_adopted hf) hlayers hscope).2
      (h.fallback hmatch handler enclosing hf)

end Observation

/-! ### Two refusals -/

section Refusals

private abbrev MarkFields := AssocList HeaderName HeaderValue

private abbrev MarkExtensions := Option PathParams × Option MatchedPathExt

attribute [local instance] MatchitLib.list

/-- A relay that changes nothing. -/
private def mark (label : ℕ) : TargetRelay MarkFields MarkExtensions (Body MarkFields) ℕ where
  label := label
  onRequest := id
  onResponse _ response := response
  keeps _ := rfl

private def markedRequest (method : Method) (path : Str) :
    Request MarkFields MarkExtensions (Body MarkFields) :=
  .new ⟨method, { path }, Multimap.empty, Extensions.empty, Body.empty, .http11⟩

/-- Layers of both kinds on a router and on one nested in it. -/
private def layeredTree :
    RouterTree StatusCode (TargetRelay MarkFields MarkExtensions (Body MarkFields) ℕ) :=
  ((RouterTree.new.nest "/p".toList
    ((RouterTree.new.route "/a".toList (MethodRouter.new.on .get .ok)).layer (mark 0))).routeLayer
      (mark 1)).layer (mark 2)

theorem scopedAt_unmatched : ∃ router, layeredTree.build = some router ∧
    ScopedAt (fun code _ ↦ code.intoResponse) (fun _ names ↦ names) layeredTree router
      (markedRequest .get "/x".toList) := by
  obtain ⟨router, hbuild, hnone⟩ : ∃ router, layeredTree.build = some router ∧
      router.matchRoute (markedRequest .get "/x".toList).uri.path = none := ⟨_, rfl, rfl⟩
  refine ⟨router, hbuild, (scopedAt_iff hbuild (by unfold DistinctLabels; decide) ?_).2 ⟨?_, ?_⟩⟩
  · exact fun idx entry params h ↦ nomatch hnone.symm.trans h
  · exact fun idx entry params d h ↦ nomatch hnone.symm.trans h
  · exact fun _ handler enclosing h ↦ nomatch h

/-- A layer for matched routes sees the refusal of a method. -/
theorem not_scopedAt : ¬ ∀ router, layeredTree.build = some router → layeredTree.DistinctLabels →
    Refused router (markedRequest .post "/p/a".toList) →
      ScopedAt (fun code _ ↦ code.intoResponse) (fun _ names ↦ names) layeredTree router
        (markedRequest .post "/p/a".toList) := by
  intro h
  obtain ⟨router, hbuild, hmatch, hseen⟩ : ∃ router, layeredTree.build = some router ∧
      (router.matchRoute (markedRequest .post "/p/a".toList).uri.path).map (fun found ↦
        found.2.1.methodRouter.handlerFor .post) = some none ∧
      1 ∈ passed (fun (code : StatusCode) _ ↦ code.intoResponse) (fun _ names ↦ names) router
        (markedRequest .post "/p/a".toList) := ⟨_, rfl, rfl, by decide⟩
  have hrefused : Refused router (markedRequest .post "/p/a".toList) := by
    intro idx entry params hfound
    rw [hfound] at hmatch
    exact Option.some.inj hmatch
  have hscoped := h router hbuild (by unfold DistinctLabels; decide) hrefused
  exact hscoped.routeLayers layeredTree List.mem_cons_self (mark 1) List.mem_cons_self hseen

end Refusals

end RouterTree
