import Arvik.Core.Body
import Arvik.Router.Tree

/-!
# How nested and merged layers compose

The layers of a router end up in three places: folded into the method routers of the routes it takes
over, around the method routers, and around the whole router. `composesAt_of_keeps` says that
together they compose as the tree of routers reads: a handler is wrapped by the layers of its method
router, then by those of each router that encloses it, from the declaring one outwards.

Two things happen between the layers of the outermost router: its `layers` are around the choice of
the route, its `routeLayers` around the choice of the handler. A layer that changes the path or the
method there changes what is chosen (`not_composesAt`), so the law is about layers that keep them.
The layers of the other routers may do anything.

The proof moves the layers outwards one list at a time. Lists of layers around one another are one
list, and under layers that keep the path and the method a service may be replaced by one that
agrees with it at that path and method, which the choice of the route and of the handler is
(`call_flatten`).
-/

namespace RouterTree

section Enclosing

variable {Hd L : Type} {inner outer : List (Enclosure Hd L)} {enclosure : Enclosure Hd L}

/-- A route taken over once more is declared in the router it was taken over from, and in those
before. -/
private theorem mem_declared_of_within {d : Declared Hd L} (last : Enclosure Hd L)
    (hd : d ∈ last.router.declared)
    (ih : ∀ {outer}, d.enclosing = inner ++ enclosure :: outer →
      { d with enclosing := inner } ∈ enclosure.router.declared)
    (henc : (d.within last).enclosing = inner ++ enclosure :: outer) :
    { d with enclosing := inner } ∈ enclosure.router.declared := by
  rcases List.eq_nil_or_concat' outer with rfl | ⟨outer, last', rfl⟩
  · obtain ⟨hinner, hlast⟩ := List.append_inj' henc rfl
    rw [← hinner, ← (List.cons.inj hlast).1]
    exact hd
  · have hconcat : d.enclosing ++ [last] = (inner ++ enclosure :: outer) ++ [last'] :=
      henc.trans (by simp)
    exact ih (List.append_inj' hconcat rfl).1

/-- **A router encloses only routes that are declared in it.** -/
theorem mem_declared_of_enclosing {tree : RouterTree Hd L} {d : Declared Hd L}
    (hmem : d ∈ tree.declared) (henc : d.enclosing = inner ++ enclosure :: outer) :
    { d with enclosing := inner } ∈ enclosure.router.declared := by
  induction tree generalizing d outer with
  | new => exact absurd hmem List.not_mem_nil
  | route self path methodRouter ih =>
    rcases List.mem_append.1 hmem with hmem | hmem
    · exact ih hmem henc
    · obtain rfl := List.mem_singleton.1 hmem
      exact absurd henc (by simp)
  | routeLayer self l ih => exact ih hmem henc
  | layer self l ih => exact ih hmem henc
  | withFallback self handler ih => exact ih hmem henc
  | nest self pfx other ih ihOther =>
    rcases List.mem_append.1 hmem with hmem | hmem
    · exact ih hmem henc
    · obtain ⟨d, hd, rfl⟩ := List.mem_map.1 hmem
      exact mem_declared_of_within (d := d) ⟨some pfx, other⟩ hd (ihOther hd) henc
  | merge self other ih ihOther =>
    rcases List.mem_append.1 hmem with hmem | hmem
    · exact ih hmem henc
    · obtain ⟨d, hd, rfl⟩ := List.mem_map.1 hmem
      exact mem_declared_of_within (d := d) ⟨none, other⟩ hd (ihOther hd) henc

end Enclosing

section Law

variable [MatchitLib] {H E B : Type} {m : Type → Type} {Hd L : Type}
variable [Multimap H HeaderName HeaderValue] [Extensions E] [Extensions.Slot E PathParams]
variable [Extensions.Slot E MatchedPathExt] [FromBytes B] [Monad m]

/-- A handler inside the layers of its method router and of every router that encloses it, from
the inside out. What matched is recorded inside the layers of the outermost router. -/
def Declared.wrapped (rt : Runtime H E B m Hd L) (self : Declared Hd L) (tree : RouterTree Hd L)
    (idx : ℕ) (params : List (Str × Str)) (handler : Hd) : Service H E B m :=
  applyLayers rt (Router.routed rt idx self.pattern params
    (applyLayers rt (rt.handle handler)
      (self.methodRouter.layers ++ self.subLayers ++ tree.routeLayers))) tree.layers

/-- A match is a declared route, and if that route has a handler for the method, the response is
that of the wrapped handler. -/
def ComposesAt (rt : Runtime H E B m Hd L) (tree : RouterTree Hd L) (router : Router Hd L)
    (req : Request H E B) : Prop :=
  ∀ idx entry params, router.matchRoute req.uri.path = some (idx, entry, params) →
    ∃ d, tree.declared[idx]? = some d ∧ entry.pattern = d.pattern ∧
      ∀ handler, d.methodRouter.handlerFor req.method = some handler →
        router.intoService rt req = d.wrapped rt tree idx params handler req

variable {rt : Runtime H E B m Hd L} {tree : RouterTree Hd L} {router : Router Hd L}

omit [MatchitLib] [Extensions.Slot E PathParams] [Extensions.Slot E MatchedPathExt] in
/-- What the method router of a flattened route answers. -/
theorem call_flatten (rt : Runtime H E B m Hd L) (d : Declared Hd L) {req : Request H E B}
    {handler : Hd} (h : d.methodRouter.handlerFor req.method = some handler) :
    d.flatten.methodRouter.clone.call rt req =
      applyLayers rt (rt.handle handler) (d.methodRouter.layers ++ d.subLayers) req := by
  rw [MethodRouter.call_clone, Declared.flatten, MethodRouter.handlerFor_extendLayers, h,
    MethodRouter.layers_extendLayers]

/-- **The layers compose as the tree reads**: every enclosing router wraps the handler with its
layers for matched routes and then with its others, from the declaring one outwards; and it wraps
only what is declared in it. -/
theorem composesAt_of_keeps (hbuild : tree.build = some router) (req : Request H E B)
    (hlayers : ∀ l ∈ tree.layers, Layering.Keeps
      (fun req : Request H E B ↦ (req.uri.path, req.method)) (rt.layer l))
    (hrouteLayers : ∀ l ∈ tree.routeLayers, Layering.Keeps
      (fun req : Request H E B ↦ req.method) (rt.layer l)) :
    ComposesAt rt tree router req ∧
      ∀ d ∈ tree.declared, ∀ inner enclosure outer, d.enclosing = inner ++ enclosure :: outer →
        { d with enclosing := inner } ∈ enclosure.router.declared := by
  refine ⟨fun idx entry params hmatch ↦ ?_,
    fun d hd inner enclosure outer henc ↦ mem_declared_of_enclosing hd henc⟩
  have hrep := represents_of_build hbuild
  obtain ⟨d, hd, rfl⟩ := exists_declared_of_match hbuild hmatch
  refine ⟨d, hd, rfl, fun handler hhandler ↦ ?_⟩
  rw [Router.intoService, hrep.layers, Declared.wrapped, applyLayers, applyLayers]
  refine Layering.applyAll_congr hlayers fun req' hkey ↦ ?_
  obtain ⟨hpath, hmethod⟩ := Prod.mk.inj hkey
  rw [Router.dispatch_of_match (hpath ▸ hmatch), hrep.routeLayers]
  refine Router.routed_congr fun pathParams ↦ ?_
  rw [applyLayers, applyLayers, Layering.applyAll_append]
  refine Layering.applyAll_congr hrouteLayers fun req'' hkey' ↦ ?_
  have hmethod'' : req''.method = req.method := by
    rw [hkey', Router.method_recordMatch, hmethod]
  exact call_flatten rt d (hmethod'' ▸ hhandler)

end Law

/-! ### Layers that change the target -/

section Rewriting

private abbrev Fields := AssocList HeaderName HeaderValue

attribute [local instance] MatchitLib.list

/-- Handlers answer with a status, layers replace the target. -/
private def rewriting : Runtime Fields (Option PathParams × Option MatchedPathExt) (Body Fields) Id
    StatusCode Uri where
  handle code _ := code.intoResponse
  layer uri service req := service (req.withUri uri)
  getOrInit _ names := names

/-- A request for a path. -/
private def getRequest (path : Str) :
    Request Fields (Option PathParams × Option MatchedPathExt) (Body Fields) :=
  .new ⟨.get, { path }, Multimap.empty, Extensions.empty, Body.empty, .http11⟩

/-- A nested router may change the target, and so may the layers for matched routes. -/
private def nestedTree : RouterTree StatusCode Uri :=
  (RouterTree.new.nest "/p".toList
    ((RouterTree.new.route "/a".toList (.any .ok)).layer { path := "/b".toList })).routeLayer
      { path := "/c".toList }

theorem composesAt_nested : ∃ router, nestedTree.build = some router ∧
    ComposesAt rewriting nestedTree router (getRequest "/p/a".toList) :=
  ⟨_, rfl, (composesAt_of_keeps rfl _ (fun _ h ↦ absurd h List.not_mem_nil)
    fun uri _ _ _ req h ↦ h (req.withUri uri) rfl).1⟩

/-- Two routes, and a layer that leads from one to the other. -/
private def rewritingTree : RouterTree StatusCode Uri :=
  ((RouterTree.new.route "/a".toList (.any .ok)).route "/b".toList (.any .noContent)).layer
    { path := "/b".toList }

/-- A layer of the outermost router chooses another route. -/
theorem not_composesAt : ¬ ∀ router, rewritingTree.build = some router →
    ComposesAt rewriting rewritingTree router (getRequest "/a".toList) := by
  intro h
  obtain ⟨d, hd, -, hwrapped⟩ := h _ rfl 0 _ _ rfl
  obtain rfl := Option.some.inj hd
  have hcode := congrArg Response.status (hwrapped .ok rfl)
  exact absurd hcode (by decide)

end Rewriting

end RouterTree
