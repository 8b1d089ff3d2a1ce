import Arvik.Router.Router

/-!
# Trees of routers

How a router was put together: a tree whose nodes are the builder calls, a router that was nested or
merged being a subtree. Building the tree is what the program does (`build`). What the calls declare
is read off the tree without building anything: the layers of a router itself, each route with the
routers it was taken over from (`declared`), and the fallback (`adopted`).

`represents_of_build` connects the two: the routes of the router that is built are the declared
ones, flattened. The induction is on the tree, with one case for each call, and the work is in the
two calls that take over another router, which flatten routes that are flattened already
(`map_flatten_within`).

The results about routers are all stated over trees, because a built router has forgotten what they
are about: under which prefix a route was declared, and which layers are those of which router.
-/

/-- The builder calls a router comes from. -/
inductive RouterTree (Hd L : Type)
  | new
  | route (self : RouterTree Hd L) (path : Str) (methodRouter : MethodRouter Hd L)
  | routeLayer (self : RouterTree Hd L) (layer : L)
  | layer (self : RouterTree Hd L) (layer : L)
  | withFallback (self : RouterTree Hd L) (handler : Hd)
  | nest (self : RouterTree Hd L) (pfx : Str) (other : RouterTree Hd L)
  | merge (self other : RouterTree Hd L)

namespace RouterTree

variable {Hd L : Type}

/-- Make the calls, one of which may refuse. -/
def build [MatchitLib] : RouterTree Hd L → Option (Router Hd L)
  | new => some Router.new
  | route self path methodRouter => self.build.bind fun router ↦ router.route path methodRouter
  | routeLayer self l => self.build.map fun router ↦ router.routeLayer l
  | layer self l => self.build.map fun router ↦ router.layer l
  | withFallback self handler => self.build.map fun router ↦ router.withFallback handler
  | nest self pfx other => self.build.bind fun router ↦ other.build.bind (router.nest pfx)
  | merge self other => self.build.bind fun router ↦ other.build.bind router.merge

/-! ### What the calls declare -/

/-- The layers of the router itself, in the order of the calls. -/
def layers : RouterTree Hd L → List L
  | new => []
  | layer self l => self.layers ++ [l]
  | route self _ _ => self.layers
  | routeLayer self _ => self.layers
  | withFallback self _ => self.layers
  | nest self _ _ => self.layers
  | merge self _ => self.layers

/-- The layers of the router itself for matched routes, in the order of the calls. -/
def routeLayers : RouterTree Hd L → List L
  | new => []
  | routeLayer self l => self.routeLayers ++ [l]
  | route self _ _ => self.routeLayers
  | layer self _ => self.routeLayers
  | withFallback self _ => self.routeLayers
  | nest self _ _ => self.routeLayers
  | merge self _ => self.routeLayers

/-- The layers a router puts around its matched routes, from the inside out. -/
def scope (self : RouterTree Hd L) : List L :=
  self.routeLayers ++ self.layers

/-- A router whose routes were taken over, and the prefix under which they were, if any. -/
structure Enclosure (Hd L : Type) where
  pfx : Option Str
  router : RouterTree Hd L

/-- The pattern that a route of the enclosed router gets. -/
def Enclosure.pattern (enclosure : Enclosure Hd L) (path : Str) : Str :=
  match enclosure.pfx with
  | some pfx => Router.nestedPattern (Router.trimEndSlashes pfx) path
  | none => path

/-- A route as it was declared, and the routers it was taken over from, from the one that declares
it outwards. The outermost router is not among them. -/
structure Declared (Hd L : Type) where
  path : Str
  methodRouter : MethodRouter Hd L
  enclosing : List (Enclosure Hd L) := []

/-- The route taken over from one more router. -/
def Declared.within (self : Declared Hd L) (enclosure : Enclosure Hd L) : Declared Hd L :=
  { self with enclosing := self.enclosing ++ [enclosure] }

/-- The routes of a router. -/
def declared : RouterTree Hd L → List (Declared Hd L)
  | new => []
  | route self path methodRouter => self.declared ++ [{ path, methodRouter }]
  | routeLayer self _ => self.declared
  | layer self _ => self.declared
  | withFallback self _ => self.declared
  | nest self pfx other => self.declared ++ other.declared.map (·.within ⟨some pfx, other⟩)
  | merge self other => self.declared ++ other.declared.map (·.within ⟨none, other⟩)

/-- The fallback of a router, and the routers it was taken over from. -/
def adopted : RouterTree Hd L → Option (Hd × List (Enclosure Hd L))
  | new => none
  | route self _ _ => self.adopted
  | routeLayer self _ => self.adopted
  | layer self _ => self.adopted
  | withFallback _ handler => some (handler, [])
  | nest self _ _ => self.adopted
  | merge self other =>
    self.adopted.or (other.adopted.map fun p ↦ (p.1, p.2 ++ [⟨none, other⟩]))

namespace Declared

/-- The pattern under which the route is found. -/
def pattern (self : Declared Hd L) : Str :=
  self.enclosing.foldl (fun path enclosure ↦ enclosure.pattern path) self.path

/-- The layers of the routers the route was taken over from, from the inside out. -/
def subLayers (self : Declared Hd L) : List L :=
  self.enclosing.flatMap fun enclosure ↦ enclosure.router.scope

/-- The route as the outermost router holds it. -/
def flatten (self : Declared Hd L) : RouteEntry Hd L where
  pattern := self.pattern
  methodRouter := self.methodRouter.extendLayers self.subLayers

theorem pattern_within (self : Declared Hd L) (enclosure : Enclosure Hd L) :
    (self.within enclosure).pattern = enclosure.pattern self.pattern :=
  List.foldl_append

theorem flatten_within (self : Declared Hd L) (enclosure : Enclosure Hd L) :
    (self.within enclosure).flatten =
      ⟨enclosure.pattern self.pattern,
        self.flatten.methodRouter.extendLayers enclosure.router.scope⟩ := by
  have hlayers : (self.within enclosure).subLayers = self.subLayers ++ enclosure.router.scope := by
    rw [subLayers, within, List.flatMap_append, List.flatMap_singleton]
    rfl
  rw [flatten, pattern_within, hlayers]
  exact congrArg (RouteEntry.mk _) (MethodRouter.extendLayers_append _ _ _)

end Declared

/-! ### Building keeps what was declared -/

/-- A router holds exactly what a tree declares. -/
structure Represents [MatchitLib] (router : Router Hd L) (tree : RouterTree Hd L) : Prop where
  layers : router.layers = tree.layers
  routeLayers : router.routeLayers = tree.routeLayers
  routes : router.routes = tree.declared.map Declared.flatten
  fallback : router.fallback = tree.adopted.map Prod.fst

variable [MatchitLib]

/-- A router after a route was added. -/
theorem represents_route {router router' : Router Hd L} {tree : RouterTree Hd L} {path : Str}
    {methodRouter : MethodRouter Hd L} (h : Represents router tree)
    (hroute : router.route path methodRouter = some router') :
    Represents router' (tree.route path methodRouter) := by
  obtain ⟨hroutes, hfallback, hlayers, hrouteLayers⟩ := Router.route_eq_some hroute
  exact {
    layers := hlayers.trans h.layers
    routeLayers := hrouteLayers.trans h.routeLayers
    routes := by
      rw [hroutes, h.routes, declared, List.map_append]
      rfl
    fallback := hfallback.trans h.fallback }

omit [MatchitLib] in
/-- Taking over flattened routes is flattening the routes taken over. -/
theorem map_flatten_within (enclosure : Enclosure Hd L) (routes : List (Declared Hd L)) :
    (routes.map Declared.flatten).map (fun entry ↦
        (⟨enclosure.pattern entry.pattern,
          entry.methodRouter.extendLayers enclosure.router.scope⟩ : RouteEntry Hd L)) =
      (routes.map (·.within enclosure)).map Declared.flatten := by
  rw [List.map_map, List.map_map]
  exact List.map_congr_left fun d _ ↦ (d.flatten_within enclosure).symm

/-- **A router that is built holds what its tree declares.** By induction on the tree, with one case
for each call of the builder. -/
theorem represents_of_build {tree : RouterTree Hd L} {router : Router Hd L}
    (h : tree.build = some router) : Represents router tree := by
  induction tree generalizing router with
  | new =>
    obtain rfl := Option.some.inj h
    exact ⟨rfl, rfl, rfl, rfl⟩
  | route self path methodRouter ih =>
    obtain ⟨base, hbase, hroute⟩ := Option.bind_eq_some_iff.1 h
    exact represents_route (ih hbase) hroute
  | routeLayer self l ih =>
    obtain ⟨base, hbase, rfl⟩ := Option.map_eq_some_iff.1 h
    have hrep := ih hbase
    exact ⟨hrep.layers, congrArg (· ++ [l]) hrep.routeLayers, hrep.routes, hrep.fallback⟩
  | layer self l ih =>
    obtain ⟨base, hbase, rfl⟩ := Option.map_eq_some_iff.1 h
    have hrep := ih hbase
    exact ⟨congrArg (· ++ [l]) hrep.layers, hrep.routeLayers, hrep.routes, hrep.fallback⟩
  | withFallback self handler ih =>
    obtain ⟨base, hbase, rfl⟩ := Option.map_eq_some_iff.1 h
    have hrep := ih hbase
    exact ⟨hrep.layers, hrep.routeLayers, hrep.routes, rfl⟩
  | nest self pfx other ih ihOther =>
    obtain ⟨base, hbase, hrest⟩ := Option.bind_eq_some_iff.1 h
    obtain ⟨sub, hsub, hnest⟩ := Option.bind_eq_some_iff.1 hrest
    have hrep := ih hbase
    have hrepSub := ihOther hsub
    rw [Router.nest] at hnest
    split at hnest
    · exact nomatch hnest
    · -- The nested routes keep their own layers and get none of the outer router.
      obtain ⟨hroutes, hfallback, hlayers, hrouteLayers⟩ := Router.adopt_eq_some hnest
      refine ⟨hlayers.trans hrep.layers, hrouteLayers.trans hrep.routeLayers, ?_,
        hfallback.trans hrep.fallback⟩
      rw [hroutes, hrep.routes, hrepSub.routes, hrepSub.layers, hrepSub.routeLayers, declared,
        List.map_append]
      exact congrArg (_ ++ ·) (map_flatten_within ⟨some pfx, other⟩ other.declared)
  | merge self other ih ihOther =>
    obtain ⟨base, hbase, hrest⟩ := Option.bind_eq_some_iff.1 h
    obtain ⟨sub, hsub, hmerge⟩ := Option.bind_eq_some_iff.1 hrest
    have hrep := ih hbase
    have hrepSub := ihOther hsub
    obtain ⟨merged, hadopt, rfl⟩ := Option.map_eq_some_iff.1 hmerge
    obtain ⟨hroutes, hfallback, hlayers, hrouteLayers⟩ := Router.adopt_eq_some hadopt
    refine ⟨hlayers.trans hrep.layers, hrouteLayers.trans hrep.routeLayers, ?_, ?_⟩
    · show merged.routes = _
      rw [hroutes, hrep.routes, hrepSub.routes, hrepSub.layers, hrepSub.routeLayers, declared,
        List.map_append]
      exact congrArg (_ ++ ·) (map_flatten_within ⟨none, other⟩ other.declared)
    · -- The fallback of the merged router counts only if there was none.
      show merged.fallback.or sub.fallback = _
      rw [hfallback, hrep.fallback, hrepSub.fallback, adopted]
      rcases self.adopted with - | p
      · rcases other.adopted with - | q
        · rfl
        · rfl
      · rfl

/-- A match is a declared route. -/
theorem exists_declared_of_match {tree : RouterTree Hd L} {router : Router Hd L}
    (hbuild : tree.build = some router) {path : Str} {idx : ℕ} {entry : RouteEntry Hd L}
    {params : List (Str × Str)}
    (hmatch : router.matchRoute path = some (idx, entry, params)) :
    ∃ d, tree.declared[idx]? = some d ∧ entry = d.flatten := by
  have hentry := (Router.matchRoute_eq_some_iff.1 hmatch).2
  rw [(represents_of_build hbuild).routes, List.getElem?_map] at hentry
  obtain ⟨d, hd, rfl⟩ := Option.map_eq_some_iff.1 hentry
  exact ⟨d, hd, rfl⟩

end RouterTree
