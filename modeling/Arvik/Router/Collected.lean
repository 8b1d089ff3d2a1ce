import Arvik.Core.Body
import Arvik.Foundation.Admission
import Arvik.Router.MethodUnion
import Mathlib.Data.List.Induction
import Mathlib.Data.List.Pairwise

/-!
# Collected routes

Route macros emit the path and the methods of every handler. When handlers are collected, their
routes are compared in pairs at compile time, by the text of the paths; at startup they are added to
a router one after the other. A handler for a path that is there is merged into its method router,
which refuses a method that is taken; a handler for a new path makes a route, which the matcher may
refuse.

## Two notions of conflict

Compile time knows one of the two only: it compares texts, and the matcher compares patterns. So
the result is relative to what the matcher does with the declared paths, each once and in the order
in which they come up first (`declaredPaths`). `decides_collect` says what becomes of a collection
for any matcher: a router that `Collects` the handlers, or else two handlers `Clash` or the matcher
refuses a path. It is an induction on the end of the list (`Admission.decides_foldlM`), with one
lemma for each of the two ways a handler is added.

`collect_spec` reads this off against the compile-time count. What the laws of the matcher add is
that paths which differ in names only are refused, and that a request path which a declared path
matches is given to it where it precedes the others. A declared path without parameters is so
whatever else is declared.
-/

/-- What a route macro emits for a handler. -/
structure RouteMeta where
  path : Str
  methodMask : UInt16
  deriving DecidableEq

/-- Compare two texts byte by byte. -/
def strEq (left right : Str) : Bool :=
  let left := Text.utf8 left
  let right := Text.utf8 right
  if left.length ≠ right.length then false
  else (left.zip right).all fun p ↦ p.1 = p.2

/-- One if two of the routes have the same path and a method in common, and else zero. -/
def routeConflictCount : List RouteMeta → ℕ
  | [] => 0
  | route :: routes =>
    if routes.any fun other ↦
        strEq route.path other.path && (route.methodMask &&& other.methodMask) != 0 then 1
    else routeConflictCount routes

theorem all_zip_eq_iff {left right : Bytes} (h : left.length = right.length) :
    (left.zip right).all (fun p ↦ p.1 = p.2) ↔ left = right := by
  induction left generalizing right with
  | nil => simp [List.eq_nil_of_length_eq_zero h.symm]
  | cons a left ih =>
    rcases right with - | ⟨b, right⟩
    · exact absurd h (Nat.succ_ne_zero _)
    · rw [List.zip_cons_cons, List.all_cons, Bool.and_eq_true, decide_eq_true_iff,
        ih (Nat.succ.inj h), List.cons.injEq]

theorem strEq_iff {left right : Str} : strEq left right ↔ left = right := by
  rw [strEq]
  split_ifs with hlength
  · refine iff_of_false not_false ?_
    rintro rfl
    exact hlength rfl
  · exact (all_zip_eq_iff (not_not.1 hlength)).trans Text.utf8_injective.eq_iff

/-- The compile-time check finds no pair with the same path and a method in common. -/
theorem routeConflictCount_eq_zero_iff {routes : List RouteMeta} :
    routeConflictCount routes = 0 ↔ routes.Pairwise fun route other ↦
      ¬ (route.path = other.path ∧ route.methodMask &&& other.methodMask ≠ 0) := by
  induction routes with
  | nil => simp [routeConflictCount]
  | cons route routes ih =>
    rw [routeConflictCount, List.pairwise_cons]
    split_ifs with hany
    · obtain ⟨other, hmem, hother⟩ := List.any_eq_true.1 hany
      rw [Bool.and_eq_true, strEq_iff, bne_iff_ne] at hother
      exact iff_of_false not_false fun h ↦ h.1 other hmem hother
    · refine ih.trans (iff_and_self.2 fun _ other hmem hother ↦ ?_)
      refine hany (List.any_eq_true.2 ⟨other, hmem, ?_⟩)
      rwa [Bool.and_eq_true, strEq_iff, bne_iff_ne]

namespace Router

open RoutePattern

/-! ### The handlers for a path -/

section MethodRouterAt

variable {Hd L : Type}

/-- The method router of the handlers for a path. -/
def methodRouterAt (routes : List (RouteMeta × Hd)) (path : Str) : MethodRouter Hd L :=
  (routes.filter fun p ↦ p.1.path = path).foldl
    (fun methodRouter p ↦ methodRouter.on ⟨p.1.methodMask⟩ p.2) .new

theorem methodRouterAt_append (routes : List (RouteMeta × Hd)) (p : RouteMeta × Hd) (path : Str) :
    (methodRouterAt (routes ++ [p]) path : MethodRouter Hd L) =
      if p.1.path = path then (methodRouterAt routes path).on ⟨p.1.methodMask⟩ p.2
      else methodRouterAt routes path := by
  rw [methodRouterAt, List.filter_append, List.foldl_append]
  split_ifs with hpath
  · have hfilter : [p].filter (fun p ↦ decide (p.1.path = path)) = [p] := by simp [hpath]
    rw [hfilter]
    rfl
  · have hfilter : [p].filter (fun p ↦ decide (p.1.path = path)) = [] := by simp [hpath]
    rw [hfilter]
    rfl

theorem methodRouterAt_eq_new {routes : List (RouteMeta × Hd)} {path : Str}
    (h : ∀ p ∈ routes, p.1.path ≠ path) :
    (methodRouterAt routes path : MethodRouter Hd L) = .new := by
  have hnil : routes.filter (fun p ↦ p.1.path = path) = [] :=
    List.filter_eq_nil_iff.2 fun p hp ↦ by simpa using h p hp
  rw [methodRouterAt, hnil]
  rfl

theorem or_and_eq_zero_iff {a b mask : UInt16} :
    (a ||| b) &&& mask = 0 ↔ a &&& mask = 0 ∧ b &&& mask = 0 := by
  have hdistrib : (a ||| b) &&& mask = a &&& mask ||| b &&& mask := by
    rw [← UInt16.toBitVec_inj]
    simp only [UInt16.toBitVec_and, UInt16.toBitVec_or, BitVec.and_or_distrib_right]
  rw [hdistrib, UInt16.or_eq_zero_iff]

/-- The methods of the handlers for a path. -/
theorem bits_methodRouterAt_and_eq_zero_iff (routes : List (RouteMeta × Hd)) (path : Str)
    (mask : UInt16) :
    (methodRouterAt routes path : MethodRouter Hd L).allowMethods.bits &&& mask = 0 ↔
      ∀ p ∈ routes, p.1.path = path → p.1.methodMask &&& mask = 0 := by
  induction routes using List.reverseRecOn with
  | nil => exact iff_of_true UInt16.zero_and fun _ h ↦ absurd h List.not_mem_nil
  | append_singleton routes p ih =>
    rw [methodRouterAt_append, List.forall_mem_append, List.forall_mem_singleton, ← ih]
    split_ifs with hpath
    · exact or_and_eq_zero_iff.trans (and_congr_right fun _ ↦ (imp_iff_right hpath).symm)
    · exact (and_iff_left fun h ↦ absurd h hpath).symm

/-- No layers are around them, and their state is not bound. -/
theorem plain_methodRouterAt (routes : List (RouteMeta × Hd)) (path : Str) :
    (methodRouterAt routes path : MethodRouter Hd L).Built ∧
      (methodRouterAt routes path : MethodRouter Hd L).layers = [] ∧
      (methodRouterAt routes path : MethodRouter Hd L).bakeable = false := by
  induction routes using List.reverseRecOn with
  | nil => exact ⟨.new, rfl, rfl⟩
  | append_singleton routes p ih =>
    rw [methodRouterAt_append]
    split_ifs
    · exact ⟨.on _ _ ih.1, ih.2.1, ih.2.2⟩
    · exact ih

/-- Merging one handler is adding it. -/
theorem merge_on {methodRouter : MethodRouter Hd L} (hbakeable : methodRouter.bakeable = false)
    (filter : MethodFilter) (handler : Hd) :
    methodRouter.merge (MethodRouter.new.on filter handler) =
      if methodRouter.allowMethods.bits &&& filter.bits ≠ 0 then none
      else some (methodRouter.on filter handler) := by
  have hfilter : MethodFilter.none.union filter = filter :=
    congrArg MethodFilter.mk UInt16.zero_or
  rw [MethodRouter.merge, MethodRouter.on, MethodRouter.on]
  simp only [MethodRouter.new, hfilter, List.nil_append, List.append_nil, hbakeable]

theorem mem_handlers_methodRouterAt {routes : List (RouteMeta × Hd)} {path : Str}
    {h : MethodFilter × Hd} :
    h ∈ (methodRouterAt routes path : MethodRouter Hd L).handlers ↔
      ∃ p ∈ routes, p.1.path = path ∧ (⟨p.1.methodMask⟩, p.2) = h := by
  induction routes using List.reverseRecOn with
  | nil => exact iff_of_false List.not_mem_nil fun ⟨_, hp, _⟩ ↦ List.not_mem_nil hp
  | append_singleton routes p ih =>
    rw [methodRouterAt_append]
    simp only [List.mem_append, List.mem_singleton, or_and_right, exists_or, exists_eq_left, ← ih]
    split_ifs with hpath
    · rw [MethodRouter.on, List.mem_append, List.mem_singleton, eq_comm (a := h)]
      exact or_congr_right (iff_and_self.2 fun _ ↦ hpath)
    · exact (or_iff_left fun hp ↦ hpath hp.1).symm

/-- The handler of a collection answers for its path and methods. -/
theorem handlerFor_methodRouterAt {routes : List (RouteMeta × Hd)}
    (hroutes : routes.Pairwise fun p q ↦
      ¬ (p.1.path = q.1.path ∧ p.1.methodMask &&& q.1.methodMask ≠ 0))
    {p : RouteMeta × Hd} (hp : p ∈ routes) {method : Method}
    (hmethod : (MethodFilter.mk p.1.methodMask).contains (.fromMethod method)) :
    (methodRouterAt routes p.1.path : MethodRouter Hd L).handlerFor method = some p.2 := by
  have hsound := (plain_methodRouterAt (L := L) routes p.1.path).1.sound
  have hdeclares : (methodRouterAt routes p.1.path : MethodRouter Hd L).declares method := by
    rw [hsound.declares]
    exact List.any_eq_true.2 ⟨_, mem_handlers_methodRouterAt.2 ⟨p, hp, rfl, rfl⟩, hmethod⟩
  obtain ⟨found, hfound⟩ := Option.isSome_iff_exists.1 (hsound.find?_isSome hdeclares)
  obtain ⟨q, hq, hpath, rfl⟩ := mem_handlers_methodRouterAt.1 (List.mem_of_find?_eq_some hfound)
  have hcontains := List.find?_some hfound
  -- two handlers with the path and the method would conflict
  have hsame : p = q := by
    by_contra hne
    have hsymm : Std.Symm fun p q : RouteMeta × Hd ↦
        ¬ (p.1.path = q.1.path ∧ p.1.methodMask &&& q.1.methodMask ≠ 0) :=
      ⟨fun p q h ⟨hpath, hmask⟩ ↦ h ⟨hpath.symm, by rwa [UInt16.and_comm]⟩⟩
    refine hroutes.forall hp hq hne ⟨hpath.symm, fun hmask ↦ ?_⟩
    have hnot : (MethodFilter.mk q.1.methodMask).contains (.fromMethod method) = false :=
      MethodFilter.not_contains_of_disjoint hmask hmethod
    exact Bool.false_ne_true (hnot.symm.trans hcontains)
  rw [MethodRouter.handlerFor_of_declares hdeclares, hfound, hsame]
  rfl

end MethodRouterAt

section Collect

variable [MatchitLib] {Hd L : Type}

/-- Add collected handlers to a router, one after the other. -/
def collectFrom (self : Router Hd L) (routes : List (RouteMeta × Hd)) : Option (Router Hd L) :=
  routes.foldlM (fun router p ↦
    router.routeCollected p.1.path (MethodRouter.new.on ⟨p.1.methodMask⟩ p.2)) self

/-- The router of collected handlers. -/
def collect (routes : List (RouteMeta × Hd)) : Option (Router Hd L) :=
  collectFrom new routes

/-- Two collected handlers of one path that have a method in common. -/
def Clash (p q : RouteMeta × Hd) : Prop :=
  p.1.path = q.1.path ∧ p.1.methodMask &&& q.1.methodMask ≠ 0

/-- The paths of collected handlers, each once, in the order in which they come up first. -/
def declaredPaths (routes : List (RouteMeta × Hd)) : List Str :=
  (routes.map fun p ↦ p.1.path).eraseDups

/-- A router of collected handlers has a route for each path, with the handlers for it. -/
structure Collects (router : Router Hd L) (routes : List (RouteMeta × Hd)) : Prop where
  methodRouters : ∀ entry ∈ router.routes,
    entry.methodRouter = methodRouterAt routes entry.pattern
  patterns : router.routes.map RouteEntry.pattern = declaredPaths routes
  routeLayers : router.routeLayers = []
  /-- No two handlers of one path share a method. -/
  apart : routes.Pairwise fun p q ↦ ¬ Clash p q

/-- Collected handlers that no router has: two of them clash, or the matcher refuses a path. -/
def Refused (routes : List (RouteMeta × Hd)) : Prop :=
  (¬ routes.Pairwise fun p q ↦ ¬ Clash p q) ∨ MatchitLib.insertAll (declaredPaths routes) = none

/-! ### Adding a handler -/

variable {router : Router Hd L} {routes : List (RouteMeta × Hd)} {p : RouteMeta × Hd}

omit [MatchitLib] in
theorem mem_declaredPaths {path : Str} :
    path ∈ declaredPaths routes ↔ ∃ p ∈ routes, p.1.path = path := by
  rw [declaredPaths, List.mem_eraseDups, List.mem_map]

omit [MatchitLib] in
/-- A path that came up before is not counted again. -/
theorem declaredPaths_concat (routes : List (RouteMeta × Hd)) (p : RouteMeta × Hd) :
    declaredPaths (routes ++ [p]) = if p.1.path ∈ declaredPaths routes then declaredPaths routes
      else declaredPaths routes ++ [p.1.path] := by
  have hmem : p.1.path ∈ declaredPaths routes ↔ p.1.path ∈ routes.map fun p ↦ p.1.path :=
    List.mem_eraseDups
  rw [declaredPaths, List.map_append, List.eraseDups_append, List.map_singleton]
  split_ifs with hpath
  · have hnil : [p.1.path].removeAll (routes.map fun p ↦ p.1.path) = [] := by
      simpa [List.removeAll] using hmem.1 hpath
    rw [hnil]
    exact List.append_nil _
  · have hone : [p.1.path].removeAll (routes.map fun p ↦ p.1.path) = [p.1.path] := by
      simpa [List.removeAll] using hpath ∘ hmem.2
    rw [hone]
    rfl

omit [MatchitLib] in
theorem pairwise_concat_iff :
    (routes ++ [p]).Pairwise (fun p q ↦ ¬ Clash p q) ↔
      routes.Pairwise (fun p q ↦ ¬ Clash p q) ∧ ∀ q ∈ routes, ¬ Clash q p := by
  rw [List.pairwise_append]
  simp

/-- More handlers do not help. -/
theorem Refused.concat (p : RouteMeta × Hd) (h : Refused routes) : Refused (routes ++ [p]) := by
  rcases h with hclash | hinsert
  · exact .inl fun h ↦ hclash (pairwise_concat_iff.1 h).1
  · right
    rw [declaredPaths_concat]
    split_ifs
    · exact hinsert
    · rw [MatchitLib.insertAll_concat, hinsert]
      rfl

omit [MatchitLib] in
/-- A further handler of a path clashes with an earlier one if it shares a method with them. -/
theorem forall_not_clash_iff (routes : List (RouteMeta × Hd)) (p : RouteMeta × Hd) :
    (∀ q ∈ routes, ¬ Clash q p) ↔
      (methodRouterAt routes p.1.path : MethodRouter Hd L).allowMethods.bits &&&
        p.1.methodMask = 0 := by
  rw [bits_methodRouterAt_and_eq_zero_iff]
  exact forall₂_congr fun q _ ↦ not_and_not_right

theorem collects_new : Collects (new : Router Hd L) ([] : List (RouteMeta × Hd)) where
  methodRouters _ h := absurd h List.not_mem_nil
  patterns := rfl
  routeLayers := rfl
  apart := .nil

omit [MatchitLib] in
theorem nodup_declaredPaths (routes : List (RouteMeta × Hd)) : (declaredPaths routes).Nodup := by
  induction routes using List.reverseRecOn with
  | nil => exact List.nodup_nil
  | append_singleton routes p ih =>
    rw [declaredPaths_concat]
    split_ifs with hpath
    · exact ih
    · refine List.nodup_append'.2 ⟨ih, List.nodup_singleton _, fun path hmem hlast ↦ hpath ?_⟩
      rwa [← List.mem_singleton.1 hlast]

theorem Collects.nodup (h : Collects router routes) :
    (router.routes.map RouteEntry.pattern).Nodup :=
  h.patterns ▸ nodup_declaredPaths routes

/-- The trie of a router of collected handlers is that of their paths. -/
theorem Collects.insertAll_eq (h : Collects router routes) :
    MatchitLib.insertAll (declaredPaths routes) = some router.trie :=
  h.patterns ▸ MatchitLib.insertAll_eq_some_iff.2 router.numbered

theorem Collects.setMethodRouter (h : Collects router routes) {idx : ℕ} {entry : RouteEntry Hd L}
    (hentry : router.routes[idx]? = some entry) (hpattern : entry.pattern = p.1.path)
    (hclash : ∀ q ∈ routes, ¬ Clash q p) :
    Collects (router.setMethodRouter idx (entry.methodRouter.on ⟨p.1.methodMask⟩ p.2))
      (routes ++ [p]) := by
  have hpatterns : (router.setMethodRouter idx
      (entry.methodRouter.on ⟨p.1.methodMask⟩ p.2)).routes.map RouteEntry.pattern =
        router.routes.map RouteEntry.pattern := map_pattern_modify _ _ _
  have hpath : p.1.path ∈ declaredPaths routes := by
    rw [← h.patterns, ← hpattern]
    exact List.mem_map_of_mem (List.mem_of_getElem? hentry)
  refine ⟨fun entry' hmem ↦ ?_, ?_, h.routeLayers, pairwise_concat_iff.2 ⟨h.apart, hclash⟩⟩
  · obtain ⟨j, hj⟩ := List.mem_iff_getElem?.1 hmem
    rw [getElem?_setMethodRouter] at hj
    obtain ⟨old, hold, rfl⟩ := Option.map_eq_some_iff.1 hj
    rw [methodRouterAt_append]
    split_ifs with hij hsame hsame
    · obtain rfl := Option.some.inj ((hij ▸ hentry).symm.trans hold)
      exact congrArg (fun methodRouter : MethodRouter Hd L ↦
        methodRouter.on ⟨p.1.methodMask⟩ p.2) (h.methodRouters entry (List.mem_of_getElem? hentry))
    · obtain rfl := Option.some.inj ((hij ▸ hentry).symm.trans hold)
      exact absurd hpattern.symm hsame
    · -- Two entries of one pattern would be the same entry.
      have hat : (router.routes.map RouteEntry.pattern)[idx]? =
          (router.routes.map RouteEntry.pattern)[j]? := by
        rw [List.getElem?_map, List.getElem?_map, hentry, hold]
        exact congrArg some (hpattern.trans hsame)
      obtain ⟨hlt, -⟩ := List.getElem?_eq_some_iff.1 hentry
      exact absurd ((List.getElem?_inj (by rwa [List.length_map]) h.nodup).1 hat) hij
    · exact h.methodRouters old (List.mem_of_getElem? hold)
  · rw [hpatterns, h.patterns, declaredPaths_concat, if_pos hpath]

/-- A handler for a path that is there. -/
theorem Collects.decides_merge (h : Collects router routes) {idx : ℕ}
    (hidx : router.routes.findIdx? (fun entry ↦ entry.pattern = p.1.path) = some idx) :
    Admission.Decides Collects Refused (routes ++ [p])
      (router.routeCollected p.1.path (MethodRouter.new.on ⟨p.1.methodMask⟩ p.2)) := by
  obtain ⟨hlt, hpattern, -⟩ := List.findIdx?_eq_some_iff_getElem.1 hidx
  have hentry := List.getElem?_eq_getElem hlt
  have hpattern := of_decide_eq_true hpattern
  generalize router.routes[idx] = entry at hentry hpattern
  have hmethodRouter := h.methodRouters entry (List.mem_of_getElem? hentry)
  rw [hpattern] at hmethodRouter
  have hmerge := merge_on (plain_methodRouterAt (L := L) routes p.1.path).2.2 ⟨p.1.methodMask⟩ p.2
  rw [← hmethodRouter] at hmerge
  have hclash := forall_not_clash_iff (L := L) routes p
  rw [← hmethodRouter] at hclash
  rw [routeCollected_eq_map hidx hentry, hmerge]
  split_ifs with hbits
  · exact .inl fun hpairwise ↦ hbits (hclash.1 (pairwise_concat_iff.1 hpairwise).2)
  · exact h.setMethodRouter hentry hpattern (hclash.2 (not_not.1 hbits))

/-- A handler for a new path: the matcher decides. -/
theorem Collects.decides_route (h : Collects router routes)
    (hidx : router.routes.findIdx? (fun entry ↦ entry.pattern = p.1.path) = none) :
    Admission.Decides Collects Refused (routes ++ [p])
      (router.routeCollected p.1.path (MethodRouter.new.on ⟨p.1.methodMask⟩ p.2)) := by
  have hpath : p.1.path ∉ declaredPaths routes := by
    rw [← h.patterns]
    intro hmem
    obtain ⟨entry, hentry, hpattern⟩ := List.mem_map.1 hmem
    exact of_decide_eq_false (List.findIdx?_eq_none_iff.1 hidx entry hentry) hpattern
  have hnew : ∀ q ∈ routes, q.1.path ≠ p.1.path :=
    fun q hq hqpath ↦ hpath (mem_declaredPaths.2 ⟨q, hq, hqpath⟩)
  have hpaths : declaredPaths (routes ++ [p]) = declaredPaths routes ++ [p.1.path] := by
    rw [declaredPaths_concat, if_neg hpath]
  rw [routeCollected, hidx]
  rcases hroute : router.route p.1.path (MethodRouter.new.on ⟨p.1.methodMask⟩ p.2)
    with - | router'
  · right
    rw [hpaths, MatchitLib.insertAll_concat, h.insertAll_eq, Option.bind_some, ← h.patterns,
      List.length_map]
    exact route_eq_none_iff.1 hroute
  · obtain ⟨hroutes, -, -, hrouteLayers⟩ := route_eq_some hroute
    refine ⟨fun entry hmem ↦ ?_, ?_, hrouteLayers.trans h.routeLayers,
      pairwise_concat_iff.2 ⟨h.apart, fun q hq hclash ↦ hnew q hq hclash.1⟩⟩
    · rw [hroutes] at hmem
      rw [methodRouterAt_append]
      rcases List.mem_append.1 hmem with hmem | hmem
      · obtain ⟨q, hq, hpattern⟩ :=
          mem_declaredPaths.1 (h.patterns ▸ List.mem_map_of_mem (f := RouteEntry.pattern) hmem)
        -- The pattern of an old entry is not that of the new route.
        rw [if_neg fun hsame ↦ hnew q hq (hpattern.trans hsame.symm)]
        exact h.methodRouters entry hmem
      · -- The new entry starts from an empty method router, as no route had its path.
        rw [List.mem_singleton.1 hmem, if_pos rfl, methodRouterAt_eq_new hnew]
    · rw [hroutes, List.map_append, h.patterns, hpaths]
      rfl

/-! ### Collections -/

/-- **What becomes of a collection**: it is a router with a route for each path, or two handlers
clash, or the matcher refuses a path. -/
theorem decides_collect (routes : List (RouteMeta × Hd)) :
    Admission.Decides Collects Refused routes (collect routes : Option (Router Hd L)) := by
  refine Admission.decides_foldlM (fun router routes p h ↦ ?_) (fun _ p h ↦ h.concat p)
    collects_new routes
  rcases hidx : router.routes.findIdx? fun entry ↦ entry.pattern = p.1.path with - | idx
  · exact h.decides_route hidx
  · exact h.decides_merge hidx

theorem collects_of_collect (h : collect routes = some router) : Collects router routes := by
  have hdecides := decides_collect (L := L) routes
  rwa [h] at hdecides

theorem collect_eq_none_iff :
    (collect routes : Option (Router Hd L)) = none ↔ Refused routes := by
  have hdecides := decides_collect (L := L) routes
  rcases hcollect : (collect routes : Option (Router Hd L)) with - | router
  · rw [hcollect] at hdecides
    exact iff_of_true rfl hdecides
  · rw [hcollect] at hdecides
    refine iff_of_false nofun ?_
    rintro (hclash | hinsert)
    · exact hclash hdecides.apart
    · exact nomatch hdecides.insertAll_eq.symm.trans hinsert

omit [MatchitLib] in
theorem pairwise_iff_routeConflictCount :
    routes.Pairwise (fun p q ↦ ¬ Clash p q) ↔ routeConflictCount (routes.map Prod.fst) = 0 :=
  List.pairwise_map.symm.trans routeConflictCount_eq_zero_iff.symm

/-- Requests for the path and the methods of a collected handler are dispatched to it, unless
another declared path leads the request away or comes before it. -/
structure Dispatches (H E B : Type) [Multimap H HeaderName HeaderValue] [Extensions E]
    [Extensions.Slot E PathParams] [Extensions.Slot E MatchedPathExt] [FromBytes B]
    (router : Router Hd L) (routes : List (RouteMeta × Hd)) (p : RouteMeta × Hd) : Prop where
  /-- A request that the matcher gives to the route of the path reaches the handler. -/
  dispatch : ∀ (m : Type → Type) [Monad m] (rt : Runtime H E B m Hd L) (req : Request H E B)
    (idx : ℕ) (entry : RouteEntry Hd L) (params : List (Str × Str)),
    router.matchRoute req.uri.path = some (idx, entry, params) → entry.pattern = p.1.path →
      (MethodFilter.mk p.1.methodMask).contains (.fromMethod req.method) →
        router.dispatch rt req = routed rt idx p.1.path params (rt.handle p.2) req
  /-- A request path that the declared path matches is given to that route, if no other declared
  path leads it away, and the declared one precedes the others that match. -/
  matched : ∀ path, (captures (parse p.1.path) path).isSome →
    (∀ q ∈ routes, diverts (parse p.1.path) (parse q.1.path) path = false) →
    (∀ q ∈ routes, q.1.path ≠ p.1.path → (captures (parse q.1.path) path).isSome →
      precedes (parse p.1.path) (parse q.1.path)) →
    ∃ idx entry params, router.matchRoute path = some (idx, entry, params) ∧
      entry.pattern = p.1.path
  /-- A declared path without parameters is given to its route whatever else is declared. -/
  literal : IsLiteral p.1.path →
    ∃ idx entry params, router.matchRoute p.1.path = some (idx, entry, params) ∧
      entry.pattern = p.1.path

variable [LawfulMatchit]

/-- The paths of a router of collected handlers differ in more than names. -/
theorem Collects.path_eq_of_shape_eq (h : Collects router routes) {q : RouteMeta × Hd}
    (hp : p ∈ routes) (hq : q ∈ routes) (hshape : shape p.1.path = shape q.1.path) :
    p.1.path = q.1.path := by
  have hsymm : Std.Symm fun path other : Str ↦ shape path ≠ shape other :=
    ⟨fun _ _ hne ↦ hne.symm⟩
  have hpairwise := MatchitLib.pairwise_shape_ne router.numbered
  rw [h.patterns] at hpairwise
  by_contra hne
  exact hpairwise.forall (mem_declaredPaths.2 ⟨p, hp, rfl⟩) (mem_declaredPaths.2 ⟨q, hq, rfl⟩) hne
    hshape

/-- A path that a declared one matches is found under it, or under one that it does not precede. -/
theorem Collects.matched (h : Collects router routes) (hp : p ∈ routes) {path : Str}
    (hcaptures : (captures (parse p.1.path) path).isSome)
    (hdiverts : ∀ q ∈ routes, diverts (parse p.1.path) (parse q.1.path) path = false)
    (hprecedes : ∀ q ∈ routes, q.1.path ≠ p.1.path → (captures (parse q.1.path) path).isSome →
      precedes (parse p.1.path) (parse q.1.path)) :
    ∃ idx entry params, router.matchRoute path = some (idx, entry, params) ∧
      entry.pattern = p.1.path := by
  have hdeclared : ∀ entry ∈ router.routes, ∃ q ∈ routes, q.1.path = entry.pattern :=
    fun entry hentry ↦ mem_declaredPaths.1 (h.patterns ▸ List.mem_map_of_mem hentry)
  obtain ⟨entry, hentry, hpattern⟩ : ∃ entry ∈ router.routes, entry.pattern = p.1.path := by
    have hmem : p.1.path ∈ declaredPaths routes := mem_declaredPaths.2 ⟨p, hp, rfl⟩
    rwa [← h.patterns, List.mem_map] at hmem
  have hcaps : (RoutePattern.captures (RoutePattern.parse entry.pattern) path).isSome :=
    hpattern ▸ hcaptures
  obtain ⟨idx, found, params, hmatch, hfirst⟩ :=
    exists_matchRoute hentry hcaps fun other hother ↦ by
      obtain ⟨q, hq, hqpath⟩ := hdeclared other hother
      rw [hpattern, ← hqpath]
      exact hdiverts q hq
  obtain ⟨hfound, hcaps⟩ := matchRoute_eq_some hmatch
  obtain ⟨q, hq, hqpath⟩ := hdeclared found (List.mem_of_getElem? hfound)
  refine ⟨idx, found, params, hmatch, ?_⟩
  -- Another path that was found would be preceded by the declared one.
  by_contra hne
  rw [hpattern, ← hqpath] at hfirst
  refine Bool.false_ne_true (hfirst.symm.trans (hprecedes q hq (hqpath ▸ hne) ?_))
  rw [hqpath, hcaps]
  rfl

theorem Collects.dispatches {H E B : Type} [Multimap H HeaderName HeaderValue] [Extensions E]
    [Extensions.Slot E PathParams] [Extensions.Slot E MatchedPathExt] [FromBytes B]
    (h : Collects router routes) (hp : p ∈ routes) : Dispatches H E B router routes p := by
  refine ⟨fun m _ rt req idx entry params hmatch hpattern hmethod ↦ ?_,
    fun path ↦ h.matched hp, fun hliteral ↦ ?_⟩
  · have hmethodRouter := h.methodRouters entry
      (List.mem_of_getElem? (matchRoute_eq_some_iff.1 hmatch).2)
    have hfor : entry.methodRouter.handlerFor req.method = some p.2 := by
      rw [hmethodRouter, hpattern]
      exact handlerFor_methodRouterAt h.apart hp hmethod
    have hlayers : entry.methodRouter.layers = [] := by
      rw [hmethodRouter]
      exact (plain_methodRouterAt routes entry.pattern).2.1
    rw [dispatch_of_match hmatch, h.routeLayers, hpattern]
    refine routed_congr fun pathParams ↦ ?_
    show entry.methodRouter.clone.call rt _ = _
    rw [MethodRouter.call_clone, method_recordMatch, hfor, hlayers]
    rfl
  · -- A text comes before whatever else matches it.
    have hparse := parse_literal hliteral
    refine h.matched hp ?_ (fun q _ ↦ ?_) fun q hq hne hcaps ↦ ?_
    · rw [hparse, captures_literals, if_pos rfl]
      rfl
    · rw [hparse]
      exact not_diverts_of_forall (by simp) _ _
    · rw [hparse]
      refine precedes_of_literals hcaps fun heq ↦ hne ?_
      refine h.path_eq_of_shape_eq hq hp ?_
      rw [shape, shape, heq, hparse]

/-- **Compile time and startup**: what compile time finds is refused at startup; what it lets
through is refused exactly if the matcher refuses one of the paths, as it does for two that differ
in names only; and if it is not refused, every declared path and method is dispatched to its
handler. -/
theorem collect_spec (H E B : Type) [Multimap H HeaderName HeaderValue] [Extensions E]
    [Extensions.Slot E PathParams] [Extensions.Slot E MatchedPathExt] [FromBytes B]
    (routes : List (RouteMeta × Hd)) :
    (routeConflictCount (routes.map Prod.fst) = 1 →
      (collect routes : Option (Router Hd L)) = none) ∧
    (routeConflictCount (routes.map Prod.fst) = 0 →
      ((collect routes : Option (Router Hd L)) = none ↔
        MatchitLib.insertAll (declaredPaths routes) = none) ∧
      ((∃ p ∈ routes, ∃ q ∈ routes, p.1.path ≠ q.1.path ∧ shape p.1.path = shape q.1.path) →
        (collect routes : Option (Router Hd L)) = none) ∧
      ∀ router : Router Hd L, collect routes = some router →
        ∀ p ∈ routes, Dispatches H E B router routes p) := by
  constructor
  · intro hcount
    refine collect_eq_none_iff.2 (.inl fun hpairwise ↦ ?_)
    rw [pairwise_iff_routeConflictCount.1 hpairwise] at hcount
    exact Nat.zero_ne_one hcount
  · intro hcount
    refine ⟨?_, ?_, fun router hcollect p hp ↦ (collects_of_collect hcollect).dispatches hp⟩
    · exact collect_eq_none_iff.trans
        (or_iff_right fun hclash ↦ hclash (pairwise_iff_routeConflictCount.2 hcount))
    · rintro ⟨p, hp, q, hq, hne, hshape⟩
      refine Option.eq_none_iff_forall_ne_some.2 fun router hcollect ↦ hne ?_
      exact (collects_of_collect hcollect).path_eq_of_shape_eq hp hq hshape

end Collect

/-! ### Paths that overlap -/

section Users

attribute [local instance] MatchitLib.list

private abbrev UserRoutesFields := AssocList HeaderName HeaderValue

private abbrev UserRoutesExtensions := Option PathParams × Option MatchedPathExt

/-- A route with a parameter, and another one. -/
private def userRoutes (path : Str) : List (RouteMeta × Unit) :=
  [(⟨"/users/{id}".toList, MethodFilter.get.bits⟩, ()), (⟨path, MethodFilter.post.bits⟩, ())]

/-- A path beside the parameter in its place. -/
theorem collect_spec_users : ∃ router : Router Unit Unit,
    collect (userRoutes "/users/me".toList) = some router ∧
      ∀ p ∈ userRoutes "/users/me".toList, Dispatches UserRoutesFields UserRoutesExtensions
        (Body UserRoutesFields) router (userRoutes "/users/me".toList) p :=
  ⟨_, rfl, ((collect_spec UserRoutesFields UserRoutesExtensions (Body UserRoutesFields)
    (userRoutes "/users/me".toList)).2 (by decide)).2.2 _ rfl⟩

/-- Two paths that differ in a name only. -/
theorem collect_eq_none_users :
    routeConflictCount ((userRoutes "/users/{name}".toList).map Prod.fst) = 0 ∧
      (collect (userRoutes "/users/{name}".toList) : Option (Router Unit Unit)) = none := by
  decide

end Users

end Router
