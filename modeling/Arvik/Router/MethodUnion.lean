import Arvik.Core.Body
import Arvik.Router.Router

/-!
# Merging method routers

Two method routers without a common method are merged into one: the handlers of both, and the layers
of both around every handler. The same happens to a route to which a collected handler is added.

So the handler that answers is the one that answered before, on either side; around it there are the
layers of both sides (`sharesRoute_of_merge`). A side answers as it did before if the other side has
no layers, and only then, unless it has no methods (`keepsAnswers_iff`).

That layers show is not to be had for one runtime, in which a layer may do nothing. `KeepsAnswers`
is about every runtime and every monad, and the converse instantiates both: in `counting` each layer
counts the requests it sees, so a call tells how many layers there are around it. The other
direction is by the handler that is found, which a merge does not change for the methods that one
side declares (`handlerFor_merge_left`, `handlerFor_merge_right`).
-/

namespace MethodRouter

variable {H E B : Type} {Hd L : Type}

/-! ### What operations make -/

/-- Method routers as the operations make them. A record with any other fields could keep handlers
that it was not built from. -/
inductive Built {L : Type} : {Hd : Type} → MethodRouter Hd L → Prop
  | new {Hd : Type} : Built (new : MethodRouter Hd L)
  | on {Hd : Type} {self : MethodRouter Hd L} (filter : MethodFilter) (handler : Hd) :
    Built self → Built (self.on filter handler)
  | merge {Hd : Type} {self other merged : MethodRouter Hd L} :
    Built self → Built other → self.merge other = some merged → Built merged
  | layer {Hd : Type} {self : MethodRouter Hd L} (layer : L) : Built self → Built (self.layer layer)
  | extendLayers {Hd : Type} {self : MethodRouter Hd L} (extra : List L) :
    Built self → Built (self.extendLayers extra)
  | withState {Hd Hd' : Type} {self : MethodRouter Hd L} (bind : Hd → Hd') :
    Built self → Built (self.withState bind)
  | clone {Hd : Type} {self : MethodRouter Hd L} : Built self → Built self.clone
  | called {Hd : Type} {self : MethodRouter Hd L} : Built self → Built self.called

theorem built_any (handler : Hd) : Built (MethodRouter.any handler : MethodRouter Hd L) :=
  .on .any handler .new

/-- There is a handler for the method. -/
def declares (self : MethodRouter Hd L) (method : Method) : Bool :=
  self.allowMethods.contains (.fromMethod method)

/-- The methods are those of the handlers, and what is kept was built from them. -/
structure Sound (router : MethodRouter Hd L) : Prop where
  declares : ∀ method,
    router.declares method = router.handlers.any fun p ↦ p.1.contains (.fromMethod method)
  fresh : router.Fresh

theorem fresh_of_baked {self : MethodRouter Hd L} (h : self.baked = none) : self.Fresh :=
  fun _ hbuilt ↦ absurd (h.symm.trans hbuilt) (Option.some_ne_none _).symm

theorem exists_merge {self other : MethodRouter Hd L}
    (h : self.allowMethods.bits &&& other.allowMethods.bits = 0) :
    ∃ merged, self.merge other = some merged :=
  ⟨_, if_neg (not_not.2 h)⟩

/-- A merge puts the two sides one after the other. -/
theorem merge_eq_some {self other merged : MethodRouter Hd L} (h : self.merge other = some merged) :
    self.allowMethods.bits &&& other.allowMethods.bits = 0 ∧
      merged.handlers = self.handlers ++ other.handlers ∧
      merged.allowMethods = self.allowMethods.union other.allowMethods ∧
      merged.layers = self.layers ++ other.layers ∧ merged.baked = none := by
  rw [merge] at h
  split_ifs at h with hbits
  obtain rfl := Option.some.inj h
  exact ⟨not_not.1 hbits, rfl, rfl, rfl, rfl⟩

theorem Built.sound {self : MethodRouter Hd L} (h : self.Built) : self.Sound := by
  induction h with
  | new => exact ⟨fun method ↦ MethodFilter.contains_none_fromMethod method, fresh_of_baked rfl⟩
  | on filter handler _ ih =>
    refine ⟨fun method ↦ ?_, fresh_of_baked rfl⟩
    rw [declares, MethodRouter.on, MethodFilter.contains_union_fromMethod, List.any_append,
      ← ih.declares]
    simp [declares]
  | merge _ _ hmerge ih ih' =>
    obtain ⟨-, hhandlers, hallow, -, hbaked⟩ := merge_eq_some hmerge
    refine ⟨fun method ↦ ?_, fresh_of_baked hbaked⟩
    rw [declares, hallow, hhandlers, MethodFilter.contains_union_fromMethod, List.any_append,
      ← ih.declares, ← ih'.declares]
    rfl
  | layer _ _ ih => exact ⟨ih.declares, fresh_of_baked rfl⟩
  | @extendLayers _ self extra _ ih =>
    rw [MethodRouter.extendLayers]
    split_ifs
    · exact ih
    · exact ⟨ih.declares, fresh_of_baked rfl⟩
  | withState bind _ ih =>
    refine ⟨fun method ↦ ?_, fresh_of_baked rfl⟩
    rw [MethodRouter.withState, List.any_map]
    exact ih.declares method
  | clone _ ih => exact ⟨ih.declares, fresh_of_baked rfl⟩
  | called _ ih => exact ⟨ih.declares, ih.fresh.called⟩

/-! ### Which handler answers -/

/-- A handler for the method itself is preferred. -/
theorem handlerFor_of_declares {self : MethodRouter Hd L} {method : Method}
    (h : self.declares method) : self.handlerFor method =
      (self.handlers.find? fun p ↦ p.1.contains (.fromMethod method)).map Prod.snd := by
  have htakes : ∀ filter, self.takes method filter = filter.contains (.fromMethod method) := by
    intro filter
    by_cases hhead : method = .head
    · have hcontains : self.allowMethods.contains .head = true := by
        rw [hhead] at h
        exact h
      simp [takes, hcontains]
    · simp [takes, hhead]
  rw [handlerFor]
  simp only [htakes]

theorem Sound.find?_isSome {self : MethodRouter Hd L} (h : self.Sound) {method : Method}
    (hdeclares : self.declares method) :
    (self.handlers.find? fun p ↦ p.1.contains (.fromMethod method)).isSome := by
  rw [h.declares] at hdeclares
  exact List.find?_isSome.2 (List.any_eq_true.1 hdeclares)

/-- A method that is declared is answered. -/
theorem Sound.exists_handlerFor {self : MethodRouter Hd L} (h : self.Sound) {method : Method}
    (hdeclares : self.declares method) : ∃ handler, self.handlerFor method = some handler := by
  rw [handlerFor_of_declares hdeclares, ← Option.isSome_iff_exists, Option.isSome_map]
  exact h.find?_isSome hdeclares

/-- A method that is not declared is refused, unless GET answers for HEAD. -/
theorem Sound.handlerFor_eq_none {self : MethodRouter Hd L} (h : self.Sound) {method : Method}
    (hdeclares : self.declares method = false) (hhead : ¬ (method = .head ∧ self.declares .get)) :
    self.handlerFor method = none := by
  have hnot : ∀ p ∈ self.handlers, ¬ self.takes method p.1 = true := by
    intro p hp htakes
    rw [takes, Bool.or_eq_true, Bool.and_eq_true, Bool.and_eq_true, beq_iff_eq] at htakes
    rcases htakes with hcontains | ⟨⟨rfl, -⟩, hget⟩
    · rw [h.declares, List.any_eq_false] at hdeclares
      exact hdeclares p hp hcontains
    · refine hhead ⟨rfl, ?_⟩
      rw [h.declares]
      exact List.any_eq_true.2 ⟨p, hp, hget⟩
  rw [handlerFor, List.find?_eq_none.2 hnot]
  rfl

section Merge

variable {self other merged : MethodRouter Hd L} (hself : self.Sound) (hother : other.Sound)
  (hmerge : self.merge other = some merged)

include hmerge

theorem declares_merge (method : Method) :
    merged.declares method = (self.declares method || other.declares method) := by
  rw [declares, (merge_eq_some hmerge).2.2.1, MethodFilter.contains_union_fromMethod]
  rfl

include hself

/-- The methods of the one side are answered by its handlers. -/
theorem handlerFor_merge_left {method : Method} (h : self.declares method) :
    merged.handlerFor method = self.handlerFor method := by
  have hmerged : merged.declares method := by
    rw [declares_merge hmerge, h, Bool.true_or]
  obtain ⟨p, hp⟩ := Option.isSome_iff_exists.1 (hself.find?_isSome h)
  rw [handlerFor_of_declares h, handlerFor_of_declares hmerged, (merge_eq_some hmerge).2.1,
    List.find?_append, hp, Option.some_or]

/-- So are those of the other side. -/
theorem handlerFor_merge_right {method : Method} (h : other.declares method) :
    merged.handlerFor method = other.handlerFor method := by
  have hmerged : merged.declares method := by
    rw [declares_merge hmerge, h, Bool.or_true]
  have hnot : self.declares method = false := by
    rw [← Bool.not_eq_true]
    intro hdeclares
    rw [declares, MethodFilter.not_contains_of_disjoint (merge_eq_some hmerge).1 hdeclares] at h
    exact Bool.false_ne_true h
  have hnone : (self.handlers.find? fun p ↦ p.1.contains (.fromMethod method)) = none := by
    rw [hself.declares, List.any_eq_false] at hnot
    exact List.find?_eq_none.2 hnot
  rw [handlerFor_of_declares h, handlerFor_of_declares hmerged, (merge_eq_some hmerge).2.1,
    List.find?_append, hnone, Option.none_or]

end Merge

/-! ### What the merge answers -/

section Answers

variable [Multimap H HeaderName HeaderValue] [Extensions E] [FromBytes B]

/-- A method router answers the methods of another one as that one does. -/
def KeepsAnswers (H E B : Type) [Multimap H HeaderName HeaderValue] [Extensions E] [FromBytes B]
    (self merged : MethodRouter Hd L) : Prop :=
  ∀ (m : Type → Type) [Monad m] (rt : Runtime H E B m Hd L) (req : Request H E B),
    self.declares req.method → merged.call rt req = self.call rt req

/-- Every layer counts the requests it sees. -/
def counting (H E B : Type) (Hd L : Type) [Multimap H HeaderName HeaderValue] [Extensions E]
    [FromBytes B] : Runtime H E B (StateM ℕ) Hd L where
  handle _ _ := pure (new : MethodRouter Hd L).methodNotAllowed
  layer _ service req := do
    modify (· + 1)
    service req
  getOrInit _ names := pure names

theorem run_applyLayers_counting (base : Service H E B (StateM ℕ)) (layers : List L)
    (req : Request H E B) (n : ℕ) :
    (applyLayers (counting H E B Hd L) base layers req).run n =
      (base req).run (n + layers.length) := by
  induction layers generalizing base with
  | nil => rfl
  | cons layer layers ih =>
    have hlayer : ((counting H E B Hd L).layer layer base req).run (n + layers.length) =
        (base req).run (n + layers.length + 1) := rfl
    exact (ih _).trans hlayer

/-- Layers show. -/
theorem length_layers_of_keepsAnswers {self merged : MethodRouter Hd L} (hself : self.Sound)
    (hmerged : merged.Fresh) {method : Method} (hdeclares : self.declares method)
    (hhandler : merged.handlerFor method = self.handlerFor method)
    (h : KeepsAnswers H E B self merged) : merged.layers.length = self.layers.length := by
  obtain ⟨handler, hfor⟩ := hself.exists_handlerFor hdeclares
  let req : Request H E B :=
    .new ⟨method, { path := [] }, Multimap.empty, Extensions.empty, FromBytes.empty, .http11⟩
  have hcall := h (StateM ℕ) (counting H E B Hd L) req hdeclares
  have hmethod : req.method = method := rfl
  rw [hmerged.call_eq, hself.fresh.call_eq, hmethod, hhandler, hfor] at hcall
  have hcount := congrArg (fun action : StateM ℕ (Response H E B) ↦ (action.run 0).2) hcall
  simp only [run_applyLayers_counting, Nat.zero_add] at hcount
  exact hcount

theorem keepsAnswers_of_layers_eq {self merged : MethodRouter Hd L} (hself : self.Sound)
    (hmerged : merged.Fresh) (hlayers : merged.layers = self.layers)
    (hhandler : ∀ method, self.declares method →
      merged.handlerFor method = self.handlerFor method) : KeepsAnswers H E B self merged := by
  intro m _ rt req hdeclares
  obtain ⟨handler, hfor⟩ := hself.exists_handlerFor hdeclares
  rw [hmerged.call_eq, hself.fresh.call_eq, hhandler _ hdeclares, hfor, hlayers]

/-- **Layers that are added show**, unless there is no method to show them on. A runtime whose
layers count requests tells how many layers there are. -/
theorem keepsAnswers_iff {self merged : MethodRouter Hd L} (hself : self.Sound)
    (hmerged : merged.Fresh) {extra : List L}
    (hlayers : merged.layers.length = self.layers.length + extra.length)
    (hnil : extra = [] → merged.layers = self.layers)
    (hhandler : ∀ method, self.declares method →
      merged.handlerFor method = self.handlerFor method) :
    KeepsAnswers H E B self merged ↔
      ((∃ method, self.declares method = true) → extra = []) := by
  constructor
  · rintro h ⟨method, hdeclares⟩
    have hlength := length_layers_of_keepsAnswers hself hmerged hdeclares
      (hhandler method hdeclares) h
    exact List.eq_nil_of_length_eq_zero (by omega)
  · intro h m _ rt req hdeclares
    exact keepsAnswers_of_layers_eq hself hmerged (hnil (h ⟨_, hdeclares⟩)) hhandler m rt req
      hdeclares

/-- What the merge of two method routers answers, under every runtime. -/
structure SharesRoute (H E B : Type) [Multimap H HeaderName HeaderValue] [Extensions E]
    [FromBytes B] (one other merged : MethodRouter Hd L) : Prop where
  /-- The handler of the one side, inside its layers and then those of the other. -/
  left : ∀ (m : Type → Type) [Monad m] (rt : Runtime H E B m Hd L) (req : Request H E B),
    one.declares req.method → ∃ handler,
      one.call rt req = applyLayers rt (rt.handle handler) one.layers req ∧
      merged.call rt req =
        applyLayers rt (applyLayers rt (rt.handle handler) one.layers) other.layers req
  /-- The handler of the other side, inside the same layers. -/
  right : ∀ (m : Type → Type) [Monad m] (rt : Runtime H E B m Hd L) (req : Request H E B),
    other.declares req.method → ∃ handler,
      other.call rt req = applyLayers rt (rt.handle handler) other.layers req ∧
      merged.call rt req =
        applyLayers rt (applyLayers rt (rt.handle handler) one.layers) other.layers req
  /-- A method of neither side is refused, unless GET answers for HEAD. -/
  neither : ∀ (m : Type → Type) [Monad m] (rt : Runtime H E B m Hd L) (req : Request H E B),
    one.declares req.method = false → other.declares req.method = false →
      ¬ (req.method = .head ∧ (one.declares .get ∨ other.declares .get)) →
        merged.call rt req = pure merged.methodNotAllowed
  /-- The one side answers as before only without layers on the other. -/
  keeps_left : KeepsAnswers H E B one merged ↔
    ((∃ method, one.declares method = true) → other.layers = [])
  keeps_right : KeepsAnswers H E B other merged ↔
    ((∃ method, other.declares method = true) → one.layers = [])

theorem sharesRoute_of_merge {self other merged : MethodRouter Hd L} (hself : self.Built)
    (hother : other.Built) (hmerge : self.merge other = some merged) :
    SharesRoute H E B self other merged := by
  have hmerged := (Built.merge hself hother hmerge).sound
  obtain ⟨-, -, -, hlayers, -⟩ := merge_eq_some hmerge
  have hlength : merged.layers.length = self.layers.length + other.layers.length := by
    rw [hlayers, List.length_append]
  refine ⟨fun m _ rt req hdeclares ↦ ?_, fun m _ rt req hdeclares ↦ ?_,
    fun m _ rt req hnot hnot' hhead ↦ ?_, ?_, ?_⟩
  · obtain ⟨handler, hfor⟩ := hself.sound.exists_handlerFor hdeclares
    refine ⟨handler, ?_, ?_⟩
    · rw [hself.sound.fresh.call_eq, hfor]
    · rw [hmerged.fresh.call_eq, handlerFor_merge_left hself.sound hmerge hdeclares, hfor, hlayers]
      exact congrFun (Layering.applyAll_append _ _ _) req
  · obtain ⟨handler, hfor⟩ := hother.sound.exists_handlerFor hdeclares
    refine ⟨handler, ?_, ?_⟩
    · rw [hother.sound.fresh.call_eq, hfor]
    · rw [hmerged.fresh.call_eq, handlerFor_merge_right hself.sound hmerge hdeclares, hfor,
        hlayers]
      exact congrFun (Layering.applyAll_append _ _ _) req
  · have hnone : merged.handlerFor req.method = none := by
      refine hmerged.handlerFor_eq_none ?_ ?_
      · rw [declares_merge hmerge, hnot, hnot', Bool.or_false]
      · rw [declares_merge hmerge, Bool.or_eq_true]
        exact hhead
    rw [hmerged.fresh.call_eq, hnone]
  · refine keepsAnswers_iff hself.sound hmerged.fresh hlength (fun hnil ↦ ?_)
      fun method ↦ handlerFor_merge_left hself.sound hmerge
    rw [hlayers, hnil, List.append_nil]
  · refine keepsAnswers_iff hother.sound hmerged.fresh (hlength.trans (Nat.add_comm _ _))
      (fun hnil ↦ ?_) fun method ↦ handlerFor_merge_right hself.sound hmerge
    rw [hlayers, hnil, List.nil_append]

theorem Fresh.call_clone_eq {m : Type → Type} [Monad m] {self : MethodRouter Hd L} (h : self.Fresh)
    (rt : Runtime H E B m Hd L) : self.clone.call rt = self.call rt :=
  funext fun req ↦ (self.call_clone rt req).trans (h.call_eq rt req).symm

end Answers

end MethodRouter

namespace Router

section Collected

variable [MatchitLib] {H E B : Type} {Hd L : Type}

/-- A route is found as before when it gets another method router. -/
theorem matchRoute_setMethodRouter {self : Router Hd L} {path : Str} {idx : ℕ}
    {entry : RouteEntry Hd L} {params : List (Str × Str)}
    (h : self.matchRoute path = some (idx, entry, params)) (methodRouter : MethodRouter Hd L) :
    (self.setMethodRouter idx methodRouter).matchRoute path =
      some (idx, { entry with methodRouter }, params) := by
  obtain ⟨hat, hentry⟩ := matchRoute_eq_some_iff.1 h
  refine matchRoute_eq_some_iff.2 ⟨hat, ?_⟩
  rw [getElem?_setMethodRouter, hentry, Option.map_some, if_pos rfl]

variable [Multimap H HeaderName HeaderValue] [Extensions E] [Extensions.Slot E PathParams]
variable [Extensions.Slot E MatchedPathExt] [FromBytes B]

/-- **Two method routers without a common method share a route**: each of the handlers answers its
methods, inside the layers of both. The same holds on the route of a router to which a handler is
added. -/
theorem exists_sharesRoute {self other : MethodRouter Hd L} (hself : self.Built)
    (hother : other.Built) (hbits : self.allowMethods.bits &&& other.allowMethods.bits = 0) :
    ∃ merged, self.merge other = some merged ∧
      MethodRouter.SharesRoute H E B self other merged ∧
      ∀ (router : Router Hd L) (path : Str) (idx : ℕ),
        router.routes.findIdx? (fun entry ↦ entry.pattern = path) = some idx →
        router.routes[idx]? = some ⟨path, self⟩ →
        router.routeCollected path other = some (router.setMethodRouter idx merged) ∧
        ∀ (m : Type → Type) [Monad m] (rt : Runtime H E B m Hd L) (req : Request H E B)
          (params : List (Str × Str)),
          router.matchRoute req.uri.path = some (idx, ⟨path, self⟩, params) →
          router.dispatch rt req = routed rt idx path params
            (applyLayers rt (self.call rt) router.routeLayers) req ∧
          (router.setMethodRouter idx merged).dispatch rt req = routed rt idx path params
            (applyLayers rt (merged.call rt) router.routeLayers) req := by
  obtain ⟨merged, hmerge⟩ := MethodRouter.exists_merge hbits
  have hfresh := (MethodRouter.Built.merge hself hother hmerge).sound.fresh
  refine ⟨merged, hmerge, MethodRouter.sharesRoute_of_merge hself hother hmerge,
    fun router path idx hfind hentry ↦ ⟨?_, fun m _ rt req params hmatch ↦ ⟨?_, ?_⟩⟩⟩
  · rw [routeCollected_eq_map hfind hentry, hmerge]
    rfl
  · rw [dispatch_of_match hmatch, hself.sound.fresh.call_clone_eq]
  · rw [dispatch_of_match (matchRoute_setMethodRouter hmatch merged), hfresh.call_clone_eq]
    rfl

end Collected

/-! ### A guarded method -/

section Guarded

private abbrev GuardFields := AssocList HeaderName HeaderValue

private abbrev GuardExtensions := Option PathParams × Option MatchedPathExt

attribute [local instance] MatchitLib.list

/-- Handlers answer with a status, and so does a layer that lets no request pass. -/
private def refusing : Runtime GuardFields GuardExtensions (Body GuardFields) Id StatusCode
    StatusCode where
  handle code _ := code.intoResponse
  layer code _ _ := code.intoResponse
  getOrInit _ names := names

/-- A guarded handler for GET. -/
private def guarded : MethodRouter StatusCode StatusCode :=
  (MethodRouter.new.on .get .ok).layer .forbidden

/-- A handler for POST. -/
private def unguarded : MethodRouter StatusCode StatusCode :=
  MethodRouter.new.on .post .noContent

theorem exists_sharesRoute_guarded : ∃ merged, guarded.merge unguarded = some merged ∧
    MethodRouter.SharesRoute GuardFields GuardExtensions (Body GuardFields) guarded unguarded
      merged := by
  obtain ⟨merged, hmerge, hshares, -⟩ :=
    exists_sharesRoute (H := GuardFields) (E := GuardExtensions) (B := Body GuardFields)
      (.layer .forbidden (.on .get .ok .new)) (.on .post .noContent .new)
      (show guarded.allowMethods.bits &&& unguarded.allowMethods.bits = 0 by decide)
  exact ⟨merged, hmerge, hshares⟩

/-- The guard of GET refuses POST. -/
theorem not_keepsAnswers_unguarded : ¬ ∀ merged, guarded.merge unguarded = some merged →
    MethodRouter.KeepsAnswers GuardFields GuardExtensions (Body GuardFields) unguarded merged := by
  intro h
  have hcall := h _ rfl Id refusing
    (.new ⟨.post, { path := ['/'] }, Multimap.empty, Extensions.empty, Body.empty, .http11⟩) rfl
  exact absurd (congrArg Response.status hcall) (by decide)

end Guarded

end Router
