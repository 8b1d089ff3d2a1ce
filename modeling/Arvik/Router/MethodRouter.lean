import Arvik.Core.MethodFilter
import Arvik.Core.ResponseBuilder
import Arvik.Foundation.Layering

/-!
# Method routers

A method router holds the handlers of one route, each under a filter of methods, and the layers
around them. Once its state is bound, the layered handlers are built on the first request and kept;
a clone forgets them. `call_clone` says what a clone answers: the first handler that takes the
method, inside the layers, or 405.

Handlers and layers are names here; a `Runtime` says what they do. The response to a request is
computed in any monad, so that a runtime can keep a state or a record of what ran.

With names for handlers the operations on routers are operations on lists, and what a router answers
is a statement about every runtime. Keeping built handlers is the one thing in a method router that
could go wrong in time: `Fresh` says that what is kept is what would be built now, every operation
that could make it stale drops it, and a call under it is a call that builds everything anew
(`Fresh.call_eq`).
-/

/-- A service answers requests. -/
abbrev Service (H E B : Type) (m : Type → Type) :=
  Request H E B → m (Response H E B)

/-- What the handlers and layers of routers do. A router only has names for them, so a statement
about all runtimes is one about the router alone. -/
structure Runtime (H E B : Type) (m : Type → Type) (Hd L : Type) where
  /-- Call a handler. -/
  handle : Hd → Service H E B m
  /-- A service inside a layer. -/
  layer : L → Service H E B m → Service H E B m
  /-- The parameter names kept for a route, set to the given ones if there are none yet. -/
  getOrInit : ℕ → List Str → m (List Str)

variable {H E B : Type} {m : Type → Type} {Hd L : Type}

/-- A service inside all the layers of a list, the first one innermost. -/
def applyLayers (rt : Runtime H E B m Hd L) (base : Service H E B m) (layers : List L) :
    Service H E B m :=
  Layering.applyAll rt.layer base layers

/-- The handlers of one route. -/
structure MethodRouter (Hd L : Type) where
  handlers : List (MethodFilter × Hd)
  /-- Every method with a handler. -/
  allowMethods : MethodFilter
  layers : List L
  /-- Each handler with the layers it was built into, once that was done. -/
  baked : Option (List (Option (Hd × List L)))
  /-- The state is bound. -/
  bakeable : Bool

namespace MethodRouter

/-! ### Construction -/

/-- No handlers. -/
def new : MethodRouter Hd L where
  handlers := []
  allowMethods := .none
  layers := []
  baked := none
  bakeable := false

/-- Add a handler. -/
def on (self : MethodRouter Hd L) (filter : MethodFilter) (handler : Hd) : MethodRouter Hd L where
  handlers := self.handlers ++ [(filter, handler)]
  allowMethods := self.allowMethods.union filter
  layers := self.layers
  baked := none
  bakeable := self.bakeable

/-- Add a layer around every handler. -/
def layer (self : MethodRouter Hd L) (layer : L) : MethodRouter Hd L :=
  { self with layers := self.layers ++ [layer], baked := none }

/-- Add layers around every handler. -/
def extendLayers (self : MethodRouter Hd L) (extra : List L) : MethodRouter Hd L :=
  if extra.isEmpty then self else { self with layers := self.layers ++ extra, baked := none }

/-- Take over the handlers and the layers of another method router, unless the two share a
method. -/
def merge (self other : MethodRouter Hd L) : Option (MethodRouter Hd L) :=
  if self.allowMethods.bits &&& other.allowMethods.bits ≠ 0 then none
  else some {
    handlers := self.handlers ++ other.handlers
    allowMethods := self.allowMethods.union other.allowMethods
    layers := self.layers ++ other.layers
    baked := none
    bakeable := false }

/-- Bind the state, handler by handler. -/
def withState {Hd' : Type} (self : MethodRouter Hd L) (bind : Hd → Hd') : MethodRouter Hd' L where
  handlers := self.handlers.map fun p ↦ (p.1, bind p.2)
  allowMethods := self.allowMethods
  layers := self.layers
  baked := none
  bakeable := true

/-- A clone starts without built handlers, and builds none. -/
def clone (self : MethodRouter Hd L) : MethodRouter Hd L :=
  { self with baked := none, bakeable := false }

/-! ### Dispatch -/

/-- The `Allow` header of the methods in a filter. -/
def buildAllowHeader (filter : MethodFilter) : Str :=
  let pairs : List (MethodFilter × Str) :=
    [(.get, "GET".toList), (.post, "POST".toList), (.put, "PUT".toList),
      (.delete, "DELETE".toList), (.patch, "PATCH".toList), (.head, "HEAD".toList),
      (.options, "OPTIONS".toList), (.trace, "TRACE".toList)]
  ", ".toList.intercalate ((pairs.filter fun p ↦ filter.contains p.1).map Prod.snd)

/-- A handler under this filter takes the method; the GET handler takes HEAD unless there is a
handler for HEAD. -/
def takes (self : MethodRouter Hd L) (method : Method) (filter : MethodFilter) : Bool :=
  filter.contains (.fromMethod method) ||
    ((method == .head && !self.allowMethods.contains .head) && filter.contains .get)

/-- The built handlers, if they may be kept: those at hand, or else built now. -/
def bakedStacks (self : MethodRouter Hd L) : Option (List (Option (Hd × List L))) :=
  if self.bakeable && !self.layers.isEmpty then
    some (self.baked.getD (self.handlers.map fun p ↦ some (p.2, self.layers)))
  else none

/-- A method router after a call, which keeps what it built. -/
def called (self : MethodRouter Hd L) : MethodRouter Hd L :=
  { self with baked := self.bakedStacks.or self.baked }

variable [Multimap H HeaderName HeaderValue] [Extensions E] [FromBytes B]

/-- The response to a method without a handler. -/
def methodNotAllowed (self : MethodRouter Hd L) : Response H E B :=
  ((ResponseBuilder.new.status .methodNotAllowed).header HeaderName.allow
    (buildAllowHeader self.allowMethods)).text "Method Not Allowed".toList

variable [Monad m] (rt : Runtime H E B m Hd L)

/-- Dispatch a request to the first handler that takes its method. -/
def call (self : MethodRouter Hd L) : Service H E B m := fun req ↦
  match self.handlers.zipIdx.find? fun entry ↦ self.takes req.method entry.1.1 with
  | some ((_, handler), idx) =>
    match self.bakedStacks.bind fun stack ↦ stack[idx]?.join with
    | some (handler, layers) => applyLayers rt (rt.handle handler) layers req
    | none =>
      if self.layers.isEmpty then rt.handle handler req
      else applyLayers rt (rt.handle handler) self.layers req
  | none => pure self.methodNotAllowed

/-- The handler that takes a method. -/
def handlerFor (self : MethodRouter Hd L) (method : Method) : Option Hd :=
  (self.handlers.find? fun p ↦ self.takes method p.1).map Prod.snd

omit [Multimap H HeaderName HeaderValue] [Extensions E] [FromBytes B] [Monad m] in
@[simp]
theorem handlerFor_extendLayers (self : MethodRouter Hd L) (extra : List L) (method : Method) :
    (self.extendLayers extra).handlerFor method = self.handlerFor method := by
  rw [extendLayers]
  split
  · rfl
  · rfl

omit [Multimap H HeaderName HeaderValue] [Extensions E] [FromBytes B] [Monad m] in
@[simp]
theorem layers_extendLayers (self : MethodRouter Hd L) (extra : List L) :
    (self.extendLayers extra).layers = self.layers ++ extra := by
  rw [extendLayers]
  split
  · next hextra => rw [List.isEmpty_iff.1 hextra, List.append_nil]
  · rfl

omit [Multimap H HeaderName HeaderValue] [Extensions E] [FromBytes B] [Monad m] in
theorem extendLayers_append (self : MethodRouter Hd L) (extra outer : List L) :
    self.extendLayers (extra ++ outer) = (self.extendLayers extra).extendLayers outer := by
  rcases extra with - | ⟨layer, extra⟩
  · rfl
  · rcases outer with - | ⟨layer', outer⟩
    · rw [List.append_nil]
      rfl
    · have hlayers := (List.append_assoc self.layers (layer :: extra) (layer' :: outer)).symm
      exact congrArg (MethodRouter.mk self.handlers self.allowMethods · none self.bakeable) hlayers

/-- What is kept was built from the handlers and the layers as they are. -/
def Fresh (self : MethodRouter Hd L) : Prop :=
  ∀ built, self.baked = some built → built = self.handlers.map fun p ↦ some (p.2, self.layers)

omit [Multimap H HeaderName HeaderValue] [Extensions E] [FromBytes B] [Monad m] in
theorem Fresh.bakedStacks {self : MethodRouter Hd L} (h : self.Fresh)
    {built : List (Option (Hd × List L))} (hbuilt : self.bakedStacks = some built) :
    built = self.handlers.map fun p ↦ some (p.2, self.layers) := by
  rw [MethodRouter.bakedStacks] at hbuilt
  split_ifs at hbuilt
  rw [← Option.some.inj hbuilt]
  rcases hbaked : self.baked with - | kept
  · rfl
  · exact h kept hbaked

omit [Multimap H HeaderName HeaderValue] [Extensions E] [FromBytes B] [Monad m] in
theorem Fresh.called {self : MethodRouter Hd L} (h : self.Fresh) : self.called.Fresh := by
  intro built hbuilt
  rcases Option.or_eq_some_iff.1 hbuilt with hbuilt | ⟨-, hbuilt⟩
  · exact h.bakedStacks hbuilt
  · exact h built hbuilt

/-- **What a method router answers**: the first handler that takes the method, inside the layers.
That handlers were kept makes no difference, as they were built from the same lists. -/
theorem Fresh.call_eq {self : MethodRouter Hd L} (h : self.Fresh) (req : Request H E B) :
    self.call rt req = match self.handlerFor req.method with
      | some handler => applyLayers rt (rt.handle handler) self.layers req
      | none => pure self.methodNotAllowed := by
  have hfind : self.handlerFor req.method =
      (self.handlers.zipIdx.find? fun entry ↦ self.takes req.method entry.1.1).map
        fun entry ↦ entry.1.2 := by
    rw [handlerFor]
    conv_lhs => rw [← List.zipIdx_map_fst 0 self.handlers, List.find?_map, Option.map_map]
    rfl
  rw [call, hfind]
  rcases hfound : self.handlers.zipIdx.find? fun entry ↦ self.takes req.method entry.1.1
    with - | ⟨⟨filter, handler⟩, idx⟩
  · rw [hfound]
    rfl
  · rw [hfound]
    have hidx : self.handlers[idx]? = some (filter, handler) :=
      List.mem_zipIdx_iff_getElem?.1 (List.mem_of_find?_eq_some hfound)
    show (match self.bakedStacks.bind fun stack ↦ stack[idx]?.join with
      | some (handler, layers) => applyLayers rt (rt.handle handler) layers req
      | none => if self.layers.isEmpty then rt.handle handler req
        else applyLayers rt (rt.handle handler) self.layers req) =
      applyLayers rt (rt.handle handler) self.layers req
    rcases hbuilt : self.bakedStacks with - | built
    · show (if self.layers.isEmpty then _ else _) = _
      split
      · next hlayers => rw [List.isEmpty_iff.1 hlayers]; rfl
      · rfl
    · have hat : built[idx]?.join = some (handler, self.layers) := by
        rw [h.bakedStacks hbuilt, List.getElem?_map, hidx]
        rfl
      rw [Option.bind_some, hat]

omit [Multimap H HeaderName HeaderValue] [Extensions E] [FromBytes B] [Monad m] in
theorem fresh_clone (self : MethodRouter Hd L) : self.clone.Fresh :=
  fun _ hbuilt ↦ absurd hbuilt (Option.some_ne_none _).symm

/-- **What a clone answers**: the same. It has the handlers and the layers, and builds anew what was
kept. -/
theorem call_clone (self : MethodRouter Hd L) (req : Request H E B) :
    self.clone.call rt req = match self.handlerFor req.method with
      | some handler => applyLayers rt (rt.handle handler) self.layers req
      | none => pure self.methodNotAllowed :=
  self.fresh_clone.call_eq rt req

/-- A method router with one handler, for every method. -/
def any (handler : Hd) : MethodRouter Hd L :=
  new.on .any handler

omit [Multimap H HeaderName HeaderValue] [Extensions E] [FromBytes B] [Monad m] in
/-- A handler for every method takes every method. -/
@[simp]
theorem handlerFor_any (handler : Hd) (method : Method) :
    (any handler : MethodRouter Hd L).handlerFor method = some handler := by
  have htakes : (any handler : MethodRouter Hd L).takes method .any := by
    rw [takes, MethodFilter.contains_any, Bool.true_or]
  have hfind : [(MethodFilter.any, handler)].find?
      (fun p ↦ (any handler : MethodRouter Hd L).takes method p.1) = some (.any, handler) :=
    List.find?_cons_of_pos htakes
  exact congrArg (Option.map Prod.snd) hfind

end MethodRouter
