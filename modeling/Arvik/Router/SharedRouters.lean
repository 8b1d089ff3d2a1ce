import Arvik.Foundation.SharedCells
import Arvik.Router.MethodRouter

/-!
# Method routers in memory

The handlers and the layers of a method router lie in cells that it shares with its clones, and the
layered handlers are kept from the first call on once the state is bound. A program makes routers,
changes them, binds their state, clones, drops and calls them, in any order (`Op`).

What a router has to answer is said by its registrations alone (`Registered.answer`): the first
handler that accepts the method, inside all layers in the order they were added, or 405. Whatever a
program does, every router answers so (`answer_run`): a change of one router does not show in its
clones, and kept handlers are dropped when what they were built from changes.

The reference runs the same program on registrations, which are values: a clone is a copy, and there
is nothing to keep. `Tracks` relates the two. Every router in memory stands for its registration,
the count of a cell is the number of routers that hold it, and what is kept was built from what is
there. A cell is changed in place if nobody else holds it and copied otherwise, so the step for a
change is by cases on the count; in the second case the router moves to a new cell and the others do
not notice.
-/

namespace SharedRouters

variable {H E B : Type} {m : Type → Type} {Hd σ L : Type}

/-! ### Handlers with state -/

/-- What handlers and layers do; the state type of a bound router has one value only. -/
structure Handling (H E B : Type) (m : Type → Type) (Hd σ L : Type) where
  unit : σ
  handle : Hd → σ → Service H E B m
  layer : L → Service H E B m → Service H E B m

/-- A handler as it was registered, or with its state bound. -/
inductive Handler (Hd σ : Type)
  | registered (handler : Hd)
  | stateBound (inner : Handler Hd σ) (state : σ)

/-- Call a handler with a state; a bound one ignores it. -/
def Handler.call (hl : Handling H E B m Hd σ L) : Handler Hd σ → σ → Service H E B m
  | registered handler, state => hl.handle handler state
  | stateBound inner state, _ => inner.call hl state

/-- What handlers and layers do, for one state. -/
def Handling.runtime [Monad m] (hl : Handling H E B m Hd σ L) (state : σ) :
    Runtime H E B m (Handler Hd σ) L where
  handle handler := handler.call hl state
  layer := hl.layer
  getOrInit _ names := pure names

/-! ### Memory -/

/-- A method router in memory. -/
structure Stored (Hd σ L : Type) where
  /-- The cell of the handlers. -/
  handlers : ℕ
  allowMethods : MethodFilter
  /-- The cell of the layers. -/
  layers : ℕ
  /-- Each handler with the state and the layers it was built with, once that was done. -/
  baked : Option (List (Option (Handler Hd σ × σ × List L)))
  bakeable : Bool
  /-- Its state type is the one with one value. -/
  bound : Bool

/-- The cells, and the routers a program holds; those that were dropped are gone. How many routers
hold a cell is counted in the cell. -/
structure Memory (Hd σ L : Type) where
  handlers : SharedCells (List (MethodFilter × Handler Hd σ)) := .empty
  layers : SharedCells (List L) := .empty
  routers : List (Option (Stored Hd σ L)) := []

/-- The operations of a program. -/
inductive Op (Hd σ L : Type)
  | new (bound : Bool)
  | on (id : ℕ) (filter : MethodFilter) (handler : Hd)
  | layer (id : ℕ) (layer : L)
  | extendLayers (id : ℕ) (extra : List L)
  | withState (id : ℕ) (state : σ)
  | clone (id : ℕ)
  | drop (id : ℕ)
  | call (id : ℕ) (state : σ)

namespace Memory

/-- A router that is there. -/
def router? (memory : Memory Hd σ L) (id : ℕ) : Option (Stored Hd σ L) :=
  memory.routers[id]?.join

/-- Put a router back where it was. -/
def put (memory : Memory Hd σ L) (id : ℕ) (router : Option (Stored Hd σ L)) : Memory Hd σ L :=
  { memory with routers := memory.routers.set id router }

/-- The state that a router is called with. -/
def stateFor (hl : Handling H E B m Hd σ L) (router : Stored Hd σ L) (state : σ) : σ :=
  if router.bound then hl.unit else state

/-- The built handlers, if they may be kept: those at hand, or else built now. -/
def bakedStacks (memory : Memory Hd σ L) (router : Stored Hd σ L) (state : σ) :
    Option (List (Option (Handler Hd σ × σ × List L))) :=
  if router.bakeable && !(memory.layers.contents router.layers).isEmpty then
    some (router.baked.getD ((memory.handlers.contents router.handlers).map fun p ↦
      some (p.2, state, memory.layers.contents router.layers)))
  else none

/-- A router without its cache. -/
def view (memory : Memory Hd σ L) (router : Stored Hd σ L) :
    MethodRouter (Handler Hd σ) L where
  handlers := memory.handlers.contents router.handlers
  allowMethods := router.allowMethods
  layers := memory.layers.contents router.layers
  baked := none
  bakeable := router.bakeable

/-- One operation. -/
def step (hl : Handling H E B m Hd σ L) (memory : Memory Hd σ L) :
    Op Hd σ L → Memory Hd σ L
  | .new bound =>
    let (handlers, handlersCell) := memory.handlers.alloc []
    let (layers, layersCell) := memory.layers.alloc []
    { handlers, layers, routers := memory.routers ++
        [some ⟨handlersCell, .none, layersCell, none, false, bound⟩] }
  | .on id filter handler =>
    match memory.router? id with
    | none => memory
    | some router =>
      let (handlers, cell) := memory.handlers.makeMut router.handlers
        (· ++ [(filter, .registered handler)])
      { memory with handlers }.put id (some { router with
        handlers := cell, allowMethods := router.allowMethods.union filter, baked := none })
  | .layer id layer =>
    match memory.router? id with
    | none => memory
    | some router =>
      let (layers, cell) := memory.layers.makeMut router.layers (· ++ [layer])
      { memory with layers }.put id (some { router with layers := cell, baked := none })
  | .extendLayers id extra =>
    match memory.router? id with
    | none => memory
    | some router =>
      if extra.isEmpty then memory
      else
        let (layers, cell) := memory.layers.makeMut router.layers (· ++ extra)
        { memory with layers }.put id (some { router with layers := cell, baked := none })
  | .withState id state =>
    match memory.router? id with
    | none => memory
    | some router =>
      -- the old list of handlers is dropped with the router it belonged to
      let (handlers, cell) := (memory.handlers.release router.handlers).alloc
        ((memory.handlers.contents router.handlers).map fun p ↦
          (p.1, .stateBound p.2 (stateFor hl router state)))
      { memory with handlers }.put id (some { router with
        handlers := cell, baked := none, bakeable := true, bound := true })
  | .clone id =>
    match memory.router? id with
    | none => memory
    | some router =>
      { handlers := memory.handlers.retain router.handlers
        layers := memory.layers.retain router.layers
        routers := memory.routers ++ [some { router with baked := none, bakeable := false }] }
  | .drop id =>
    match memory.router? id with
    | none => memory
    | some router =>
      { memory with
        handlers := memory.handlers.release router.handlers
        layers := memory.layers.release router.layers }.put id none
  | .call id state =>
    match memory.router? id with
    | none => memory
    | some router => memory.put id (some { router with
        baked := (memory.bakedStacks router (stateFor hl router state)).or router.baked })

/-- What a program leaves in memory. -/
def run (hl : Handling H E B m Hd σ L) (ops : List (Op Hd σ L)) : Memory Hd σ L :=
  ops.foldl (step hl) {}

variable [Multimap H HeaderName HeaderValue] [Extensions E] [FromBytes B] [Monad m]

/-- Dispatch a request to the first handler of a router that takes its method. -/
def call (hl : Handling H E B m Hd σ L) (memory : Memory Hd σ L) (router : Stored Hd σ L)
    (state : σ) : Service H E B m := fun req ↦
  let state := stateFor hl router state
  let handlers := memory.handlers.contents router.handlers
  let layers := memory.layers.contents router.layers
  match handlers.zipIdx.find? fun entry ↦ (memory.view router).takes req.method entry.1.1 with
  | some ((_, handler), idx) =>
    -- a baked stack brings the handler, the state and the layers it was baked from
    match (memory.bakedStacks router state).bind fun stack ↦ stack[idx]?.join with
    | some (handler, state, layers) =>
      applyLayers (hl.runtime state) (handler.call hl state) layers req
    | none =>
      if layers.isEmpty then handler.call hl state req
      else applyLayers (hl.runtime state) (handler.call hl state) layers req
  | none => pure (memory.view router).methodNotAllowed

end Memory

/-! ### Registrations -/

/-- What was registered with a router: the handlers and the layers, in the order they were added.
There is nothing here to be shared or kept, so a clone is a copy. -/
structure Registered (Hd σ L : Type) where
  handlers : List (MethodFilter × Handler Hd σ)
  layers : List L
  bound : Bool

namespace Registered

/-- Every method with a handler. -/
def allowMethods (self : Registered Hd σ L) : MethodFilter :=
  self.handlers.foldl (fun allowed p ↦ allowed.union p.1) .none

/-- A handler under this filter accepts the method; one for GET accepts HEAD if no handler is
registered for HEAD. -/
def accepts (self : Registered Hd σ L) (method : Method) (filter : MethodFilter) : Bool :=
  filter.contains (.fromMethod method) ||
    (method == .head && !(self.handlers.any fun p ↦ p.1.contains .head)) && filter.contains .get

/-- Change what is registered with a router. -/
def update (routers : List (Option (Registered Hd σ L))) (id : ℕ)
    (f : Registered Hd σ L → Option (Registered Hd σ L)) : List (Option (Registered Hd σ L)) :=
  match routers[id]?.join with
  | none => routers
  | some registered => routers.set id (f registered)

/-- What is registered after one operation. -/
def step (hl : Handling H E B m Hd σ L) (routers : List (Option (Registered Hd σ L))) :
    Op Hd σ L → List (Option (Registered Hd σ L))
  | .new bound => routers ++ [some ⟨[], [], bound⟩]
  | .on id filter handler => update routers id fun registered ↦
      some { registered with handlers := registered.handlers ++ [(filter, .registered handler)] }
  | .layer id layer => update routers id fun registered ↦
      some { registered with layers := registered.layers ++ [layer] }
  | .extendLayers id extra => update routers id fun registered ↦
      some { registered with layers := registered.layers ++ extra }
  | .withState id state => update routers id fun registered ↦
      some { registered with
        handlers := registered.handlers.map fun p ↦
          (p.1, .stateBound p.2 (if registered.bound then hl.unit else state))
        bound := true }
  | .clone id =>
    match routers[id]?.join with
    | none => routers
    | some registered => routers ++ [some registered]
  | .drop id => update routers id fun _ ↦ none
  | .call _ _ => routers

/-- What a program has registered. -/
def run (hl : Handling H E B m Hd σ L) (ops : List (Op Hd σ L)) :
    List (Option (Registered Hd σ L)) :=
  ops.foldl (step hl) []

variable [Multimap H HeaderName HeaderValue] [Extensions E] [FromBytes B] [Monad m]

/-- **The reference**: the first handler that accepts the method, inside all layers in the order
they were added, or 405. -/
def answer (hl : Handling H E B m Hd σ L) (self : Registered Hd σ L) (state : σ) :
    Service H E B m := fun req ↦
  match self.handlers.find? fun p ↦ self.accepts req.method p.1 with
  | some (_, handler) => Layering.applyAll hl.layer
      (handler.call hl (if self.bound then hl.unit else state)) self.layers req
  | none => pure (MethodRouter.mk self.handlers self.allowMethods self.layers none
      false).methodNotAllowed

omit [Multimap H HeaderName HeaderValue] [Extensions E] [FromBytes B] [Monad m]

theorem contains_foldl_union (method : Method) (handlers : List (MethodFilter × Handler Hd σ))
    (allowed : MethodFilter) :
    (handlers.foldl (fun allowed p ↦ allowed.union p.1) allowed).contains (.fromMethod method) =
      (allowed.contains (.fromMethod method) ||
        handlers.any fun p ↦ p.1.contains (.fromMethod method)) := by
  induction handlers generalizing allowed with
  | nil => exact (Bool.or_false _).symm
  | cons p handlers ih =>
    rw [List.foldl_cons, ih, MethodFilter.contains_union_fromMethod, Bool.or_assoc, List.any_cons]

/-- The methods of a router are those of its handlers. -/
theorem contains_allowMethods (self : Registered Hd σ L) (method : Method) :
    self.allowMethods.contains (.fromMethod method) =
      self.handlers.any fun p ↦ p.1.contains (.fromMethod method) := by
  rw [allowMethods, contains_foldl_union, MethodFilter.contains_none_fromMethod, Bool.false_or]

end Registered

/-! ### Memory represents the registrations -/

/-- A router in memory is one with these registrations. -/
structure Represents (hl : Handling H E B m Hd σ L) (memory : Memory Hd σ L)
    (router : Stored Hd σ L) (registered : Registered Hd σ L) : Prop where
  handlers : memory.handlers.contents router.handlers = registered.handlers
  layers : memory.layers.contents router.layers = registered.layers
  allowMethods : router.allowMethods = registered.allowMethods
  bound : router.bound = registered.bound
  /-- Handlers are kept only when the state is bound. -/
  bakeable : router.bakeable = true → router.bound = true
  /-- Kept handlers are the registered ones, inside the layers as they are. -/
  baked : ∀ built, router.baked = some built →
    built = registered.handlers.map fun p ↦ some (p.2, hl.unit, registered.layers)

/-- The handles of the routers on their cells. -/
def handles (cell : Stored Hd σ L → ℕ) (routers : List (Option (Stored Hd σ L))) : List ℕ :=
  routers.filterMap fun slot ↦ slot.map cell

/-- The handles of all routers but one. -/
def Memory.others (memory : Memory Hd σ L) (id : ℕ) (cell : Stored Hd σ L → ℕ) : List ℕ :=
  handles cell (memory.routers.set id none)

/-- Memory represents all registrations, and counts the handles of the routers. -/
structure Tracks (hl : Handling H E B m Hd σ L) (memory : Memory Hd σ L)
    (routers : List (Option (Registered Hd σ L))) : Prop where
  handlers : memory.handlers.Counted (handles Stored.handlers memory.routers)
  layers : memory.layers.Counted (handles Stored.layers memory.routers)
  length_eq : memory.routers.length = routers.length
  routers : ∀ id, Option.Rel (Represents hl memory) (memory.router? id) routers[id]?.join

section Invariant

variable {hl : Handling H E B m Hd σ L} {memory : Memory Hd σ L}
  {routers : List (Option (Registered Hd σ L))} {id : ℕ} {router : Stored Hd σ L}

/-- What is in the cells of a router decides what it represents. -/
theorem Represents.congr {memory' : Memory Hd σ L} {registered : Registered Hd σ L}
    (h : Represents hl memory router registered)
    (hhandlers : memory'.handlers.contents router.handlers =
      memory.handlers.contents router.handlers)
    (hlayers : memory'.layers.contents router.layers = memory.layers.contents router.layers) :
    Represents hl memory' router registered :=
  { h with handlers := hhandlers.trans h.handlers, layers := hlayers.trans h.layers }

/-- What a call finds or builds is what is registered, with the only state there is. -/
theorem Represents.bakedStacks {registered : Registered Hd σ L} {state : σ}
    {built : List (Option (Handler Hd σ × σ × List L))}
    (h : Represents hl memory router registered)
    (hbuilt : memory.bakedStacks router (Memory.stateFor hl router state) = some built) :
    Memory.stateFor hl router state = hl.unit ∧
      built = registered.handlers.map fun p ↦ some (p.2, hl.unit, registered.layers) := by
  rw [Memory.bakedStacks] at hbuilt
  split_ifs at hbuilt with hkeep
  obtain ⟨hbakeable, -⟩ := Bool.and_eq_true_iff.1 hkeep
  have hunit : Memory.stateFor hl router state = hl.unit := if_pos (h.bakeable hbakeable)
  refine ⟨hunit, ?_⟩
  rw [← Option.some.inj hbuilt]
  cases hbaked : router.baked with
  | some kept => exact h.baked kept hbaked
  | none => rw [Option.getD_none, hunit, h.handlers, h.layers]

theorem Represents.rel_congr {memory' : Memory Hd σ L} {slot : Option (Stored Hd σ L)}
    {slot' : Option (Registered Hd σ L)} (h : Option.Rel (Represents hl memory) slot slot')
    (hhandlers : ∀ router, slot = some router →
      memory'.handlers.contents router.handlers = memory.handlers.contents router.handlers)
    (hlayers : ∀ router, slot = some router →
      memory'.layers.contents router.layers = memory.layers.contents router.layers) :
    Option.Rel (Represents hl memory') slot slot' := by
  cases h with
  | none => exact .none
  | some hrepr => exact .some (hrepr.congr (hhandlers _ rfl) (hlayers _ rfl))

theorem mem_handles {slots : List (Option (Stored Hd σ L))} (hid : slots[id]?.join = some router)
    (cell : Stored Hd σ L → ℕ) : cell router ∈ handles cell slots := by
  have hmem : some router ∈ slots :=
    List.mem_of_getElem? (Option.join_eq_some_iff.1 hid)
  exact List.mem_filterMap.2 ⟨some router, hmem, rfl⟩

/-- The handle of one router, and those of the others. -/
theorem handles_perm {slots : List (Option (Stored Hd σ L))} (hid : slots[id]?.join = some router)
    (cell : Stored Hd σ L → ℕ) :
    (handles cell slots).Perm (cell router :: handles cell (slots.set id none)) := by
  induction slots generalizing id with
  | nil => simp at hid
  | cons slot slots ih =>
    cases id with
    | zero =>
      have hslot : slot = some router := by simpa using hid
      rw [hslot]
      exact .refl _
    | succ id =>
      have hrest : slots[id]?.join = some router := by simpa using hid
      have hperm := ih hrest
      cases slot with
      | none => exact hperm
      | some other => exact (hperm.cons (cell other)).trans (.swap _ _ _)

/-- One router is replaced or dropped; nothing changes in the cells of the others. -/
theorem Tracks.replace {memory' : Memory Hd σ L} {slot : Option (Stored Hd σ L)}
    {slot' : Option (Registered Hd σ L)} (h : Tracks hl memory routers)
    (hid : memory.router? id = some router)
    (hrouters : memory'.routers = memory.routers.set id slot)
    (hhandlers : memory'.handlers.Counted
      ((slot.map Stored.handlers).toList ++ memory.others id Stored.handlers))
    (hlayers : memory'.layers.Counted
      ((slot.map Stored.layers).toList ++ memory.others id Stored.layers))
    (hcontents : ∀ cell ∈ memory.others id Stored.handlers,
      memory'.handlers.contents cell = memory.handlers.contents cell)
    (hcontents' : ∀ cell ∈ memory.others id Stored.layers,
      memory'.layers.contents cell = memory.layers.contents cell)
    (hslot : Option.Rel (Represents hl memory') slot slot') :
    Tracks hl memory' (routers.set id slot') := by
  have hlt : id < memory.routers.length := by
    obtain ⟨hlt, -⟩ := List.getElem?_eq_some_iff.1 (Option.join_eq_some_iff.1 hid)
    exact hlt
  have hperm : ∀ cell : Stored Hd σ L → ℕ, ((slot.map cell).toList ++ memory.others id cell).Perm
      (handles cell memory'.routers) := by
    intro cell
    rw [hrouters]
    cases slot with
    | none => exact .refl _
    | some router' =>
      have hself : (memory.routers.set id (some router'))[id]?.join = some router' := by
        rw [List.getElem?_set_self hlt]
        rfl
      have hperm := handles_perm hself cell
      rw [List.set_set] at hperm
      exact hperm.symm
  refine ⟨hhandlers.perm (hperm _), hlayers.perm (hperm _), ?_, fun other ↦ ?_⟩
  · rw [hrouters, List.length_set, List.length_set, h.length_eq]
  · rw [Memory.router?, hrouters]
    -- Only the cells of this router were written, and the others do not share them.
    by_cases hother : id = other
    · rw [← hother, List.getElem?_set_self hlt, List.getElem?_set_self (h.length_eq ▸ hlt)]
      exact hslot
    · rw [List.getElem?_set_ne hother, List.getElem?_set_ne hother]
      have hmem : ∀ router, memory.routers[other]?.join = some router →
          (memory.routers.set id none)[other]?.join = some router := by
        intro router hrouter
        rw [List.getElem?_set_ne hother, hrouter]
      exact Represents.rel_congr (h.routers other)
        (fun router hrouter ↦ hcontents _ (mem_handles (hmem router hrouter) _))
        (fun router hrouter ↦ hcontents' _ (mem_handles (hmem router hrouter) _))

theorem set_router (hid : memory.router? id = some router) :
    memory.routers.set id (some router) = memory.routers := by
  obtain ⟨hlt, hrouter⟩ := List.getElem?_eq_some_iff.1 (Option.join_eq_some_iff.1 hid)
  rw [← hrouter, List.set_getElem_self]

/-- A router is added; nothing changes in the cells of the others. -/
theorem Tracks.append {memory' : Memory Hd σ L} {registered : Registered Hd σ L}
    (h : Tracks hl memory routers)
    (hrouters : memory'.routers = memory.routers ++ [some router])
    (hhandlers : memory'.handlers.Counted
      (router.handlers :: handles Stored.handlers memory.routers))
    (hlayers : memory'.layers.Counted (router.layers :: handles Stored.layers memory.routers))
    (hcontents : ∀ cell ∈ handles Stored.handlers memory.routers,
      memory'.handlers.contents cell = memory.handlers.contents cell)
    (hcontents' : ∀ cell ∈ handles Stored.layers memory.routers,
      memory'.layers.contents cell = memory.layers.contents cell)
    (hrouter : Represents hl memory' router registered) :
    Tracks hl memory' (routers ++ [some registered]) := by
  have hperm : ∀ cell : Stored Hd σ L → ℕ, (cell router :: handles cell memory.routers).Perm
      (handles cell memory'.routers) := by
    intro cell
    rw [hrouters, handles, handles, List.filterMap_append]
    exact (List.perm_append_singleton _ _).symm
  refine ⟨hhandlers.perm (hperm _), hlayers.perm (hperm _), ?_, fun other ↦ ?_⟩
  · rw [hrouters, List.length_append, List.length_append, h.length_eq]
    rfl
  · rw [Memory.router?, hrouters, List.getElem?_append, List.getElem?_append, h.length_eq]
    split_ifs
    · exact Represents.rel_congr (h.routers other)
        (fun router hrouter ↦ hcontents _ (mem_handles hrouter _))
        (fun router hrouter ↦ hcontents' _ (mem_handles hrouter _))
    · cases other - routers.length with
      | zero => exact .some hrouter
      | succ n => exact .none

theorem Tracks.counted_handlers (h : Tracks hl memory routers)
    (hid : memory.router? id = some router) :
    memory.handlers.Counted (router.handlers :: memory.others id Stored.handlers) :=
  h.handlers.perm (handles_perm hid _)

theorem Tracks.counted_layers (h : Tracks hl memory routers)
    (hid : memory.router? id = some router) :
    memory.layers.Counted (router.layers :: memory.others id Stored.layers) :=
  h.layers.perm (handles_perm hid _)

/-- A router that is there has registrations. -/
theorem Tracks.focus (h : Tracks hl memory routers) (hid : memory.router? id = some router) :
    ∃ registered, routers[id]?.join = some registered ∧ Represents hl memory router registered := by
  have hrel := h.routers id
  rw [hid] at hrel
  generalize routers[id]?.join = slot at hrel ⊢
  cases hrel with
  | some hrepr => exact ⟨_, rfl, hrepr⟩

/-- An operation on a router that is not there does nothing, here and there. -/
theorem Tracks.update (h : Tracks hl memory routers) {f : Stored Hd σ L → Memory Hd σ L}
    {g : Registered Hd σ L → Option (Registered Hd σ L)}
    (hsome : ∀ router registered, memory.router? id = some router →
      Represents hl memory router registered →
        Tracks hl (f router) (routers.set id (g registered))) :
    Tracks hl (match memory.router? id with | none => memory | some router => f router)
      (Registered.update routers id g) := by
  rw [Registered.update]
  cases hid : memory.router? id with
  | none =>
    have hrel := h.routers id
    rw [hid] at hrel
    generalize routers[id]?.join = slot at hrel ⊢
    cases hrel
    exact h
  | some router =>
    obtain ⟨registered, hregistered, hrepr⟩ := h.focus hid
    rw [hregistered]
    exact hsome router registered hid hrepr

theorem tracks_new (h : Tracks hl memory routers) (bound : Bool) :
    Tracks hl (memory.step hl (.new bound)) (Registered.step hl routers (.new bound)) :=
  h.append rfl (h.handlers.alloc _) (h.layers.alloc _)
    (fun _ hmem ↦ SharedCells.contents_alloc_of_mem h.handlers hmem _)
    (fun _ hmem ↦ SharedCells.contents_alloc_of_mem h.layers hmem _)
    { handlers := SharedCells.contents_alloc_self _ _
      layers := SharedCells.contents_alloc_self _ _
      allowMethods := rfl
      bound := rfl
      bakeable := fun hbakeable ↦ absurd hbakeable Bool.false_ne_true
      baked := fun _ hbuilt ↦ absurd hbuilt (Option.some_ne_none _).symm }

theorem tracks_on (h : Tracks hl memory routers) (id : ℕ) (filter : MethodFilter) (handler : Hd) :
    Tracks hl (memory.step hl (.on id filter handler))
      (Registered.step hl routers (.on id filter handler)) := by
  refine h.update fun router registered hid hrepr ↦ ?_
  let changed := memory.handlers.makeMut router.handlers (· ++ [(filter, .registered handler)])
  show Tracks hl (Memory.put { memory with handlers := changed.1 } id (some { router with
    handlers := changed.2, allowMethods := router.allowMethods.union filter, baked := none })) _
  have hlayers := h.counted_layers hid
  refine h.replace hid rfl ((h.counted_handlers hid).makeMut _) hlayers
    (fun _ hmem ↦ SharedCells.contents_makeMut_of_mem (h.counted_handlers hid) _ hmem)
    (fun _ _ ↦ rfl) (.some ?_)
  exact {
    handlers := (SharedCells.contents_makeMut_self _ _ _).trans (by rw [hrepr.handlers])
    layers := hrepr.layers
    allowMethods := by
      show router.allowMethods.union filter = _
      rw [hrepr.allowMethods, Registered.allowMethods, Registered.allowMethods, List.foldl_append]
      rfl
    bound := hrepr.bound
    bakeable := hrepr.bakeable
    baked := fun _ hbuilt ↦ absurd hbuilt (Option.some_ne_none _).symm }

/-- Layers are added. -/
theorem tracks_addLayers (h : Tracks hl memory routers) {id : ℕ} {router : Stored Hd σ L}
    {registered : Registered Hd σ L} (hid : memory.router? id = some router)
    (hrepr : Represents hl memory router registered) (extra : List L) :
    Tracks hl
      (Memory.put { memory with layers := (memory.layers.makeMut router.layers (· ++ extra)).1 } id
        (some { router with
          layers := (memory.layers.makeMut router.layers (· ++ extra)).2, baked := none }))
      (routers.set id (some { registered with layers := registered.layers ++ extra })) := by
  have hhandlers := h.counted_handlers hid
  refine h.replace hid rfl hhandlers ((h.counted_layers hid).makeMut _)
    (fun _ _ ↦ rfl)
    (fun _ hmem ↦ SharedCells.contents_makeMut_of_mem (h.counted_layers hid) _ hmem) (.some ?_)
  exact {
    handlers := hrepr.handlers
    layers := (SharedCells.contents_makeMut_self _ _ _).trans (by rw [hrepr.layers])
    allowMethods := hrepr.allowMethods
    bound := hrepr.bound
    bakeable := hrepr.bakeable
    baked := fun _ hbuilt ↦ absurd hbuilt (Option.some_ne_none _).symm }

theorem tracks_layer (h : Tracks hl memory routers) (id : ℕ) (layer : L) :
    Tracks hl (memory.step hl (.layer id layer)) (Registered.step hl routers (.layer id layer)) :=
  h.update fun _ _ hid hrepr ↦ tracks_addLayers h hid hrepr [layer]

theorem tracks_extendLayers (h : Tracks hl memory routers) (id : ℕ) (extra : List L) :
    Tracks hl (memory.step hl (.extendLayers id extra))
      (Registered.step hl routers (.extendLayers id extra)) := by
  refine h.update fun router registered hid hrepr ↦ ?_
  split_ifs with hextra
  · have hnil : registered.layers ++ extra = registered.layers := by
      rw [List.isEmpty_iff.1 hextra, List.append_nil]
    rw [hnil]
    exact h.replace hid (set_router hid).symm (h.counted_handlers hid) (h.counted_layers hid)
      (fun _ _ ↦ rfl) (fun _ _ ↦ rfl) (.some hrepr)
  · exact tracks_addLayers h hid hrepr extra

theorem tracks_withState (h : Tracks hl memory routers) (id : ℕ) (state : σ) :
    Tracks hl (memory.step hl (.withState id state))
      (Registered.step hl routers (.withState id state)) := by
  refine h.update fun router registered hid hrepr ↦ ?_
  have hlayers := h.counted_layers hid
  have hreleased := (h.counted_handlers hid).release
  refine h.replace hid rfl (hreleased.alloc _) hlayers
    (fun _ hmem ↦ SharedCells.contents_alloc_of_mem hreleased hmem _) (fun _ _ ↦ rfl) (.some ?_)
  exact {
    handlers := (SharedCells.contents_alloc_self _ _).trans
      (by rw [hrepr.handlers, Memory.stateFor, hrepr.bound])
    layers := hrepr.layers
    allowMethods := by
      rw [Registered.allowMethods, List.foldl_map]
      exact hrepr.allowMethods
    bound := rfl
    bakeable := fun _ ↦ rfl
    baked := fun _ hbuilt ↦ absurd hbuilt (Option.some_ne_none _).symm }

theorem tracks_clone (h : Tracks hl memory routers) (id : ℕ) :
    Tracks hl (memory.step hl (.clone id)) (Registered.step hl routers (.clone id)) := by
  rw [Memory.step, Registered.step]
  cases hid : memory.router? id with
  | none =>
    have hrel := h.routers id
    rw [hid] at hrel
    generalize routers[id]?.join = slot at hrel ⊢
    cases hrel
    exact h
  | some router =>
    obtain ⟨registered, hregistered, hrepr⟩ := h.focus hid
    rw [hregistered]
    exact h.append rfl (h.handlers.retain (mem_handles hid _))
      (h.layers.retain (mem_handles hid _)) (fun _ _ ↦ rfl) (fun _ _ ↦ rfl)
      { hrepr with
        bakeable := fun hbakeable ↦ absurd hbakeable Bool.false_ne_true
        baked := fun _ hbuilt ↦ absurd hbuilt (Option.some_ne_none _).symm }

theorem tracks_drop (h : Tracks hl memory routers) (id : ℕ) :
    Tracks hl (memory.step hl (.drop id)) (Registered.step hl routers (.drop id)) :=
  h.update fun _ _ hid _ ↦ h.replace hid rfl (h.counted_handlers hid).release
    (h.counted_layers hid).release (fun _ _ ↦ rfl) (fun _ _ ↦ rfl) .none

theorem tracks_call (h : Tracks hl memory routers) (id : ℕ) (state : σ) :
    Tracks hl (memory.step hl (.call id state)) (Registered.step hl routers (.call id state)) := by
  rw [Memory.step, Registered.step]
  cases hid : memory.router? id with
  | none => exact h
  | some router =>
    obtain ⟨registered, hregistered, hrepr⟩ := h.focus hid
    have hself : routers.set id (some registered) = routers := by
      obtain ⟨hlt, hrouter⟩ := List.getElem?_eq_some_iff.1 (Option.join_eq_some_iff.1 hregistered)
      rw [← hrouter, List.set_getElem_self]
    rw [← hself]
    have hhandlers := h.counted_handlers hid
    have hlayers := h.counted_layers hid
    refine h.replace hid rfl hhandlers hlayers (fun _ _ ↦ rfl) (fun _ _ ↦ rfl) (.some ?_)
    refine { hrepr with baked := fun built hbuilt ↦ ?_ }
    rcases Option.or_eq_some_iff.1 hbuilt with hbuilt | ⟨-, hbuilt⟩
    · exact (hrepr.bakedStacks hbuilt).2
    · exact hrepr.baked built hbuilt

theorem tracks_step (h : Tracks hl memory routers) (op : Op Hd σ L) :
    Tracks hl (memory.step hl op) (Registered.step hl routers op) := by
  cases op with
  | new bound => exact tracks_new h bound
  | on id filter handler => exact tracks_on h id filter handler
  | layer id layer => exact tracks_layer h id layer
  | extendLayers id extra => exact tracks_extendLayers h id extra
  | withState id state => exact tracks_withState h id state
  | clone id => exact tracks_clone h id
  | drop id => exact tracks_drop h id
  | call id state => exact tracks_call h id state

theorem tracks_foldl (h : Tracks hl memory routers) (ops : List (Op Hd σ L)) :
    Tracks hl (ops.foldl (Memory.step hl) memory) (ops.foldl (Registered.step hl) routers) := by
  induction ops generalizing memory routers with
  | nil => exact h
  | cons op ops ih => exact ih (tracks_step h op)

/-- **Whatever a program does, memory represents what it registered.** One operation changes one
router on both sides, and the others are not touched or not changed. -/
theorem tracks_run (hl : Handling H E B m Hd σ L) (ops : List (Op Hd σ L)) :
    Tracks hl (Memory.run hl ops) (Registered.run hl ops) :=
  tracks_foldl ⟨SharedCells.counted_empty, SharedCells.counted_empty, rfl, fun _ ↦ .none⟩ ops

theorem Represents.takes {registered : Registered Hd σ L}
    (h : Represents hl memory router registered) (method : Method) (filter : MethodFilter) :
    (memory.view router).takes method filter = registered.accepts method filter := by
  have hhead : router.allowMethods.contains .head =
      registered.handlers.any fun p ↦ p.1.contains .head := by
    rw [h.allowMethods]
    exact registered.contains_allowMethods .head
  rw [MethodRouter.takes, Registered.accepts, Memory.view, hhead]

end Invariant

section Answer

variable [Multimap H HeaderName HeaderValue] [Extensions E] [FromBytes B] [Monad m]
  {hl : Handling H E B m Hd σ L} {memory : Memory Hd σ L} {router : Stored Hd σ L}
  {registered : Registered Hd σ L}

/-- The kept handlers, the handler alone and the handler built for the request answer alike. -/
theorem Represents.call (h : Represents hl memory router registered) (state : σ)
    (req : Request H E B) : memory.call hl router state req = registered.answer hl state req := by
  have hstate : Memory.stateFor hl router state = if registered.bound then hl.unit else state := by
    rw [Memory.stateFor, h.bound]
  -- The handlers are searched with their places, which are those of the baked stacks.
  have haccepts : (registered.handlers.find? fun p ↦ registered.accepts req.method p.1) =
      (registered.handlers.zipIdx.find? fun entry ↦
        registered.accepts req.method entry.1.1).map Prod.fst := by
    conv_lhs => rw [← List.zipIdx_map_fst 0 registered.handlers, List.find?_map]
    rfl
  have hnotAllowed : (memory.view router).methodNotAllowed =
      ((MethodRouter.mk registered.handlers registered.allowMethods registered.layers none
        false).methodNotAllowed : Response H E B) := by
    rw [MethodRouter.methodNotAllowed, Memory.view, h.allowMethods]
    rfl
  rw [Memory.call, Registered.answer, haccepts, ← hstate, hnotAllowed, h.handlers, h.layers]
  simp only [h.takes]
  cases hfind : registered.handlers.zipIdx.find? fun entry ↦
      registered.accepts req.method entry.1.1 with
  | none => rfl
  | some entry =>
    obtain ⟨⟨filter, handler⟩, idx⟩ := entry
    have hidx : registered.handlers[idx]? = some (filter, handler) :=
      List.mem_zipIdx_iff_getElem?.1 (List.mem_of_find?_eq_some hfind)
    show (match (memory.bakedStacks router (Memory.stateFor hl router state)).bind
        fun stack ↦ stack[idx]?.join with
      | some (handler, state, layers) =>
        applyLayers (hl.runtime state) (handler.call hl state) layers req
      | none =>
        if registered.layers.isEmpty then handler.call hl (Memory.stateFor hl router state) req
        else applyLayers (hl.runtime (Memory.stateFor hl router state))
          (handler.call hl (Memory.stateFor hl router state)) registered.layers req) =
      Layering.applyAll hl.layer (handler.call hl (Memory.stateFor hl router state))
        registered.layers req
    cases hbuilt : memory.bakedStacks router (Memory.stateFor hl router state) with
    | some built =>
      obtain ⟨hunit, hbuilt⟩ := h.bakedStacks hbuilt
      -- A baked stack was made from this handler, with these layers and the unit state.
      have hat : built[idx]?.join = some (handler, hl.unit, registered.layers) := by
        rw [hbuilt, List.getElem?_map, hidx]
        rfl
      rw [Option.bind_some, hat, hunit]
      rfl
    | none =>
      show (if registered.layers.isEmpty then _ else _) = _
      split_ifs with hlayers
      · rw [List.isEmpty_iff.1 hlayers]
        rfl
      · rfl

/-- **Kept handlers are transparent**: after any operations on any routers, every router answers
every request as its registrations say, and what it keeps is built from them. -/
theorem answer_run (hl : Handling H E B m Hd σ L) (ops : List (Op Hd σ L)) (id : ℕ) :
    Option.Rel
      (fun router registered ↦
        (∀ state req, (Memory.run hl ops).call hl router state req =
          registered.answer hl state req) ∧
        ∀ built, router.baked = some built → built = registered.handlers.map fun p ↦
          some (p.2, hl.unit, registered.layers))
      ((Memory.run hl ops).router? id) (Registered.run hl ops)[id]?.join := by
  have hrel := (tracks_run hl ops).routers id
  generalize (Memory.run hl ops).router? id = slot at hrel ⊢
  generalize (Registered.run hl ops)[id]?.join = slot' at hrel ⊢
  cases hrel with
  | none => exact .none
  | some hrepr => exact .some ⟨hrepr.call, hrepr.baked⟩

end Answer

end SharedRouters
