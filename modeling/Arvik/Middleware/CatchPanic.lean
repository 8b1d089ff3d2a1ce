import Arvik.Middleware.Timeout

/-!
# Panics

The panic guard polls the service inside, and turns a panic of a poll into a response. The service
is called within the guarded future, when that is polled first, but its call is no part of what is
guarded: if the call itself panics, so does the guard.

So what a stack of guards and timeouts keeps from its caller depends on the services that it may be
put around (`contains_iff`): for services that never panic in the call, one guard with a working
handler is enough; for all services it takes such a guard around another one. A handler of a guard
is code of the application and may panic itself, so a guard is only worth something if its handler
answers.

Calls and polls are treated apart. Each layer is described by what it makes of a service that may
panic in the call, and of one that may panic in a poll: a guard turns the first into the second, and
the second into a response. A stack is then a matter of its layers from the inside out, and the
converse takes services that do nothing else but panic.
-/

variable {A H E B : Type} [Multimap H HeaderName HeaderValue] [Extensions E] [FromBytes B]

/-- The panic guard. A handler may itself panic, and then has no response. -/
structure CatchPanicLayer (H E B : Type) where
  panicHandler : Option (Unit → Option (Response H E B)) := none

namespace CatchPanicLayer

def defaultPanicResponse : Response H E B where
  status := .internalServerError
  headers := Multimap.append Multimap.empty HeaderName.contentType HeaderValue.applicationJson
  extensions := Extensions.empty
  body := FromBytes.fromBytes
    (Text.utf8 "\x7b\"error\":\"Internal Server Error\",\"code\":500\x7d".toList)

/-- The response to a panic. -/
def respond (self : CatchPanicLayer H E B) : Option (Response H E B) :=
  match self.panicHandler with
  | some handler => handler ()
  | none => some defaultPanicResponse

/-- A call through the layer. The service inside is called at the first poll. -/
def call (self : CatchPanicLayer H E B) (inner : Deferred.Service A (Response H E B)) :
    Deferred.Service A (Response H E B) :=
  fun req _ ↦ some fun polls ↦
    match polls with
    | [] => .pending
    | first :: _ =>
      match inner req first with
      | none => .panic
      | some fut =>
        match fut polls with
        | .ready r => .ready r
        | .pending => .pending
        | .panic => self.respond.elim .panic .ready

end CatchPanicLayer

/-! ### Stacks of guards and timeouts -/

/-- A layer of either kind. -/
inductive GuardLayer (H E B : Type)
  | timeout (layer : TimeoutLayer)
  | catchPanic (layer : CatchPanicLayer H E B)

namespace GuardLayer

def call (layer : GuardLayer H E B) (inner : Deferred.Service A (Response H E B)) :
    Deferred.Service A (Response H E B) :=
  match layer with
  | timeout layer => layer.call inner
  | catchPanic layer => layer.call inner

/-- A service inside some layers, the first one innermost. -/
def stack (layers : List (GuardLayer H E B)) (inner : Deferred.Service A (Response H E B)) :
    Deferred.Service A (Response H E B) :=
  Layering.applyAll call inner layers

/-- The panic guards of a stack, from the inside out. -/
def guards (layers : List (GuardLayer H E B)) : List (CatchPanicLayer H E B) :=
  layers.filterMap fun
    | timeout _ => none
    | catchPanic layer => some layer

end GuardLayer

/-! ### Services that panic -/

namespace Deferred.Service

variable {R : Type}

/-- A panic reaches the caller of a service, that starts a call at a time and polls at times. -/
def Escapes (svc : Deferred.Service A R) (req : A) (now : ℕ) (ts : List ℕ) : Prop :=
  ∀ fut ∈ svc req now, fut.run ts = .panic

/-- No call panics. -/
def NoCallPanic (svc : Deferred.Service A R) : Prop :=
  ∀ req now, svc req now ≠ none

/-- No poll panics. -/
def NoPollPanic (svc : Deferred.Service A R) : Prop :=
  ∀ req now, ∀ fut ∈ svc req now, ∀ polls, fut polls ≠ .panic

/-- Every call panics. -/
def CallPanics (svc : Deferred.Service A R) : Prop :=
  ∀ req now, svc req now = none

/-- Every first poll panics. -/
def PollPanics (svc : Deferred.Service A R) : Prop :=
  ∀ req now, ∃ fut, svc req now = some fut ∧ ∀ t, fut [t] = .panic

/-- A service without panics has none that escapes. -/
theorem not_escapes {svc : Service A R} (hcall : svc.NoCallPanic) (hpoll : svc.NoPollPanic)
    (req : A) (now : ℕ) (ts : List ℕ) : ¬svc.Escapes req now ts := by
  intro h
  obtain ⟨fut, hfut⟩ := Option.ne_none_iff_exists'.1 (hcall req now)
  obtain ⟨polls, hpolls⟩ := Deferred.exists_of_run_eq_panic (h fut hfut)
  exact hpoll req now fut hfut polls hpolls

theorem escapes_of_callPanics {svc : Service A R} (h : svc.CallPanics) (req : A) (now : ℕ)
    (ts : List ℕ) : svc.Escapes req now ts :=
  fun _ hfut ↦ nomatch (h req now).symm.trans hfut

theorem escapes_of_pollPanics {svc : Service A R} (h : svc.PollPanics) (req : A) (now t : ℕ) :
    svc.Escapes req now [t] := fun fut hfut ↦ by
  obtain ⟨fut', hfut', hpanic⟩ := h req now
  obtain rfl := Option.some.inj (hfut'.symm.trans hfut)
  rw [Deferred.run_singleton]
  exact hpanic t

end Deferred.Service

/-! ### What a layer does to panics -/

section Layers

variable {inner : Deferred.Service A (Response H E B)}

namespace TimeoutLayer

theorem noCallPanic_call (self : TimeoutLayer) (h : inner.NoCallPanic) :
    (self.call inner).NoCallPanic := fun req now ↦ by
  rw [call, ne_eq, Option.map_eq_none_iff]
  exact h req now

theorem noPollPanic_call (self : TimeoutLayer) (h : inner.NoPollPanic) :
    (self.call inner).NoPollPanic := fun req now fut hfut polls ↦ by
  obtain ⟨fut', hfut', rfl⟩ := Option.map_eq_some_iff.1 hfut
  have hinner := h req now fut' hfut' polls
  rw [poll]
  rcases hpoll : fut' polls with - | r | -
  · intro hpanic
    dsimp only at hpanic
    split_ifs at hpanic
  · intro hpanic
    cases hpanic
  · exact absurd hpoll hinner

theorem callPanics_call (self : TimeoutLayer) (h : inner.CallPanics) :
    (self.call inner).CallPanics := fun req now ↦ by
  rw [call, h req now, Option.map_none]

theorem pollPanics_call (self : TimeoutLayer) (h : inner.PollPanics) :
    (self.call inner).PollPanics := fun req now ↦ by
  obtain ⟨fut, hfut, hpanic⟩ := h req now
  refine ⟨_, by rw [call, hfut, Option.map_some], fun t ↦ ?_⟩
  rw [poll, hpanic t]

end TimeoutLayer

namespace CatchPanicLayer

theorem noCallPanic_call (self : CatchPanicLayer H E B) : (self.call inner).NoCallPanic :=
  fun _ _ ↦ nofun

/-- A guard keeps a service free of panics, and makes it so if it has a response to them. -/
theorem noPollPanic_call (self : CatchPanicLayer H E B) (hcall : inner.NoCallPanic)
    (h : inner.NoPollPanic ∨ self.respond.isSome) : (self.call inner).NoPollPanic := by
  intro req now fut hfut polls
  obtain rfl := Option.some.inj hfut
  rcases polls with - | ⟨first, rest⟩
  · nofun
  · obtain ⟨fut, hfut⟩ := Option.ne_none_iff_exists'.1 (hcall req first)
    dsimp only
    rw [hfut]
    dsimp only
    rcases hpoll : fut (first :: rest) with - | r | -
    · nofun
    · nofun
    · rcases h with h | h
      · exact absurd hpoll (h req first fut hfut _)
      · obtain ⟨r, hr⟩ := Option.isSome_iff_exists.1 h
        rw [hr]
        nofun

/-- A panic of the call is a panic of the guard's first poll. -/
theorem pollPanics_call_of_callPanics (self : CatchPanicLayer H E B) (h : inner.CallPanics) :
    (self.call inner).PollPanics := fun req now ↦ by
  refine ⟨_, rfl, fun t ↦ ?_⟩
  dsimp only
  rw [h req t]

theorem pollPanics_call (self : CatchPanicLayer H E B) (h : inner.PollPanics)
    (hrespond : self.respond = none) : (self.call inner).PollPanics := fun req now ↦ by
  refine ⟨_, rfl, fun t ↦ ?_⟩
  obtain ⟨fut, hfut, hpanic⟩ := h req t
  dsimp only
  rw [hfut]
  dsimp only
  rw [hpanic t, hrespond]
  rfl

end CatchPanicLayer

end Layers

/-! ### What a stack does to panics -/

namespace GuardLayer

variable {inner : Deferred.Service A (Response H E B)} {layers : List (GuardLayer H E B)}

/-- Free of panics is a stack around a service that never panics in the call, if there is nothing to
catch or a guard that catches. -/
theorem noPollPanic_stack (hcall : inner.NoCallPanic)
    (h : inner.NoPollPanic ∨ ∃ guard ∈ guards layers, guard.respond.isSome) :
    (stack layers inner).NoCallPanic ∧
      (stack layers inner).NoPollPanic := by
  induction layers generalizing inner with
  | nil => exact ⟨hcall, h.resolve_right fun ⟨_, hmem, _⟩ ↦ nomatch hmem⟩
  | cons layer layers ih =>
    rw [stack, Layering.applyAll_cons]
    rcases layer with layer | layer
    · exact ih (layer.noCallPanic_call hcall) (h.imp_left layer.noPollPanic_call)
    · refine ih layer.noCallPanic_call ?_
      rcases h with h | ⟨guard, hmem, hguard⟩
      · exact .inl (layer.noPollPanic_call hcall (.inl h))
      · rcases List.mem_cons.1 hmem with rfl | hmem
        · exact .inl (guard.noPollPanic_call hcall (.inr hguard))
        · exact .inr ⟨guard, hmem, hguard⟩

/-- Around a call that may panic it takes one guard that makes a poll of it, and another one. -/
theorem noPollPanic_stack_of_tail
    (h : ∃ guard ∈ (guards layers).tail, guard.respond.isSome) :
    (stack layers inner).NoCallPanic ∧
      (stack layers inner).NoPollPanic := by
  induction layers generalizing inner with
  | nil =>
    obtain ⟨_, hmem, _⟩ := h
    exact nomatch hmem
  | cons layer layers ih =>
    rcases layer with layer | layer
    · exact ih h
    · show (stack layers (layer.call inner)).NoCallPanic ∧ _
      exact noPollPanic_stack layer.noCallPanic_call (.inr h)

theorem pollPanics_stack (hinner : inner.PollPanics)
    (h : ∀ guard ∈ guards layers, guard.respond = none) :
    (stack layers inner).PollPanics := by
  refine Layering.applyAll_induction hinner fun layer hlayer f hf ↦ ?_
  rcases layer with layer | layer
  · exact layer.pollPanics_call hf
  · exact layer.pollPanics_call hf (h layer (List.mem_filterMap.2 ⟨_, hlayer, rfl⟩))

theorem panics_stack (hinner : inner.CallPanics)
    (h : ∀ guard ∈ (guards layers).tail, guard.respond = none) :
    (stack layers inner).CallPanics ∨
      (stack layers inner).PollPanics := by
  induction layers generalizing inner with
  | nil => exact .inl hinner
  | cons layer layers ih =>
    rcases layer with layer | layer
    · exact ih (layer.callPanics_call hinner) h
    · right
      show (stack layers (layer.call inner)).PollPanics
      exact pollPanics_stack (layer.pollPanics_call_of_callPanics hinner) h

theorem forall_respond_eq_none {guards : List (CatchPanicLayer H E B)}
    (h : ¬∃ guard ∈ guards, guard.respond.isSome) : ∀ guard ∈ guards, guard.respond = none :=
  fun guard hguard ↦ Option.not_isSome_iff_eq_none.1 fun hsome ↦ h ⟨guard, hguard, hsome⟩

/-- **Which panics a stack of guards and timeouts contains.** Around all services that do not panic
in the call, it is those of a stack with a guard whose handler has a response. Around all services
there are, the innermost guard does not count. -/
theorem contains_iff (layers : List (GuardLayer H E B)) :
    ((∀ inner : Deferred.Service (Request H E B) (Response H E B), inner.NoCallPanic →
        ∀ req now ts, ¬(stack layers inner).Escapes req now ts) ↔
      ∃ guard ∈ guards layers, guard.respond.isSome) ∧
    ((∀ inner : Deferred.Service (Request H E B) (Response H E B),
        ∀ req now ts, ¬(stack layers inner).Escapes req now ts) ↔
      ∃ guard ∈ (guards layers).tail, guard.respond.isSome) := by
  let req : Request H E B :=
    .new ⟨.get, { path := ['/'] }, Multimap.empty, Extensions.empty, FromBytes.empty, .http11⟩
  refine ⟨⟨fun h ↦ ?_, fun h inner hcall req now ts ↦ ?_⟩,
    ⟨fun h ↦ ?_, fun h inner req now ts ↦ ?_⟩⟩
  · by_contra hnone
    refine h (fun _ _ ↦ some fun _ ↦ .panic) (fun _ _ ↦ nofun) req 0 [0] ?_
    exact Deferred.Service.escapes_of_pollPanics
      (pollPanics_stack (fun _ _ ↦ ⟨_, rfl, fun _ ↦ rfl⟩) (forall_respond_eq_none hnone)) _ _ _
  · obtain ⟨hcall, hpoll⟩ := noPollPanic_stack hcall (.inr h)
    exact Deferred.Service.not_escapes hcall hpoll req now ts
  · by_contra hnone
    refine h (fun _ _ ↦ none) req 0 [0] ?_
    rcases panics_stack (fun _ _ ↦ rfl) (forall_respond_eq_none hnone) with hpanics | hpanics
    · exact Deferred.Service.escapes_of_callPanics hpanics _ _ _
    · exact Deferred.Service.escapes_of_pollPanics hpanics _ _ _
  · obtain ⟨hcall, hpoll⟩ := noPollPanic_stack_of_tail h
    exact Deferred.Service.not_escapes hcall hpoll req now ts

end GuardLayer
