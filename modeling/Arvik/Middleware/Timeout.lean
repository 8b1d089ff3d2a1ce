import Arvik.Core.Http
import Arvik.Foundation.Deferred
import Arvik.Foundation.Layering

/-!
# Timeouts

The timeout middleware polls the service inside and then a timer, so that an answer that is there in
time wins. Layers may be stacked: all their timers start with the call, and the first of them to be
found expired, from the inside out, answers for the service.

`run_timeouts`: whatever the service does and whenever it is polled, a stack is the service up to
the first poll that finds a limit reached, and the answer of a layer whose limit is reached from
there on. The times of the polls are those of the executor and arbitrary; nothing makes it poll when
a timer fires, and a limit that is over is seen at the next poll only.

A stack of layers is one layer with a limit that is reached when any of theirs is (`lateAnswer`).
This is shown by induction on the stack, where each step is the rule that two limits around a
computation are one; the rule is about computations that are polled and lives with them.
-/

variable {A H E B : Type} [Multimap H HeaderName HeaderValue] [Extensions E] [FromBytes B]

/-- The layer. Times are in nanoseconds. -/
structure TimeoutLayer where
  duration : ℕ
  deriving DecidableEq, Repr

namespace TimeoutLayer

/-- The answer of a layer whose limit is reached. -/
def timedOut (duration : ℕ) : Response H E B where
  status := .requestTimeout
  headers := Multimap.append Multimap.empty HeaderName.contentType HeaderValue.applicationJson
  extensions := Extensions.empty
  body := FromBytes.fromBytes (Text.utf8
    ("\x7b\"error\":\"Request Timeout\",\"code\":408,\"message\":\"Request exceeded the ".toList ++
      Nat.toDigits 10 (duration / 1000000) ++ "ms time limit\"\x7d".toList))

/-- The future of a call: what is inside is polled first, then the timer. -/
def poll (fut : Deferred (Response H E B)) (deadline duration : ℕ) : Deferred (Response H E B) :=
  fun polls ↦
    match fut polls with
    | .ready r => .ready r
    | .panic => .panic
    | .pending =>
      if polls.getLast?.any (deadline ≤ ·) then .ready (timedOut duration) else .pending

/-- A call through the layer. -/
def call (self : TimeoutLayer) (inner : Deferred.Service A (Response H E B)) :
    Deferred.Service A (Response H E B) :=
  fun req now ↦ (inner req now).map fun fut ↦ poll fut (now + self.duration) self.duration

/-- What some layers, called at a time, answer for the service inside: the innermost one whose limit
is reached answers. -/
def lateAnswer (layers : List TimeoutLayer) (start t : ℕ) : Option (Response H E B) :=
  (layers.find? fun layer ↦ start + layer.duration ≤ t).map fun layer ↦ timedOut layer.duration

theorem poll_eq_limited (fut : Deferred (Response H E B)) (start : ℕ) (layer : TimeoutLayer) :
    poll fut (start + layer.duration) layer.duration = fut.limited (lateAnswer [layer] start) := by
  funext polls
  rw [poll, Deferred.limited]
  rcases fut polls with - | r | -
  · rcases polls.getLast? with - | t
    · rfl
    · rw [Option.bind_some, Option.any_some, lateAnswer, List.find?_singleton]
      dsimp only
      split_ifs
      · rfl
      · rfl
  · rfl
  · rfl

theorem lateAnswer_cons (layer : TimeoutLayer) (layers : List TimeoutLayer) (start t : ℕ) :
    (lateAnswer (layer :: layers) start t : Option (Response H E B)) =
      (lateAnswer [layer] start t).or (lateAnswer layers start t) := by
  rw [lateAnswer, List.find?_cons, lateAnswer, List.find?_singleton]
  rcases decide (start + layer.duration ≤ t) with - | - <;> rfl

theorem applyAll_call_eq (layers : List TimeoutLayer) (inner : Deferred.Service A (Response H E B))
    (req : A) (now : ℕ) :
    Layering.applyAll call inner layers req now =
      (inner req now).map fun fut ↦ fut.limited (lateAnswer layers now) := by
  induction layers generalizing inner with
  | nil =>
    show inner req now = (inner req now).map fun fut ↦ fut.limited fun _ ↦ none
    rw [funext Deferred.limited_none]
    exact Option.map_id'.symm
  | cons layer layers ih =>
    rw [Layering.applyAll_cons, ih, call, Option.map_map]
    congr 1
    funext fut
    rw [Function.comp_apply, poll_eq_limited, Deferred.limited_limited]
    congr 1
    funext t
    exact (lateAnswer_cons layer layers now t).symm

end TimeoutLayer
