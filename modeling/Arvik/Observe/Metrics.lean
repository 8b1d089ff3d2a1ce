import Arvik.Core.Body
import Arvik.Foundation.Binary64
import Arvik.Foundation.Tally
import Arvik.Foundation.Transition
import Arvik.Router.Params
import Mathlib.Algebra.Ring.Int.Defs
import Mathlib.Algebra.Ring.Nat

/-!
# Metrics

The metrics service counts a request in when it is called, and out again when the future of its
response completes or is dropped; on completion it records the request under the labels of the
response. With body sizes recorded, the request body is counted while it is read, and so is a
response body whose size hint is not exact: its size is recorded once it has ended, failed or been
dropped, whichever comes first.

## The system

Requests, the service inside and the readers of bodies interleave as they like, and all share one
registry. An event calls the service or lets one of the exchanges so far make a move: its future is
polled or dropped, its request body is read, its response body is read or dropped. Nothing is
assumed about the order, and any number of services with settings of their own may share the
registry. A panic of the service inside drops the future, and is not told apart from a drop.

## What the registry is to hold

`Accounts` says what the registry is to hold at any time, computed from the exchanges alone:
`accounts_of_run` is that it does. The proof is an account for each metric in the sense of
`Tally.Accounts`. One exchange moves at a time, so it suffices that what a move adds to the registry
is what the exchange contributes more than before (`Moves`). What keeps the sizes right is that a
counting body is finished at most once, in one of three places (`Stream.Steps`).

Where body sizes are not recorded there are none. A size is counted in 64 bits and recorded in
double precision, so it is exact up to `2 ^ 53` and need not be after that (`not_accounts_size`).
-/

namespace Observe

/-- The labels of a series, in the order of `LABELS`. -/
structure Labels where
  method : Str
  route : Str
  status : Str
  service : Str
  version : Str
  environment : Str
  deriving DecidableEq

/-- The labels that are the same for all requests. -/
structure StaticLabels where
  service : Str := "unknown".toList
  version : Str := "unknown".toList
  environment : Str := "unknown".toList

def StaticLabels.values (self : StaticLabels) (method route status : Str) : Labels :=
  ⟨method, route, status, self.service, self.version, self.environment⟩

def pendingRoute : Str := "__pending".toList
def unknownRoute : Str := "__unknown".toList

/-- The metric families. A histogram is the multiset of its samples. A size is in double precision;
a duration is kept as the nanoseconds its sample is computed from. -/
structure MetricsRegistry where
  requestsTotal : Tally Labels ℕ := .empty
  requestDuration : Tally Labels (Multiset ℕ) := .empty
  requestsInFlight : Tally Labels ℤ := .empty
  responseBodySize : Tally Labels (Multiset ℕ) := .empty
  requestBodySize : Tally Labels (Multiset ℕ) := .empty

/-- The metrics service, apart from the registry and the service inside. -/
structure PrometheusMetricsService where
  labels : StaticLabels := {}
  recordBodySizes : Bool := true

/-! ### Counted bodies -/

variable {H E B : Type}

/-- The answer to one poll of a body. -/
inductive Answer (H : Type)
  | pending
  | frame (frame : Frame H)
  | error (e : BoxError)
  | done

/-- A body that counts the data that passes, apart from the body inside. The observer is told the
count; the labels are those it records under. -/
structure CountingBody where
  bytes : UInt64 := 0
  observer : Option Labels
  finished : Bool := false

namespace CountingBody

/-- The body is over: what the observer is told, the first time. -/
def finish (self : CountingBody) : CountingBody × Option (Labels × UInt64) :=
  if self.finished then (self, none)
  else ({ self with finished := true }, self.observer.map fun values ↦ (values, self.bytes))

/-- One poll, answered by the body inside. -/
def pollFrame (self : CountingBody) : Answer H → CountingBody × Option (Labels × UInt64)
  | .frame (.data bytes) => ({ self with bytes := self.bytes + UInt64.ofNat bytes.length }, none)
  | .frame (.trailers _) => (self, none)
  | .error _ => self.finish
  | .done => self.finish
  | .pending => (self, none)

end CountingBody

/-- A response body without an exact size, and what its reader has met so far. -/
structure Stream (H : Type) where
  /-- The body counting what is read, if body sizes are recorded. -/
  wrapper : Option CountingBody
  answers : List (Answer H) := []
  dropped : Bool := false

namespace Stream

/-- The reader polls the body. -/
def poll (self : Stream H) (answer : Answer H) : Stream H × Option (Labels × UInt64) :=
  let polled := self.wrapper.map fun body ↦ body.pollFrame answer
  ({ self with wrapper := polled.map Prod.fst, answers := self.answers ++ [answer] },
    polled.bind Prod.snd)

/-- The reader drops the body. -/
def drop (self : Stream H) : Stream H × Option (Labels × UInt64) :=
  let finished := self.wrapper.map CountingBody.finish
  ({ self with wrapper := finished.map Prod.fst, dropped := true }, finished.bind Prod.snd)

end Stream

/-! ### The service -/

/-- The guard of a request in flight. -/
structure InFlightGuard where
  gauge : Labels
  active : Bool := true

/-- The body of a response. -/
inductive Payload (H : Type)
  | exact (len : ℕ)
  | streamed (stream : Stream H)

/-- The future of a response. -/
inductive Future (H : Type)
  /-- Not ready yet; it has a start once it was polled. -/
  | pending (guard : InFlightGuard) (start : Option ℕ)
  | completed (values : Labels) (elapsed : ℕ) (payload : Payload H)
  | dropped

/-- A request to the service, from the call on. -/
structure Exchange (H : Type) where
  service : PrometheusMetricsService
  method : Str
  /-- The body counting what is read of the request, if body sizes are recorded. -/
  requestBody : Option CountingBody
  future : Future H

namespace MetricsRegistry

/-- The observer of a response body records its size. -/
def observe (self : MetricsRegistry) (observed : Option (Labels × UInt64)) : MetricsRegistry :=
  { self with
    responseBodySize := self.responseBodySize.post (observed.map fun p ↦
      (p.1, {Binary64.round p.2.toNat})) }

/-- The drop of a guard. -/
def dropGuard (self : MetricsRegistry) (guard : InFlightGuard) : MetricsRegistry :=
  if guard.active then
    { self with requestsInFlight := self.requestsInFlight.add guard.gauge (-1) }
  else self

end MetricsRegistry

/-- The registry and all requests, in the order of their calls. Requests that are over stay in the
list, since the totals of the registry are sums over all of them. -/
structure State (H : Type) where
  registry : MetricsRegistry := {}
  exchanges : List (Exchange H) := []

/-- The service is called. -/
def State.call (s : State H) (service : PrometheusMetricsService) (req : Request H E B) :
    State H :=
  let requestBody : Option CountingBody :=
    if service.recordBodySizes then some { observer := none } else none
  let method := req.method.asStr
  let pendingValues := service.labels.values method pendingRoute "pending".toList
  { registry := { s.registry with
      requestsInFlight := s.registry.requestsInFlight.add pendingValues 1 }
    exchanges := s.exchanges ++
      [{ service, method, requestBody, future := .pending { gauge := pendingValues } none }] }

section Complete

variable [Extensions E] [Extensions.Slot E MatchedPathExt] (sizeHint : B → SizeHint)

/-- The route a response says it came by. -/
def matchedRoute (extensions : E) : Str :=
  ((Extensions.Slot.get extensions : Option MatchedPathExt).map MatchedPathExt.path).getD
    unknownRoute

/-- The service inside has answered. -/
def complete (registry : MetricsRegistry) (x : Exchange H) (guard : InFlightGuard) (elapsed : ℕ)
    (response : Response H E B) : MetricsRegistry × Future H :=
  let values := x.service.labels.values x.method (matchedRoute response.extensions)
    response.status.asStr
  let registry := { registry with
    requestsTotal := registry.requestsTotal.add values 1
    requestDuration := registry.requestDuration.add values {elapsed} }
  if x.service.recordBodySizes then
    let requestLen := (x.requestBody.map CountingBody.bytes).getD 0
    let registry := { registry with
      requestBodySize := registry.requestBodySize.add values
        {Binary64.round requestLen.toNat} }
    match (sizeHint response.body).exact with
    | some len =>
      let registry := { registry with
        responseBodySize := registry.responseBodySize.add values {Binary64.round len} }
      (registry.dropGuard guard, .completed values elapsed (.exact len))
    -- the size of a streamed body is observed when the body ends
    | none =>
      (registry.dropGuard guard,
        .completed values elapsed (.streamed { wrapper := some { observer := some values } }))
  else
    (registry.dropGuard guard, .completed values elapsed <|
      match (sizeHint response.body).exact with
      | some len => .exact len
      | none => .streamed { wrapper := none })

end Complete

/-- The service inside polls the request body. -/
def Exchange.pollRequestBody (x : Exchange H) (answer : Answer H) :
    Exchange H × Option (Labels × UInt64) :=
  let polled := x.requestBody.map fun body ↦ body.pollFrame answer
  ({ x with requestBody := polled.map Prod.fst }, polled.bind Prod.snd)

/-- What may happen to a request after the call. -/
inductive Action (H E B : Type)
  /-- The future is polled; the service inside, polled in turn, may be ready. The times are those
  before and after it is polled. -/
  | poll (polled now : ℕ) (ready : Option (Response H E B))
  /-- The future is dropped. -/
  | drop
  | pollRequestBody (answer : Answer H)
  /-- The response body is polled, or dropped. -/
  | pollBody (answer : Answer H)
  | dropBody

inductive Event (H E B : Type)
  | call (service : PrometheusMetricsService) (req : Request H E B)
  | act (i : ℕ) (action : Action H E B)

/-- Put an exchange, and the registry as it is then. -/
def State.put (s : State H) (i : ℕ) (x : Exchange H) (registry : MetricsRegistry) : State H :=
  { registry, exchanges := s.exchanges.set i x }

section System

variable [Extensions E] [Extensions.Slot E MatchedPathExt] (sizeHint : B → SizeHint)

/-- An action, if it is possible. -/
def Exchange.step (x : Exchange H) (registry : MetricsRegistry) :
    Action H E B → Option (Exchange H × MetricsRegistry)
  | .poll polled now ready =>
    match x.future with
    | .pending guard start =>
      -- the clock starts with the first poll
      let start := start.getD polled
      match ready with
      | none => some ({ x with future := .pending guard (some start) }, registry)
      | some response =>
        let (registry, future) := complete sizeHint registry x guard (now - start) response
        some ({ x with future }, registry)
    | _ => none
  | .drop =>
    match x.future with
    | .pending guard _ => some ({ x with future := .dropped }, registry.dropGuard guard)
    | _ => none
  | .pollRequestBody answer =>
    let (x, observed) := x.pollRequestBody answer
    some (x, registry.observe observed)
  | .pollBody answer =>
    match x.future with
    | .completed values elapsed (.streamed stream) =>
      -- a body that was dropped is polled no more
      if stream.dropped then none
      else
        let (stream, observed) := stream.poll answer
        some ({ x with future := .completed values elapsed (.streamed stream) },
          registry.observe observed)
    | _ => none
  | .dropBody =>
    match x.future with
    | .completed values elapsed (.streamed stream) =>
      if stream.dropped then none
      else
        let (stream, observed) := stream.drop
        some ({ x with future := .completed values elapsed (.streamed stream) },
          registry.observe observed)
    | _ => none

/-- One event. -/
def step (s : State H) : Event H E B → Option (State H)
  | .call service req => some (s.call service req)
  | .act i action =>
    s.exchanges[i]?.bind fun x ↦
      (x.step sizeHint s.registry action).map fun next ↦ s.put i next.1 next.2

/-- The service with its requests, the service inside and the readers of the bodies. -/
def system : Transition (State H) (Event H E B) where
  init := {}
  step := step sizeHint

end System

/-! ### What the registry is to hold -/

/-- The body is over with this answer. -/
def Answer.isLast : Answer H → Bool
  | .error _ => true
  | .done => true
  | _ => false

/-- The number of data bytes in an answer. -/
def Answer.data : Answer H → ℕ
  | .frame (.data bytes) => bytes.length
  | _ => 0

/-- The number of data bytes a body has yielded before it was over. -/
def yielded : List (Answer H) → ℕ
  | [] => 0
  | answer :: answers => if answer.isLast then 0 else answer.data + yielded answers

/-- A body is over when it has ended, failed or been dropped. -/
def Stream.isOver (self : Stream H) : Bool :=
  self.dropped || self.answers.any Answer.isLast

namespace Exchange

def pendingValues (x : Exchange H) : Labels :=
  x.service.labels.values x.method pendingRoute "pending".toList

/-- The future is neither completed nor dropped. -/
def inFlight (x : Exchange H) : Option Labels :=
  match x.future with
  | .pending _ _ => some x.pendingValues
  | _ => none

/-- The future is completed. -/
def completed (x : Exchange H) : Option Labels :=
  match x.future with
  | .completed values _ _ => some values
  | _ => none

/-- The duration of a completed request. -/
def duration (x : Exchange H) : Option (Labels × ℕ) :=
  match x.future with
  | .completed values elapsed _ => some (values, elapsed)
  | _ => none

/-- The size of a response body, exact or of a streamed body that is over. -/
def size (x : Exchange H) : Option (Labels × ℕ) :=
  match x.future with
  | .completed values _ (.exact len) => some (values, len)
  | .completed values _ (.streamed stream) =>
    if stream.isOver then some (values, yielded stream.answers) else none
  | _ => none

/-- The size that is recorded: none unless body sizes are, that of a streamed body counted in 64
bits, and in double precision. -/
def recordedSize (x : Exchange H) : Option (Labels × ℕ) :=
  match x.future with
  | .completed values _ (.exact len) =>
    if x.service.recordBodySizes then some (values, Binary64.round len) else none
  | .completed values _ (.streamed stream) =>
    if x.service.recordBodySizes && stream.isOver then
      some (values, Binary64.round (yielded stream.answers % 2 ^ 64))
    else none
  | _ => none

end Exchange

/-- **What the registry holds**: under all labels the gauge is the number of futures in flight, the
counter the number of completed requests, and the histograms have a sample for each completed
request and for each response body with a size. -/
structure Accounts (size : Exchange H → Option (Labels × ℕ)) (s : State H) : Prop where
  inFlight : ∀ values, s.registry.requestsInFlight.total values =
    (s.exchanges.countP fun x ↦ x.inFlight = some values : ℕ)
  requestsTotal : ∀ values, s.registry.requestsTotal.total values =
    s.exchanges.countP fun x ↦ x.completed = some values
  requestDuration : ∀ values, s.registry.requestDuration.total values =
    Tally.under Exchange.duration s.exchanges values
  responseBodySize : ∀ values, s.registry.responseBodySize.total values =
    Tally.under size s.exchanges values

/-! ### Counting a body -/

theorem yielded_concat (answers : List (Answer H)) (answer : Answer H) :
    yielded (answers ++ [answer]) =
      if answers.any Answer.isLast then yielded answers else
        yielded answers + if answer.isLast then 0 else answer.data := by
  induction answers with
  | nil => exact (Nat.zero_add _).symm
  | cons head answers ih =>
    rw [List.cons_append, yielded, yielded, ih, List.any_cons]
    cases head.isLast
    · rw [if_neg Bool.false_ne_true, if_neg Bool.false_ne_true, Bool.false_or]
      split
      · rfl
      · exact (Nat.add_assoc ..).symm
    · rfl

/-- The count is right as long as the body is not over. -/
structure CountingBody.Counts (body : CountingBody) (values : Labels) (stream : Stream H) :
    Prop where
  observer : body.observer = some values
  finished : body.finished = stream.isOver
  bytes : stream.isOver = false → body.bytes = UInt64.ofNat (yielded stream.answers)

namespace CountingBody

variable {body : CountingBody} {values : Labels} {stream stream' : Stream H} {answer : Answer H}

theorem pollFrame_of_isLast (h : answer.isLast) : body.pollFrame answer = body.finish := by
  cases answer with
  | error e => rfl
  | done => rfl
  | pending => cases h
  | frame frame => cases h

theorem pollFrame_of_not_isLast (h : answer.isLast = false) :
    body.pollFrame answer =
      ({ body with bytes := body.bytes + UInt64.ofNat answer.data }, none) := by
  have hzero : body = { body with bytes := body.bytes + UInt64.ofNat 0 } := by
    rw [show UInt64.ofNat 0 = 0 from rfl, UInt64.add_zero]
  cases answer with
  | error e => cases h
  | done => cases h
  | pending => exact congrArg (·, none) hzero
  | frame frame =>
    cases frame with
    | data bytes => rfl
    | trailers headers => exact congrArg (·, none) hzero

/-- At the end the observer is told, unless it was told before. -/
theorem Counts.finish (h : body.Counts values stream) (hover : stream'.isOver = true)
    (hsame : yielded stream'.answers = yielded stream.answers) :
    body.finish.1.Counts values stream' ∧ body.finish.2 =
      if stream.isOver then none else some (values, UInt64.ofNat (yielded stream'.answers)) := by
  have hnot {p : Prop} (hfalse : stream'.isOver = false) : p :=
    absurd (hover.symm.trans hfalse) (by decide)
  rw [CountingBody.finish, h.finished, hsame]
  cases hbefore : stream.isOver
  · refine ⟨⟨h.observer, hover.symm, hnot⟩, ?_⟩
    rw [← h.bytes hbefore, h.observer]
    rfl
  · exact ⟨⟨h.observer, h.finished.trans (hbefore.trans hover.symm), hnot⟩, rfl⟩

/-- An answer that is not the last is counted. -/
theorem Counts.pass (h : body.Counts values stream) (hlast : answer.isLast = false)
    (hover : stream'.isOver = stream.isOver)
    (hadd : stream.isOver = false →
      yielded stream'.answers = yielded stream.answers + answer.data) :
    (body.pollFrame answer).1.Counts values stream' ∧ (body.pollFrame answer).2 = none := by
  rw [pollFrame_of_not_isLast hlast]
  refine ⟨⟨h.observer, h.finished.trans hover.symm, fun hnot ↦ ?_⟩, rfl⟩
  rw [hadd (hover.symm.trans hnot), UInt64.ofNat_add, ← h.bytes (hover.symm.trans hnot)]

end CountingBody

namespace Stream

variable {values : Labels} {stream : Stream H}

/-- A body is counted if body sizes are recorded. -/
structure Counted (stream : Stream H) (recording : Bool) (values : Labels) : Prop where
  on : recording = true → ∃ body, stream.wrapper = some body ∧ body.Counts values stream
  off : recording = false → stream.wrapper = none

theorem counted_unwrapped {stream : Stream H} (hwrapper : stream.wrapper = none) :
    stream.Counted false values :=
  ⟨fun hon ↦ absurd hon (by decide), fun _ ↦ hwrapper⟩

theorem Counted.of_counts {stream : Stream H} {body : CountingBody}
    (hwrapper : stream.wrapper = some body) (h : body.Counts values stream) :
    stream.Counted true values :=
  ⟨fun _ ↦ ⟨body, hwrapper, h⟩, fun hoff ↦ absurd hoff (by decide)⟩

/-- The size that is recorded of a body. -/
def recordedSize (stream : Stream H) (recording : Bool) (values : Labels) : Option (Labels × ℕ) :=
  if recording && stream.isOver then
    some (values, Binary64.round (yielded stream.answers % 2 ^ 64))
  else none

/-- What a step of a body has to do: the count stays right, and the size is told when there is
one. -/
structure Steps (stream : Stream H) (recording : Bool) (values : Labels) (stream' : Stream H)
    (observed : Option (Labels × UInt64)) : Prop where
  counted : stream'.Counted recording values
  told : stream.recordedSize recording values = none ∧
      stream'.recordedSize recording values =
        observed.map (fun p ↦ (p.1, Binary64.round p.2.toNat)) ∨
    stream'.recordedSize recording values = stream.recordedSize recording values ∧ observed = none

/-- A body that is not counted is not recorded. -/
theorem steps_of_off {stream' : Stream H} (hwrapper : stream'.wrapper = none) :
    stream.Steps false values stream' none :=
  ⟨counted_unwrapped hwrapper, .inr ⟨rfl, rfl⟩⟩

theorem steps_of_finish {stream' : Stream H} {body : CountingBody} (h : body.Counts values stream)
    (hwrapper : stream'.wrapper = some body.finish.1) (hover : stream'.isOver = true)
    (hsame : yielded stream'.answers = yielded stream.answers) :
    stream.Steps true values stream' body.finish.2 := by
  obtain ⟨hcounts, htold⟩ := h.finish hover hsame
  refine ⟨.of_counts hwrapper hcounts, ?_⟩
  rw [htold, recordedSize, recordedSize, hover, hsame]
  cases stream.isOver
  · exact .inl ⟨rfl, by simp⟩
  · exact .inr ⟨rfl, rfl⟩

theorem steps_of_pass {stream' : Stream H} {body : CountingBody} {answer : Answer H}
    (h : body.Counts values stream) (hlast : answer.isLast = false)
    (hwrapper : stream'.wrapper = some (body.pollFrame answer).1)
    (hover : stream'.isOver = stream.isOver)
    (hyielded : yielded stream'.answers =
      if stream.isOver then yielded stream.answers else yielded stream.answers + answer.data) :
    stream.Steps true values stream' (body.pollFrame answer).2 := by
  obtain ⟨hcounts, htold⟩ := h.pass hlast hover fun hbefore ↦ by
    rw [hyielded, hbefore, if_neg Bool.false_ne_true]
  refine ⟨.of_counts hwrapper hcounts, .inr ⟨?_, htold⟩⟩
  rw [recordedSize, recordedSize, hover, hyielded]
  cases stream.isOver
  · rfl
  · rfl

/-- **One poll of a body.** It posts a size exactly when the body is finished by it, and a finished
body is not finished again. -/
theorem Counted.poll {recording : Bool} (h : stream.Counted recording values)
    (hdropped : stream.dropped = false) (answer : Answer H) :
    stream.Steps recording values (stream.poll answer).1 (stream.poll answer).2 := by
  have hbefore : stream.isOver = stream.answers.any Answer.isLast := by
    rw [isOver, hdropped, Bool.false_or]
  have hover : (stream.poll answer).1.isOver = (stream.isOver || answer.isLast) := by
    simp [Stream.poll, isOver, Bool.or_assoc]
  have hyielded := yielded_concat stream.answers answer
  rw [← hbefore] at hyielded
  cases recording with
  | false =>
    rw [Stream.poll, h.off rfl]
    exact steps_of_off rfl
  | true =>
    obtain ⟨body, hwrapper, hcounts⟩ := h.on rfl
    have hpolled : (stream.wrapper.map fun body ↦ body.pollFrame answer) =
        some (body.pollFrame answer) := by rw [hwrapper]; rfl
    have hsnd : (stream.poll answer).2 = (body.pollFrame answer).2 :=
      congrArg (Option.bind · Prod.snd) hpolled
    have hfst : (stream.poll answer).1.wrapper = some (body.pollFrame answer).1 :=
      congrArg (Option.map Prod.fst) hpolled
    rw [hsnd]
    cases hlast : answer.isLast
    · rw [hlast, Bool.or_false] at hover
      rw [hlast, if_neg Bool.false_ne_true] at hyielded
      exact steps_of_pass hcounts hlast hfst hover hyielded
    · rw [hlast, Bool.or_true] at hover
      rw [hlast, if_pos rfl, Nat.add_zero, ite_self] at hyielded
      rw [CountingBody.pollFrame_of_isLast hlast] at hfst ⊢
      exact steps_of_finish hcounts hfst hover hyielded

/-- **The drop of a body.** -/
theorem Counted.drop {recording : Bool} (h : stream.Counted recording values) :
    stream.Steps recording values stream.drop.1 stream.drop.2 := by
  cases recording with
  | false =>
    rw [Stream.drop, h.off rfl]
    exact steps_of_off rfl
  | true =>
    obtain ⟨body, hwrapper, hcounts⟩ := h.on rfl
    have hfinished : stream.wrapper.map CountingBody.finish = some body.finish := by
      rw [hwrapper]; rfl
    have hsnd : stream.drop.2 = body.finish.2 := congrArg (Option.bind · Prod.snd) hfinished
    rw [hsnd]
    exact steps_of_finish hcounts (congrArg (Option.map Prod.fst) hfinished) rfl rfl

end Stream

/-! ### One event -/

namespace Exchange

/-- What holds of a request at any time. -/
structure Kept (x : Exchange H) : Prop where
  requestBody : ∀ body, x.requestBody = some body → body.observer = none
  guard : ∀ guard start, x.future = .pending guard start → guard = { gauge := x.pendingValues }
  stream : ∀ values elapsed stream, x.future = .completed values elapsed (.streamed stream) →
    stream.Counted x.service.recordBodySizes values

end Exchange

/-- The exchanges account for the registry. -/
structure Ledger (registry : MetricsRegistry) (exchanges : List (Exchange H)) : Prop where
  inFlight : registry.requestsInFlight.Accounts (Tally.once Exchange.inFlight) exchanges
  requestsTotal : registry.requestsTotal.Accounts (Tally.once Exchange.completed) exchanges
  requestDuration : registry.requestDuration.Accounts (Tally.sampled Exchange.duration) exchanges
  responseBodySize :
    registry.responseBodySize.Accounts (Tally.sampled Exchange.recordedSize) exchanges

/-- What a step of an exchange has to do: it keeps what holds of exchanges, and the exchanges go on
accounting for the registry. -/
structure Moves (x : Exchange H) (registry : MetricsRegistry) (x' : Exchange H)
    (registry' : MetricsRegistry) : Prop where
  kept : x'.Kept
  ledger : ∀ {exchanges : List (Exchange H)} {i : ℕ}, exchanges[i]? = some x →
    Ledger registry exchanges → Ledger registry' (exchanges.set i x')

theorem moves_stream {x : Exchange H} {registry : MetricsRegistry} {values : Labels} {elapsed : ℕ}
    {stream stream' : Stream H} {observed : Option (Labels × UInt64)} (hkept : x.Kept)
    (hfuture : x.future = .completed values elapsed (.streamed stream))
    (hsteps : stream.Steps x.service.recordBodySizes values stream' observed) :
    Moves x registry { x with future := .completed values elapsed (.streamed stream') }
      (registry.observe observed) := by
  obtain ⟨service, method, requestBody, future⟩ := x
  obtain rfl := hfuture
  refine ⟨⟨hkept.requestBody, fun _ _ h ↦ (by cases h), fun _ _ _ h ↦ ?_⟩, fun hx h ↦ ?_⟩
  · cases h
    exact hsteps.counted
  · refine ⟨h.inFlight.set_same hx rfl, h.requestsTotal.set_same hx rfl,
      h.requestDuration.set_same hx rfl, h.responseBodySize.set_post hx ?_⟩
    rcases hsteps.told with ⟨hnone, htold⟩ | ⟨hsame, rfl⟩
    · refine .inl ⟨congrArg (Option.map _) hnone, (congrArg (Option.map _) htold).trans ?_⟩
      rw [Option.map_map]
      rfl
    · exact .inr ⟨congrArg (Option.map _) hsame, rfl⟩

/-- A future that is not ready. -/
theorem moves_wait {x : Exchange H} {registry : MetricsRegistry} {guard : InFlightGuard}
    {start : Option ℕ} (hkept : x.Kept) (hfuture : x.future = .pending guard start) (now : ℕ) :
    Moves x registry { x with future := .pending guard (some now) } registry := by
  have hguard := hkept.guard guard start hfuture
  obtain ⟨service, method, requestBody, future⟩ := x
  obtain rfl := hfuture
  refine ⟨⟨hkept.requestBody, fun _ _ h ↦ ?_, fun _ _ _ h ↦ (by cases h)⟩, fun hx h ↦ ?_⟩
  · cases h
    exact hguard
  · exact ⟨h.inFlight.set_same hx rfl, h.requestsTotal.set_same hx rfl,
      h.requestDuration.set_same hx rfl, h.responseBodySize.set_same hx rfl⟩

/-- A future that is dropped. -/
theorem moves_drop {x : Exchange H} {registry : MetricsRegistry} {guard : InFlightGuard}
    {start : Option ℕ} (hkept : x.Kept) (hfuture : x.future = .pending guard start) :
    Moves x registry { x with future := .dropped } (registry.dropGuard guard) := by
  have hguard := hkept.guard guard start hfuture
  obtain ⟨service, method, requestBody, future⟩ := x
  obtain rfl := hfuture
  obtain rfl : guard =
    { gauge := service.labels.values method pendingRoute "pending".toList } := hguard
  refine ⟨⟨hkept.requestBody, fun _ _ h ↦ (by cases h), fun _ _ _ h ↦ (by cases h)⟩,
    fun hx h ↦ ?_⟩
  exact ⟨h.inFlight.set_withdraw hx rfl rfl, h.requestsTotal.set_same hx rfl,
    h.requestDuration.set_same hx rfl, h.responseBodySize.set_same hx rfl⟩

/-- The request body records nothing. -/
theorem moves_request {x : Exchange H} {registry : MetricsRegistry} (hkept : x.Kept)
    (answer : Answer H) :
    Moves x registry (x.pollRequestBody answer).1
      (registry.observe (x.pollRequestBody answer).2) := by
  have hsilent : (x.pollRequestBody answer).2 = none ∧
      ∀ body, (x.pollRequestBody answer).1.requestBody = some body → body.observer = none := by
    rw [Exchange.pollRequestBody]
    rcases hbody : x.requestBody with - | body
    · exact ⟨rfl, fun _ h ↦ (by cases h)⟩
    · have hobserver := hkept.requestBody body hbody
      have hpoll : (body.pollFrame answer).2 = none ∧
          (body.pollFrame answer).1.observer = none := by
        cases hlast : answer.isLast
        · rw [CountingBody.pollFrame_of_not_isLast hlast]
          exact ⟨rfl, hobserver⟩
        · rw [CountingBody.pollFrame_of_isLast hlast, CountingBody.finish]
          split
          · exact ⟨rfl, hobserver⟩
          · exact ⟨congrArg (Option.map _) hobserver, hobserver⟩
      refine ⟨hpoll.1, fun body' h ↦ ?_⟩
      obtain rfl := Option.some.inj h
      exact hpoll.2
  rw [hsilent.1]
  refine ⟨⟨hsilent.2, hkept.guard, hkept.stream⟩, fun hx h ↦ ?_⟩
  exact ⟨h.inFlight.set_same hx rfl, h.requestsTotal.set_same hx rfl,
    h.requestDuration.set_same hx rfl, h.responseBodySize.set_same hx rfl⟩

section System

variable [Extensions E] [Extensions.Slot E MatchedPathExt] {sizeHint : B → SizeHint}

/-- What a completed future has counted, and the body it leaves. -/
structure Completes (x : Exchange H) (registry : MetricsRegistry) (values : Labels) (elapsed : ℕ)
    (counted : MetricsRegistry) (payload : Payload H) : Prop where
  inFlight : counted.requestsInFlight = registry.requestsInFlight
  requestsTotal : counted.requestsTotal = registry.requestsTotal.add values 1
  requestDuration : counted.requestDuration = registry.requestDuration.add values {elapsed}
  responseBodySize : counted.responseBodySize = registry.responseBodySize.post
    (Tally.sampled Exchange.recordedSize { x with future := .completed values elapsed payload })
  stream : ∀ stream, payload = .streamed stream → stream.Counted x.service.recordBodySizes values

variable (sizeHint) in
theorem exists_complete_eq (registry : MetricsRegistry) (x : Exchange H) (guard : InFlightGuard)
    (elapsed : ℕ) (response : Response H E B) {values : Labels}
    (hvalues : x.service.labels.values x.method (matchedRoute response.extensions)
      response.status.asStr = values) :
    ∃ counted payload, complete sizeHint registry x guard elapsed response =
        (counted.dropGuard guard, .completed values elapsed payload) ∧
      Completes x registry values elapsed counted payload := by
  obtain ⟨⟨labels, recording⟩, method, requestBody, future⟩ := x
  subst hvalues
  cases recording with
  | false =>
    rw [complete, if_neg Bool.false_ne_true]
    rcases (sizeHint response.body).exact with - | len
    · refine ⟨_, _, rfl, rfl, rfl, rfl, rfl, fun stream h ↦ ?_⟩
      cases h
      exact Stream.counted_unwrapped rfl
    · exact ⟨_, _, rfl, rfl, rfl, rfl, rfl, fun stream h ↦ (by cases h)⟩
  | true =>
    rw [complete, if_pos rfl]
    rcases (sizeHint response.body).exact with - | len
    · refine ⟨_, _, rfl, rfl, rfl, rfl, rfl, fun stream h ↦ ?_⟩
      cases h
      exact .of_counts rfl ⟨rfl, rfl, fun _ ↦ rfl⟩
    · exact ⟨_, _, rfl, rfl, rfl, rfl, rfl, fun stream h ↦ (by cases h)⟩

/-- A future that is ready. -/
theorem moves_complete {x : Exchange H} {registry : MetricsRegistry} {guard : InFlightGuard}
    {start : Option ℕ} (hkept : x.Kept) (hfuture : x.future = .pending guard start)
    (elapsed : ℕ) (response : Response H E B) :
    Moves x registry
      { x with future := (complete sizeHint registry x guard elapsed response).2 }
      (complete sizeHint registry x guard elapsed response).1 := by
  obtain ⟨counted, payload, hcomplete, hcompletes⟩ :=
    exists_complete_eq sizeHint registry x guard elapsed response rfl
  rw [hcomplete]
  have hguard := hkept.guard guard start hfuture
  obtain ⟨service, method, requestBody, future⟩ := x
  obtain rfl := hfuture
  obtain rfl : guard =
    { gauge := service.labels.values method pendingRoute "pending".toList } := hguard
  refine ⟨⟨hkept.requestBody, fun _ _ h ↦ (by cases h), fun _ _ stream h ↦ ?_⟩, fun hx h ↦ ?_⟩
  · cases h
    exact hcompletes.stream stream rfl
  · refine ⟨?_, ?_, ?_, ?_⟩
    · show (counted.requestsInFlight.add _ (-1)).Accounts _ _
      rw [hcompletes.inFlight]
      exact h.inFlight.set_withdraw hx rfl rfl
    · show counted.requestsTotal.Accounts _ _
      rw [hcompletes.requestsTotal]
      exact h.requestsTotal.set_add hx rfl rfl
    · show counted.requestDuration.Accounts _ _
      rw [hcompletes.requestDuration]
      exact h.requestDuration.set_add hx rfl rfl
    · show counted.responseBodySize.Accounts _ _
      rw [hcompletes.responseBodySize]
      exact h.responseBodySize.set_post hx (.inl ⟨rfl, rfl⟩)

/-- What an action does, and the future it finds. -/
inductive Exchange.Stepped (sizeHint : B → SizeHint) (x : Exchange H)
    (registry : MetricsRegistry) : Action H E B → Exchange H → MetricsRegistry → Prop
  | wait {guard : InFlightGuard} {start : Option ℕ} (polled now : ℕ)
      (hfuture : x.future = .pending guard start) :
      Stepped sizeHint x registry (.poll polled now none)
        { x with future := .pending guard (some (start.getD polled)) } registry
  | complete {guard : InFlightGuard} {start : Option ℕ} (polled now : ℕ)
      (response : Response H E B) (hfuture : x.future = .pending guard start) :
      Stepped sizeHint x registry (.poll polled now (some response))
        { x with future :=
          (complete sizeHint registry x guard (now - start.getD polled) response).2 }
        (complete sizeHint registry x guard (now - start.getD polled) response).1
  | drop {guard : InFlightGuard} {start : Option ℕ} (hfuture : x.future = .pending guard start) :
      Stepped sizeHint x registry .drop { x with future := .dropped } (registry.dropGuard guard)
  | pollRequestBody (answer : Answer H) :
      Stepped sizeHint x registry (.pollRequestBody answer) (x.pollRequestBody answer).1
        (registry.observe (x.pollRequestBody answer).2)
  | pollBody {values : Labels} {elapsed : ℕ} {stream : Stream H} (answer : Answer H)
      (hfuture : x.future = .completed values elapsed (.streamed stream))
      (hdropped : stream.dropped = false) :
      Stepped sizeHint x registry (.pollBody answer)
        { x with future := .completed values elapsed (.streamed (stream.poll answer).1) }
        (registry.observe (stream.poll answer).2)
  | dropBody {values : Labels} {elapsed : ℕ} {stream : Stream H}
      (hfuture : x.future = .completed values elapsed (.streamed stream)) :
      Stepped sizeHint x registry .dropBody
        { x with future := .completed values elapsed (.streamed stream.drop.1) }
        (registry.observe stream.drop.2)

theorem Exchange.stepped_of_step {x x' : Exchange H} {registry registry' : MetricsRegistry}
    {action : Action H E B} (h : x.step sizeHint registry action = some (x', registry')) :
    x.Stepped sizeHint registry action x' registry' := by
  cases action with
  | poll polled now ready =>
    rw [Exchange.step] at h
    split at h
    · next guard start hfuture =>
      rcases ready with - | response
      · obtain ⟨rfl, rfl⟩ := Prod.mk.inj (Option.some.inj h)
        exact .wait polled now hfuture
      · obtain ⟨rfl, rfl⟩ := Prod.mk.inj (Option.some.inj h)
        exact .complete polled now response hfuture
    · cases h
  | drop =>
    rw [Exchange.step] at h
    split at h
    · next guard start hfuture =>
      obtain ⟨rfl, rfl⟩ := Prod.mk.inj (Option.some.inj h)
      exact .drop hfuture
    · cases h
  | pollRequestBody answer =>
    obtain ⟨rfl, rfl⟩ := Prod.mk.inj (Option.some.inj h)
    exact .pollRequestBody answer
  | pollBody answer =>
    rw [Exchange.step] at h
    split at h
    · next values elapsed stream hfuture =>
      split at h
      · cases h
      · next hdropped =>
        obtain ⟨rfl, rfl⟩ := Prod.mk.inj (Option.some.inj h)
        exact .pollBody answer hfuture (Bool.eq_false_of_not_eq_true hdropped)
    · cases h
  | dropBody =>
    rw [Exchange.step] at h
    split at h
    · next values elapsed stream hfuture =>
      split at h
      · cases h
      · obtain ⟨rfl, rfl⟩ := Prod.mk.inj (Option.some.inj h)
        exact .dropBody hfuture
    · cases h

/-- **One action.** -/
theorem Exchange.Kept.moves {x x' : Exchange H} {registry registry' : MetricsRegistry}
    {action : Action H E B} (hkept : x.Kept)
    (h : x.step sizeHint registry action = some (x', registry')) :
    Moves x registry x' registry' := by
  cases Exchange.stepped_of_step h with
  | wait polled now hfuture => exact moves_wait hkept hfuture _
  | complete polled now response hfuture => exact moves_complete hkept hfuture _ response
  | drop hfuture => exact moves_drop hkept hfuture
  | pollRequestBody answer => exact moves_request hkept answer
  | pollBody answer hfuture hdropped =>
    exact moves_stream hkept hfuture ((hkept.stream _ _ _ hfuture).poll hdropped answer)
  | dropBody hfuture => exact moves_stream hkept hfuture (hkept.stream _ _ _ hfuture).drop

/-! ### Whole runs -/

/-- The invariant. -/
structure State.Inv (s : State H) : Prop where
  kept : ∀ x ∈ s.exchanges, x.Kept
  ledger : Ledger s.registry s.exchanges

omit [Extensions E] [Extensions.Slot E MatchedPathExt] in
/-- A request that is called is counted in. -/
theorem State.Inv.call {s : State H} (h : s.Inv) (service : PrometheusMetricsService)
    (req : Request H E B) : (s.call service req).Inv := by
  have hledger := h.ledger
  refine ⟨fun x hx ↦ ?_, ?_⟩
  · rcases List.mem_append.1 hx with hx | hx
    · exact h.kept x hx
    · obtain rfl := List.mem_singleton.1 hx
      refine ⟨fun body hbody ↦ ?_, fun _ _ hfuture ↦ (by cases hfuture; rfl),
        fun _ _ _ hfuture ↦ (by cases hfuture)⟩
      split_ifs at hbody
      obtain rfl := Option.some.inj hbody
      rfl
  · exact ⟨hledger.inFlight.concat fun _ ↦ Tally.total_add ..,
      hledger.requestsTotal.concat fun _ ↦ (add_zero _).symm,
      hledger.requestDuration.concat fun _ ↦ (add_zero _).symm,
      hledger.responseBodySize.concat fun _ ↦ (add_zero _).symm⟩

/-- **One event.** It moves one exchange, and what it posts is what the accounts of that exchange
change by. -/
theorem State.Inv.step {s s' : State H} {e : Event H E B} (h : s.Inv)
    (hstep : step sizeHint s e = some s') : s'.Inv := by
  cases e with
  | call service req =>
    obtain rfl := Option.some.inj hstep
    exact h.call service req
  | act i action =>
    obtain ⟨x, hx, hnext⟩ := Option.bind_eq_some_iff.1 hstep
    obtain ⟨⟨x', registry'⟩, haction, rfl⟩ := Option.map_eq_some_iff.1 hnext
    have hmoves := (h.kept x (List.mem_of_getElem? hx)).moves haction
    refine ⟨fun y hy ↦ ?_, hmoves.ledger hx h.ledger⟩
    rcases List.mem_or_eq_of_mem_set hy with hy | rfl
    · exact h.kept y hy
    · exact hmoves.kept

theorem inv_of_run {es : List (Event H E B)} {s : State H}
    (h : (system sizeHint).run es = some s) : s.Inv :=
  Transition.run_induction (P := fun _ s ↦ s.Inv)
    ⟨fun _ hx ↦ absurd hx List.not_mem_nil, Tally.accounts_nil, Tally.accounts_nil,
      Tally.accounts_nil, Tally.accounts_nil⟩
    (fun _ _ _ _ _ hinv hstep ↦ hinv.step hstep) h

omit [Extensions E] [Extensions.Slot E MatchedPathExt] in
/-- Where sizes are recorded, those up to `2 ^ 53` are recorded as they are. -/
theorem recordedSize_eq_size {x : Exchange H} (hrecording : x.service.recordBodySizes = true)
    (hsize : ∀ p ∈ x.size, p.2 ≤ 2 ^ 53) : x.recordedSize = x.size := by
  obtain ⟨⟨labels, recording⟩, method, requestBody, future⟩ := x
  obtain rfl : recording = true := hrecording
  cases future with
  | pending guard start => rfl
  | dropped => rfl
  | completed values elapsed payload =>
    cases payload with
    | exact len =>
      have hlen : len ≤ 2 ^ 53 := hsize (values, len) rfl
      exact congrArg (fun len ↦ some (values, len)) (Binary64.round_eq_self hlen)
    | streamed stream =>
      simp only [Exchange.recordedSize, Exchange.size, Bool.true_and]
      split
      · next hover =>
        have hle : yielded stream.answers ≤ 2 ^ 53 :=
          hsize (values, yielded stream.answers) (if_pos hover)
        rw [Nat.mod_eq_of_lt (by omega), Binary64.round_eq_self hle]
      · rfl

/-- **The registry accounts for all requests, whatever the order of events.** Each request is in it
once from its call on, in flight until it is over, and under its labels and its status from then on.
-/
theorem accounts_of_run {es : List (Event H E B)} {s : State H}
    (h : (system sizeHint).run es = some s) :
    Accounts Exchange.recordedSize s ∧
      ∀ x ∈ s.exchanges, x.service.recordBodySizes = true → (∀ p ∈ x.size, p.2 ≤ 2 ^ 53) →
        x.recordedSize = x.size := by
  obtain ⟨-, hinFlight, htotal, hduration, hsize⟩ := inv_of_run h
  exact ⟨⟨fun values ↦ hinFlight.total_eq_countP values,
    fun values ↦ htotal.total_eq_countP values,
    hduration.total_eq_under, hsize.total_eq_under⟩, fun _ _ ↦ recordedSize_eq_size⟩

end System

/-! ### Sizes that are not recorded -/

section Unrecorded

/-- A request for the root. -/
private def rootRequest : Request Unit (Option MatchedPathExt) SizeHint :=
  ⟨⟨.get, { path := ['/'] }, (), none, {}, .http11⟩, none⟩

/-- A response whose body has no exact size. -/
private def openResponse : Response Unit (Option MatchedPathExt) SizeHint :=
  ⟨.ok, (), some ⟨['/']⟩, {}⟩

/-- A request is called, and its response completes. -/
private def answeredBy (service : PrometheusMetricsService) :
    List (Event Unit (Option MatchedPathExt) SizeHint) :=
  [.call service rootRequest, .act 0 (.poll 5 6 none), .act 0 (.poll 10 12 (some openResponse))]

/-- The labels of the response. -/
private def openValues : Labels :=
  ({} : StaticLabels).values "GET".toList ['/'] "200".toList

/-- A body of two bytes is read to its end and dropped. -/
private def readTwoBytes : List (Event Unit (Option MatchedPathExt) SizeHint) :=
  answeredBy {} ++ [.act 0 (.pollBody (.frame (.data [104, 105]))), .act 0 (.pollBody .done),
    .act 0 .dropBody]

/-- The two bytes are recorded once, as two. -/
theorem accounts_of_run_twoBytes :
    ∃ s, (system id).run readTwoBytes = some s ∧ Accounts Exchange.recordedSize s ∧
      s.registry.responseBodySize.total openValues = {2} := by
  obtain ⟨s, hrun⟩ : ∃ s, (system id).run readTwoBytes = some s := ⟨_, rfl⟩
  obtain ⟨haccounts, hexact⟩ := accounts_of_run hrun
  refine ⟨s, hrun, haccounts, ?_⟩
  cases hrun
  rw [haccounts.responseBodySize]
  decide

/-- A body that yields some answers and is dropped. -/
private def dropAfter (answers : List (Answer Unit)) :
    List (Event Unit (Option MatchedPathExt) SizeHint) :=
  answeredBy {} ++ answers.map (fun answer ↦ .act 0 (.pollBody answer)) ++ [.act 0 .dropBody]

/-- Answers go on being given. -/
theorem exists_run_answers (answers : List (Answer Unit)) : ∃ registry x wrapper,
    (system id).run (answeredBy {} ++ answers.map fun answer ↦ .act 0 (.pollBody answer)) =
        some { registry, exchanges := [x] } ∧
      x.service = {} ∧ x.future = .completed openValues 7 (.streamed { wrapper, answers }) := by
  induction answers using List.reverseRecOn with
  | nil => exact ⟨_, _, _, rfl, rfl, rfl⟩
  | append_singleton answers answer ih =>
    obtain ⟨registry, ⟨service, method, requestBody, future⟩, wrapper, hrun, rfl, rfl⟩ := ih
    rw [List.map_append, ← List.append_assoc]
    exact ⟨_, _, _, Transition.run_concat_eq_some_iff.2 ⟨_, hrun, rfl⟩, rfl, rfl⟩

/-- A body that is dropped has a size, and one that is recorded. -/
theorem exists_run_dropped (answers : List (Answer Unit)) : ∃ s x,
    (system id).run (dropAfter answers) = some s ∧ s.exchanges = [x] ∧
      x.size = some (openValues, yielded answers) ∧
      x.recordedSize = some (openValues, Binary64.round (yielded answers % 2 ^ 64)) := by
  obtain ⟨registry, ⟨service, method, requestBody, future⟩, wrapper, hrun, rfl, rfl⟩ :=
    exists_run_answers answers
  exact ⟨_, _, Transition.run_concat_eq_some_iff.2 ⟨_, hrun, rfl⟩, rfl, rfl, rfl⟩

/-- Where the two sizes differ, the registry does not hold the first. -/
theorem exists_run_not_accounts {answers : List (Answer Unit)}
    (h : Binary64.round (yielded answers % 2 ^ 64) ≠ yielded answers) :
    ∃ s, (system id).run (dropAfter answers) = some s ∧ ¬Accounts Exchange.size s := by
  obtain ⟨s, x, hrun, hexchanges, hsize, hrecorded⟩ := exists_run_dropped answers
  refine ⟨s, hrun, fun haccounts ↦ h ?_⟩
  have htotal := (inv_of_run hrun).ledger.responseBodySize.total_eq_under openValues
  have hclaimed := haccounts.responseBodySize openValues
  rw [htotal, hexchanges] at hclaimed
  simpa [Tally.under, hsize, hrecorded] using hclaimed

theorem yielded_replicate_append {answer : Answer H} (h : answer.isLast = false) (n : ℕ)
    (answers : List (Answer H)) :
    yielded (List.replicate n answer ++ answers) = n * answer.data + yielded answers := by
  induction n with
  | zero => simp
  | succ n ih =>
    rw [List.replicate_succ, List.cons_append, yielded, h, if_neg Bool.false_ne_true, ih,
      Nat.succ_mul]
    omega

/-- A chunk of 1 GiB. -/
private def gibibyteChunk : Answer Unit :=
  .frame (.data (List.replicate (2 ^ 30) 0))

private theorem yielded_gibibytes (n : ℕ) (answers : List (Answer Unit)) :
    yielded (List.replicate n gibibyteChunk ++ answers) = n * 2 ^ 30 + yielded answers := by
  have hdata : gibibyteChunk.data = 2 ^ 30 := List.length_replicate
  rw [yielded_replicate_append rfl, hdata]

/-- Where sizes are not recorded there is none of a body that was dropped. Of `2 ^ 34` chunks of
1 GiB the size recorded is zero, and of `2 ^ 23` chunks and one byte it is a byte too small. -/
theorem not_accounts_size :
    (∃ s, (system id).run (answeredBy { recordBodySizes := false } ++ [.act 0 .dropBody]) =
        some s ∧ ¬Accounts Exchange.size s) ∧
      (∃ s, (system id).run (dropAfter (List.replicate (2 ^ 34) gibibyteChunk)) = some s ∧
        ¬Accounts Exchange.size s) ∧
      ∃ s, (system id).run (dropAfter (List.replicate (2 ^ 23) gibibyteChunk ++
        [.frame (.data [0])])) = some s ∧ ¬Accounts Exchange.size s := by
  refine ⟨⟨_, rfl, fun h ↦ ?_⟩, exists_run_not_accounts ?_, exists_run_not_accounts ?_⟩
  · exact absurd (h.responseBodySize openValues) (by decide)
  · rw [← List.append_nil (List.replicate _ _), yielded_gibibytes]
    decide
  · rw [yielded_gibibytes]
    decide

end Unrecorded

end Observe
