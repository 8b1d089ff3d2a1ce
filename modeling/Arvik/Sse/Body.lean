import Arvik.Core.Body
import Arvik.Sse.Event

/-!
# The body of an event stream

The body polls the stream of events first. Only when that is pending is the keep-alive timer asked,
and when it has fired, a comment is sent in place of an event. Every event and every comment starts
the timer anew. When the body is polled, and what the stream answers then, is a script.

## The clock

Times are nanoseconds of the monotonic clock, whose seconds are a signed 64-bit number. The timer is
first set by a function that takes care of an interval which leads past the last instant; it is set
anew by an addition that panics there (`Instant.add`). A panic ends the task that polls the body, so
the reader receives the frames sent so far, and of the event that was about to be sent nothing.

## The result

`parse_frames_iff` puts the format together: whatever the events were built from, and wherever
comments came between them, the frames are read as the messages the builders asked for, exactly if
every message comes at an instant from which the timer can be set anew. That the clock never goes
back is what makes the condition one on the messages alone: where the timer cannot be set anew, it
cannot be later on, so a panic at a comment or at an event without data is only seen if a message
was still to come.

The proof compares two lists of events, those that arrive and those that are reached before a panic.
The frames are read as the second (`parse_frames_eq`), and an induction over the script says when
the two are the same messages (`expected_reached_iff`).
-/

namespace Sse

open EventStream

namespace Instant

/-- The last instant of the clock. -/
def last : ℕ :=
  2 ^ 63 * 10 ^ 9 - 1

/-- An instant and a duration added; past the last instant the addition panics. -/
def add (now duration : ℕ) : Option ℕ :=
  if now + duration ≤ last then some (now + duration) else none

/-- An instant that is thirty years away, near enough to for ever. -/
def farFuture (now : ℕ) : ℕ :=
  now + 30 * 365 * 86400 * 10 ^ 9

end Instant

/-- The longest duration. -/
def durationMax : ℕ :=
  2 ^ 64 * 10 ^ 9 - 1

/-- The keep-alive setting, its comment serialized in advance. -/
structure KeepAlive where
  interval : ℕ := 15 * 10 ^ 9
  commentBytes : Bytes := Text.utf8 ": \n\n".toList
  isComment : ∃ text, commentBytes = (Event.build [.comment text]).serialize := by
    exact ⟨[], rfl⟩

namespace KeepAlive

def new : KeepAlive := {}

/-- Set the interval. -/
def withInterval (self : KeepAlive) (interval : ℕ) : KeepAlive :=
  { self with interval }

/-- Set the comment. -/
def text (self : KeepAlive) (text : Str) : KeepAlive where
  interval := self.interval
  commentBytes := (Event.build [.comment text]).serialize
  isComment := ⟨text, rfl⟩

end KeepAlive

/-- The answer to a poll. -/
inductive Poll (α : Type)
  | pending
  | ready (answer : α)

/-- The keep-alive timer. -/
structure KeepAliveState where
  /-- When the timer fires. -/
  sleep : ℕ
  setting : KeepAlive

/-- The body; what it is polled for are the answers of its stream. -/
structure SseBody where
  keepAlive : Option KeepAliveState

namespace SseBody

/-- The body of a response made at a time. -/
def new (keepAlive : Option KeepAlive) (now : ℕ) : SseBody where
  keepAlive := keepAlive.map fun setting ↦
    ⟨(Instant.add now setting.interval).getD (Instant.farFuture now), setting⟩

/-- Start the timer anew, or panic. -/
def resetSleep (self : SseBody) (now : ℕ) : Option SseBody :=
  match self.keepAlive with
  | some state =>
    (Instant.add now state.setting.interval).map fun sleep ↦ ⟨some { state with sleep }⟩
  | none => some self

/-- One poll, of which the stream's part is given; it may panic. -/
def pollFrame (self : SseBody) (now : ℕ) (polled : Poll (Option (Except BoxError Event))) :
    Option (Poll (Option (Except BoxError Bytes)) × SseBody) :=
  match polled with
  | .ready (some (.ok event)) =>
    (self.resetSleep now).map fun next ↦ (.ready (some (.ok event.serialize)), next)
  | .ready (some (.error e)) => some (.ready (some (.error e)), self)
  | .ready none => some (.ready none, self)
  | .pending =>
    match self.keepAlive with
    | some state =>
      -- the timer is asked only while the stream has nothing to send
      if state.sleep ≤ now then
        (self.resetSleep now).map fun next ↦
          (.ready (some (.ok state.setting.commentBytes)), next)
      else some (.pending, self)
    | none => some (.pending, self)

/-- What happens to a body: it is polled at a time, and its stream answers with an event built by
some calls, with an error, with its end, or not at all. -/
abbrev Script := List (ℕ × Poll (Option (Except BoxError (List Event.Call))))

/-- The answer of the stream, with the event built. -/
def answer : Poll (Option (Except BoxError (List Event.Call))) →
    Poll (Option (Except BoxError Event))
  | .pending => .pending
  | .ready none => .ready none
  | .ready (some (.error e)) => .ready (some (.error e))
  | .ready (some (.ok calls)) => .ready (some (.ok (Event.build calls)))

/-- The frames a reader receives who polls until the end, an error or a panic. -/
def frames (self : SseBody) : Script → List Bytes
  | [] => []
  | (now, polled) :: rest =>
    match self.pollFrame now (answer polled) with
    | some (.ready (some (.ok bytes)), next) => bytes :: next.frames rest
    | some (.pending, next) => next.frames rest
    | some (.ready (some (.error _)), _) => []
    | some (.ready none, _) => []
    | none => []

/-- The events of a script up to the end or an error, with the times they arrive at. -/
def arrivals : Script → List (ℕ × List Event.Call)
  | [] => []
  | (now, .ready (some (.ok calls))) :: rest => (now, calls) :: arrivals rest
  | (_, .pending) :: rest => arrivals rest
  | (_, .ready (some (.error _))) :: _ => []
  | (_, .ready none) :: _ => []

/-- The events of a script, up to the end or an error. -/
def delivered (script : Script) : List (List Event.Call) :=
  (arrivals script).map Prod.snd

/-- The clock does not go back from poll to poll. -/
def Monotone (script : Script) : Prop :=
  script.Pairwise fun entry later ↦ entry.1 ≤ later.1

/-- Every event with data arrives at an instant from which the timer can be set anew. The sum of the
instant and the interval would panic otherwise. -/
def InTime (keepAlive : Option KeepAlive) (script : Script) : Prop :=
  ∀ setting ∈ keepAlive, ∀ entry ∈ arrivals script,
    (Event.given Event.Call.data? entry.2).isSome → entry.1 + setting.interval ≤ Instant.last

/-! ### The timer -/

/-- The setting of the timer, which never changes. -/
def setting (self : SseBody) : Option KeepAlive :=
  self.keepAlive.map KeepAliveState.setting

theorem setting_new (keepAlive : Option KeepAlive) (now : ℕ) :
    (new keepAlive now).setting = keepAlive := by
  rw [setting, new, Option.map_map]
  exact congrFun Option.map_id keepAlive

theorem setting_of_resetSleep {self next : SseBody} {now : ℕ}
    (h : self.resetSleep now = some next) : next.setting = self.setting := by
  rw [resetSleep] at h
  split at h
  · next state hstate =>
    obtain ⟨sleep, -, rfl⟩ := Option.map_eq_some_iff.1 h
    rw [setting, setting, hstate]
    rfl
  · rw [Option.some.inj h]

/-- The timer cannot be set anew past the last instant. -/
theorem exists_lt_of_resetSleep {self : SseBody} {now : ℕ} (h : self.resetSleep now = none) :
    ∃ setting ∈ self.setting, Instant.last < now + setting.interval := by
  rw [resetSleep] at h
  split at h
  · next state hstate =>
    refine ⟨state.setting, by rw [setting, hstate]; rfl, ?_⟩
    by_contra hle
    rw [Instant.add, if_pos (Nat.not_lt.1 hle)] at h
    cases h
  · cases h

/-- Where it can be set anew, the instant is early enough. -/
theorem le_of_resetSleep {self next : SseBody} {now : ℕ} (h : self.resetSleep now = some next) :
    ∀ setting ∈ self.setting, now + setting.interval ≤ Instant.last := by
  intro keepAlive hkeep
  obtain ⟨state, hstate, rfl⟩ := Option.map_eq_some_iff.1 hkeep
  rw [resetSleep, hstate] at h
  obtain ⟨sleep, hadd, -⟩ := Option.map_eq_some_iff.1 h
  exact (Option.ite_none_right_eq_some.1 hadd).1

/-! ### What is sent before a panic -/

/-- What the next poll of a body does to a script: it panics, it sends the event that arrives, it
sends a comment or nothing while none arrives, or the stream ends. -/
inductive Step (self : SseBody) (now : ℕ) :
    Poll (Option (Except BoxError (List Event.Call))) → Prop
  | panic {polled} (hpoll : self.pollFrame now (answer polled) = none)
      (hreset : self.resetSleep now = none) : Step self now polled
  | event {calls next} (hpoll : self.pollFrame now (answer (.ready (some (.ok calls)))) =
        some (.ready (some (.ok (Event.build calls).serialize)), next))
      (hreset : self.resetSleep now = some next) : Step self now (.ready (some (.ok calls)))
  | comment {text next} (hpoll : self.pollFrame now (answer .pending) =
        some (.ready (some (.ok (Event.build [.comment text]).serialize)), next))
      (hreset : self.resetSleep now = some next) : Step self now .pending
  | pending (hpoll : self.pollFrame now (answer .pending) = some (.pending, self)) :
      Step self now .pending
  | error {e} (hpoll : self.pollFrame now (answer (.ready (some (.error e)))) =
        some (.ready (some (.error e)), self)) : Step self now (.ready (some (.error e)))
  | closed (hpoll : self.pollFrame now (answer (.ready none)) = some (.ready none, self)) :
      Step self now (.ready none)

theorem step (self : SseBody) (now : ℕ)
    (polled : Poll (Option (Except BoxError (List Event.Call)))) : Step self now polled := by
  obtain - | - | e | calls := polled
  · rcases hkeep : self.keepAlive with - | state
    · exact .pending (by simp only [pollFrame, answer, hkeep])
    · by_cases hfired : state.sleep ≤ now
      · rcases hreset : self.resetSleep now with - | next
        · exact .panic (by simp only [pollFrame, answer, hkeep, if_pos hfired, hreset,
            Option.map_none]) hreset
        · obtain ⟨text, htext⟩ := state.setting.isComment
          refine @Step.comment _ _ text _ ?_ hreset
          simp only [pollFrame, answer, hkeep, if_pos hfired, hreset, Option.map_some, htext]
      · exact .pending (by simp only [pollFrame, answer, hkeep, if_neg hfired])
  · exact .closed rfl
  · exact .error rfl
  · rcases hreset : self.resetSleep now with - | next
    · exact .panic (by simp only [pollFrame, answer, hreset, Option.map_none]) hreset
    · exact .event (by simp only [pollFrame, answer, hreset, Option.map_some]) hreset

/-- The events of a script that are sent before a poll panics. -/
def reached (self : SseBody) : Script → List (List Event.Call)
  | [] => []
  | (now, polled) :: rest =>
    match self.pollFrame now (answer polled), polled with
    | some (_, next), .ready (some (.ok calls)) => calls :: next.reached rest
    | some (_, next), .pending => next.reached rest
    | _, _ => []

/-- The frames are the events reached, with comments between them. -/
theorem exists_frames_eq (self : SseBody) (script : Script) :
    ∃ blocks : List (List Event.Call),
      self.frames script = (blocks.map Event.build).map Event.serialize ∧
        ∀ lastEventId, Event.expected lastEventId blocks =
          Event.expected lastEventId (self.reached script) := by
  induction script generalizing self with
  | nil => exact ⟨[], rfl, fun _ ↦ rfl⟩
  | cons entry rest ih =>
    obtain ⟨now, polled⟩ := entry
    rcases self.step now polled with ⟨hpoll, -⟩ | ⟨hpoll, -⟩ | ⟨hpoll, -⟩ | hpoll | hpoll | hpoll
    · exact ⟨[], by simp only [frames, hpoll, List.map_nil], fun _ ↦ by simp only [reached, hpoll]⟩
    · next calls next =>
      obtain ⟨blocks, hframes, hexpected⟩ := ih next
      refine ⟨calls :: blocks, ?_, fun lastEventId ↦ ?_⟩
      · simp only [frames, hpoll, hframes, List.map_cons]
      · simp only [reached, hpoll, Event.expected, hexpected]
    · -- A comment takes the place of an event, and is no message.
      next text next =>
      obtain ⟨blocks, hframes, hexpected⟩ := ih next
      refine ⟨[.comment text] :: blocks, ?_, fun lastEventId ↦ ?_⟩
      · simp only [frames, hpoll, hframes, List.map_cons]
      · simp only [reached, hpoll]
        exact hexpected lastEventId
    · obtain ⟨blocks, hframes, hexpected⟩ := ih self
      refine ⟨blocks, ?_, fun lastEventId ↦ ?_⟩
      · simp only [frames, hpoll, hframes]
      · simp only [reached, hpoll, hexpected]
    · exact ⟨[], by simp only [frames, hpoll, List.map_nil], fun _ ↦ by simp only [reached, hpoll]⟩
    · exact ⟨[], by simp only [frames, hpoll, List.map_nil], fun _ ↦ by simp only [reached, hpoll]⟩

/-- The frames are read as the events reached. -/
theorem parse_frames_eq (self : SseBody) (script : Script) :
    parse (self.frames script).flatten = Event.expected [] (self.reached script) := by
  obtain ⟨blocks, hframes, hexpected⟩ := self.exists_frames_eq script
  rw [hframes, Event.parse_flatten_serialize, Event.messages_map_build, hexpected]

/-! ### When no message is lost -/

/-- Events without data are no messages. -/
theorem expected_eq_nil_iff {lastEventId : Str} {events : List (List Event.Call)} :
    Event.expected lastEventId events = [] ↔
      ∀ calls ∈ events, ¬ (Event.given Event.Call.data? calls).isSome := by
  induction events generalizing lastEventId with
  | nil => exact iff_of_true rfl nofun
  | cons calls rest ih =>
    rw [Event.expected, List.append_eq_nil_iff, ih, List.forall_mem_cons,
      Option.toList_eq_nil_iff, Option.map_eq_none_iff, Option.not_isSome_iff_eq_none]

theorem le_of_mem_arrivals {script : Script} {now : ℕ} (h : ∀ entry ∈ script, now ≤ entry.1)
    {entry : ℕ × List Event.Call} (hentry : entry ∈ arrivals script) : now ≤ entry.1 := by
  induction script with
  | nil => cases hentry
  | cons first rest ih =>
    obtain ⟨hfirst, hrest⟩ := List.forall_mem_cons.1 h
    obtain ⟨time, - | - | e | calls⟩ := first
    · exact ih hrest hentry
    · cases hentry
    · cases hentry
    · rcases List.mem_cons.1 hentry with rfl | hentry
      · exact hfirst
      · exact ih hrest hentry

/-- Once the timer cannot be set anew, nothing that arrives is in time. -/
theorem inTime_iff_of_lt {self : SseBody} {script : Script} {now : ℕ}
    (hnow : ∀ entry ∈ script, now ≤ entry.1) (hreset : self.resetSleep now = none)
    (lastEventId : Str) :
    [] = Event.expected lastEventId (delivered script) ↔ InTime self.setting script := by
  obtain ⟨setting, hsetting, hlt⟩ := exists_lt_of_resetSleep hreset
  rw [eq_comm, expected_eq_nil_iff, delivered, List.forall_mem_map]
  constructor
  · intro h _ _ entry hentry hdata
    exact absurd hdata (h entry hentry)
  · intro h entry hentry hdata
    have hle := h setting hsetting entry hentry hdata
    have htime := le_of_mem_arrivals hnow hentry
    omega

theorem inTime_of_arrivals_eq_nil {keepAlive : Option KeepAlive} {script : Script}
    (h : arrivals script = []) : InTime keepAlive script := by
  intro setting _ entry hentry
  rw [h] at hentry
  exact absurd hentry List.not_mem_nil

/-- The events reached are the same messages as those that arrive, exactly if all of these are in
time. -/
theorem expected_reached_iff (self : SseBody) {script : Script} (hmonotone : Monotone script)
    (lastEventId : Str) :
    Event.expected lastEventId (self.reached script) =
      Event.expected lastEventId (delivered script) ↔ InTime self.setting script := by
  induction script generalizing self lastEventId with
  | nil => exact iff_of_true rfl (inTime_of_arrivals_eq_nil rfl)
  | cons entry rest ih =>
    obtain ⟨now, polled⟩ := entry
    obtain ⟨hnow, hrest⟩ := List.pairwise_cons.1 hmonotone
    rcases self.step now polled with ⟨hpoll, hreset⟩ | ⟨hpoll, hreset⟩ | ⟨hpoll, hreset⟩ | hpoll |
      hpoll | hpoll
    · have hreached : self.reached ((now, polled) :: rest) = [] := by simp only [reached, hpoll]
      rw [hreached]
      exact inTime_iff_of_lt (List.forall_mem_cons.2 ⟨Nat.le_refl now, hnow⟩) hreset lastEventId
    · next calls next =>
      have hreached : self.reached ((now, .ready (some (.ok calls))) :: rest) =
          calls :: next.reached rest := by simp only [reached, hpoll]
      rw [hreached, delivered, arrivals, List.map_cons, Event.expected, Event.expected,
        List.append_cancel_left_eq]
      refine (ih next hrest _).trans ?_
      rw [setting_of_resetSleep hreset]
      refine forall₂_congr fun setting hsetting ↦ ?_
      rw [arrivals, List.forall_mem_cons]
      exact (and_iff_right fun _ ↦ le_of_resetSleep hreset setting hsetting).symm
    · next text next =>
      have hreached : self.reached ((now, .pending) :: rest) = next.reached rest := by
        simp only [reached, hpoll]
      rw [hreached]
      refine (ih next hrest _).trans ?_
      rw [setting_of_resetSleep hreset]
      rfl
    · have hreached : self.reached ((now, .pending) :: rest) = self.reached rest := by
        simp only [reached, hpoll]
      rw [hreached]
      exact ih self hrest _
    · next e =>
      have hreached : self.reached ((now, .ready (some (.error e))) :: rest) = [] := by
        simp only [reached, hpoll]
      rw [hreached]
      exact iff_of_true rfl (inTime_of_arrivals_eq_nil rfl)
    · have hreached : self.reached ((now, .ready none) :: rest) = [] := by
        simp only [reached, hpoll]
      rw [hreached]
      exact iff_of_true rfl (inTime_of_arrivals_eq_nil rfl)

end SseBody

/-- **The frames of an event stream are read as the messages that were meant**, wherever comments
come between the events, exactly if every message comes at an instant from which the timer can be
set anew. -/
theorem parse_frames_iff (keepAlive : Option KeepAlive) (start : ℕ) {script : SseBody.Script}
    (hmonotone : SseBody.Monotone script) :
    parse ((SseBody.new keepAlive start).frames script).flatten =
      Event.expected [] (SseBody.delivered script) ↔ SseBody.InTime keepAlive script := by
  rw [SseBody.parse_frames_eq, SseBody.expected_reached_iff _ hmonotone, SseBody.setting_new]

/-! ### A quarter of a minute, and for ever -/

section Ticks

/-- An event, a pause of twenty seconds, and another event. -/
def ticks : SseBody.Script :=
  [(0, .ready (some (.ok [.event "tick".toList, .data "one\r\ntwo".toList]))),
    (20 * 10 ^ 9, .pending), (21 * 10 ^ 9, .ready (some (.ok [.id "7".toList, .data []])))]

/-- With the usual interval a comment comes between the two, and both are read. -/
theorem parse_frames_ticks :
    parse ((SseBody.new (some .new) 0).frames ticks).flatten =
      [⟨"one\ntwo".toList, "tick".toList, []⟩, ⟨[], "message".toList, "7".toList⟩] :=
  ((parse_frames_iff (some .new) 0 (by
    rw [SseBody.Monotone]
    decide)).2 (by
      rintro setting hsetting entry hentry -
      obtain rfl := Option.some.inj hsetting
      revert entry
      decide)).trans (by decide)

/-- With the longest interval the first poll panics, and nothing is read. -/
theorem parse_frames_ticks_forever :
    parse ((SseBody.new (some (KeepAlive.new.withInterval durationMax)) 0).frames ticks).flatten ≠
      Event.expected [] (SseBody.delivered ticks) := by
  decide

end Ticks

end Sse
