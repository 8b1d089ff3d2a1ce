import Arvik.Foundation.Transition
import Arvik.Ws.Message

/-!
# The connected WebSocket

The calls of an application on a connected socket, as they wait for the stream and for the sink of
the protocol library. The socket is held in one piece, where one call waits at a time and `recv`
answers pings, or in two halves, where a `next` and a `send` wait side by side and pings are handed
on. What the library answers is up to the run, and so is the future that is dropped while it waits.

No call loses a message that was read, whatever is dropped (`deliveries_eq`). Messages on the other
way wait at the sink one after the other, so a failing write or a dropped future loses those that
are due, and nothing else does: `keepsAsked_iff`.

A call is a state in which it waits, with the messages it has still to write. Every event has one of
a few effects on what was delivered and on what is due (`effect_of_step`), and both results are
about these: an item that the library yields is delivered in the very step, so there is no state in
which a drop could lose it, while a message that is asked for is due until the sink has taken it. A
pong is asked for by the socket itself, which makes it a message like any other that a drop may
lose.
-/

namespace WebSocket

/-! ### The calls -/

/-- How the socket is held. -/
inductive Mode
  | whole
  | split
  deriving DecidableEq, Repr

/-- What a call waits for at the sink. -/
inductive Write
  /-- Feed a message of the application. -/
  | message (msg : Message)
  /-- Feed the answer to a ping. -/
  | pong (data : Bytes)
  | flush
  deriving DecidableEq, Repr

/-- Send a message, and flush. -/
def send (msg : Message) : List Write :=
  [.message msg, .flush]

def sendText (text : Str) : List Write :=
  send (.text text)

def sendBinary (data : Bytes) : List Write :=
  send (.binary data)

/-- Send messages, flushing once at the end. -/
def sendBatch (msgs : List Message) : List Write :=
  msgs.map .message ++ [.flush]

/-- Close the socket in one piece: the frame is sent, then the sink is flushed. -/
def close (frame : Option CloseFrame) : List Write :=
  send (.close frame) ++ [.flush]

/-- Close the socket by its sending half. -/
def Sender.close (frame : Option CloseFrame) : List Write :=
  send (.close frame)

/-- The answer to a ping. -/
def autoPong (data : Bytes) : List Write :=
  [.pong data, .flush]

inductive Call
  /-- `recv` of the socket, `next` of its receiving half. -/
  | recv
  | send (msg : Message)
  | sendBatch (msgs : List Message)
  /-- `flush`, which only the sending half has. -/
  | flush
  | close (frame : Option CloseFrame)
  deriving DecidableEq, Repr

/-- What a call does at the sink. -/
def Call.writes (mode : Mode) : Call → List Write
  | recv => []
  | send msg => WebSocket.send msg
  | sendBatch msgs => WebSocket.sendBatch msgs
  | flush => [.flush]
  | close frame =>
    match mode with
    | .whole => WebSocket.close frame
    | .split => Sender.close frame

/-! ### Sessions -/

/-- A call that waits at the sink, and what it has still to do there. -/
structure Writing where
  todo : Write
  rest : List Write
  /-- The call is a `recv`, which goes on reading. -/
  recv : Bool
  deriving DecidableEq, Repr

/-- What a call returns. -/
inductive Reply (E : Type)
  | done (result : Except E Unit)
  | received (item : Option (Except E Message))
  | panicked

structure Session (E : Type) where
  /-- A call waits for the stream. -/
  reading : Bool := false
  writing : Option Writing := none
  /-- The socket has been taken by `close`. -/
  closed : Bool := false
  /-- What the sink has done. -/
  sink : List Write := []
  returned : List (Reply E) := []

inductive Event (C E : Type)
  | call (call : Call)
  /-- The stream has an item, or has ended. -/
  | next (item : Option (Except E (Tungstenite.Message C)))
  /-- The sink has done what a call waited for, or fails. -/
  | wrote (result : Except E Unit)
  /-- The call that waits for the stream is dropped. -/
  | dropRead
  /-- The call that waits for the sink is dropped. -/
  | dropWrite

variable {C E : Type} [Tungstenite.CloseCodeLib C]

/-- The call that does some writes. -/
def Writing.start? (recv : Bool) : List Write → Option Writing
  | [] => none
  | todo :: rest => some ⟨todo, rest, recv⟩

namespace Session

/-- The call can be made. A socket in one piece has one call at a time. -/
def idle (mode : Mode) (s : Session E) : Call → Bool
  | .recv => !s.reading && !s.closed && (mode = .split || s.writing.isNone)
  | .flush => mode = .split && s.writing.isNone
  | _ => s.writing.isNone && !s.closed && (mode = .split || !s.reading)

def call (mode : Mode) (s : Session E) : Call → Session E
  | .recv => { s with reading := true }
  | .close frame =>
    let writing := Writing.start? false ((Call.close frame).writes mode)
    { s with writing, closed := mode = .whole }
  | c => { s with writing := Writing.start? false (c.writes mode) }

/-- Return what was read. -/
def deliver (s : Session E) (item : Option (Except E (Tungstenite.Message C))) : Session E :=
  let reply := match item with
    | none => .received none
    | some (.error e) => .received (some (.error e))
    | some (.ok msg) =>
      match Message.ofTungstenite msg with
      | some msg => .received (some (.ok msg))
      | none => .panicked
  { s with reading := false, returned := s.returned ++ [reply] }

/-- The loop of `recv`: pings are answered, raw frames are skipped. -/
def next (mode : Mode) (s : Session E) (item : Option (Except E (Tungstenite.Message C))) :
    Session E :=
  match mode, item with
  | .whole, some (.ok (.ping data)) =>
    { s with reading := false, writing := Writing.start? true (autoPong data) }
  | .whole, some (.ok (.frame _)) => s
  | _, item => s.deliver item

/-- Go on after a write: with the next one, with reading, or by returning. -/
def wrote (s : Session E) (w : Writing) : Except E Unit → Session E
  | .ok () =>
    let s := { s with sink := s.sink ++ [w.todo], writing := Writing.start? w.recv w.rest }
    if w.rest.isEmpty then
      if w.recv then { s with reading := true }
      else { s with returned := s.returned ++ [.done (.ok ())] }
    else s
  | .error e =>
    let reply := if w.recv then .received (some (.error e)) else .done (.error e)
    { s with writing := none, returned := s.returned ++ [reply] }

def step (mode : Mode) (s : Session E) : Event C E → Option (Session E)
  | .call c => if s.idle mode c then some (s.call mode c) else none
  | .next item => if s.reading then some (s.next mode item) else none
  | .wrote result => s.writing.map fun w ↦ s.wrote w result
  | .dropRead => if s.reading then some { s with reading := false } else none
  | .dropWrite => s.writing.map fun _ ↦ { s with writing := none }

end Session

/-- A connected socket. -/
def Socket (C E : Type) [Tungstenite.CloseCodeLib C] (mode : Mode) :
    Transition (Session E) (Event C E) where
  init := {}
  step := Session.step mode

/-! ### What is read and what is asked for -/

/-- What the stream had for the calls of a run. -/
def items (es : List (Event C E)) : List (Option (Except E (Tungstenite.Message C))) :=
  es.filterMap fun
    | .next item => some item
    | _ => none

/-- The message of an item that an application gets to see. -/
def visible (mode : Mode) : Option (Except E (Tungstenite.Message C)) → Option Message
  | some (.ok (.ping data)) =>
    match mode with
    | .whole => none
    | .split => some (.ping data)
  | some (.ok msg) => Message.ofTungstenite msg
  | _ => none

/-- The messages that calls have returned. -/
def Session.deliveries (s : Session E) : List Message :=
  s.returned.filterMap fun
    | .received (some (.ok msg)) => some msg
    | _ => none

/-- What is to be handed to the sink because of an event. -/
def Event.asks (mode : Mode) : Event C E → List Write
  | .call c => (c.writes mode).filter (· ≠ .flush)
  | .next (some (.ok (.ping data))) => if mode = .whole then [.pong data] else []
  | _ => []

/-- What is to be handed to the sink in a run. -/
def asked (mode : Mode) (es : List (Event C E)) : List Write :=
  es.flatMap (Event.asks mode)

/-- What has been handed to the sink. -/
def Session.handed (s : Session E) : List Write :=
  s.sink.filter (· ≠ .flush)

/-- What a call has still to hand to the sink. -/
def Session.due (s : Session E) : List Write :=
  s.writing.toList.flatMap fun w ↦ (w.todo :: w.rest).filter (· ≠ .flush)

/-- The event ends a call that waits at the sink, by an error of the sink or because the future was
dropped. -/
def Event.GivesUp : Event C E → Prop
  | .wrote (.error _) | .dropWrite => True
  | _ => False

/-- All that is asked for has been handed to the sink or is due, in order and once each. -/
def KeepsAsked (mode : Mode) (es : List (Event C E)) (s : Session E) : Prop :=
  s.handed ++ s.due = asked mode es

/-! ### What a step does -/

/-- The steps of a session, with what they wait for. -/
inductive Effect (mode : Mode) (s : Session E) : Event C E → Session E → Prop
  | call (c : Call) (idle : s.idle mode c) : Effect mode s (.call c) (s.call mode c)
  | next (item : Option (Except E (Tungstenite.Message C))) (reading : s.reading = true) :
      Effect mode s (.next item) (s.next mode item)
  | wrote (result : Except E Unit) (w : Writing) (writing : s.writing = some w) :
      Effect mode s (.wrote result) (s.wrote w result)
  | dropRead (reading : s.reading = true) : Effect mode s .dropRead { s with reading := false }
  | dropWrite (w : Writing) (writing : s.writing = some w) :
      Effect mode s .dropWrite { s with writing := none }

section Steps

variable {mode : Mode} {s s' : Session E}

theorem effect_of_step {e : Event C E} (h : s.step mode e = some s') : Effect mode s e s' := by
  rcases e with c | item | result | - | -
  · obtain ⟨hidle, h⟩ := Option.ite_none_right_eq_some.1 h
    obtain rfl := Option.some.inj h
    exact .call c hidle
  · obtain ⟨hreading, h⟩ := Option.ite_none_right_eq_some.1 h
    obtain rfl := Option.some.inj h
    exact .next item hreading
  · obtain ⟨w, hw, rfl⟩ := Option.map_eq_some_iff.1 h
    exact .wrote result w hw
  · obtain ⟨hreading, h⟩ := Option.ite_none_right_eq_some.1 h
    obtain rfl := Option.some.inj h
    exact .dropRead hreading
  · obtain ⟨w, hw, rfl⟩ := Option.map_eq_some_iff.1 h
    exact .dropWrite w hw

omit [Tungstenite.CloseCodeLib C] in
theorem asked_concat (es : List (Event C E)) (e : Event C E) :
    asked mode (es ++ [e]) = asked mode es ++ e.asks mode := by
  rw [asked, List.flatMap_append, List.flatMap_singleton, asked]

theorem due_start (s : Session E) (recv : Bool) (writes : List Write) :
    { s with writing := Writing.start? recv writes }.due = writes.filter (· ≠ .flush) := by
  rcases writes with - | ⟨todo, rest⟩
  · rfl
  · exact List.append_nil _

theorem due_of_writing_eq_none (h : s.writing = none) : s.due = [] := by
  rw [Session.due, h]
  rfl

omit [Tungstenite.CloseCodeLib C] in
/-- A call is due with all it asks for. -/
theorem due_call {c : Call} (h : s.idle mode c) :
    (s.call mode c).due = s.due ++ (Event.call c : Event C E).asks mode := by
  rcases c with - | msg | msgs | - | frame
  case recv => exact (List.append_nil _).symm
  all_goals
    rw [due_of_writing_eq_none (s := s) (by
      simp only [Session.idle, Bool.and_eq_true, Option.isNone_iff_eq_none] at h
      first | exact h.2 | exact h.1.1)]
    exact due_start s false _

theorem call_frame (c : Call) :
    (s.call mode c).deliveries = s.deliveries ∧ (s.call mode c).handed = s.handed := by
  rcases c with - | msg | msgs | - | frame <;> exact ⟨rfl, rfl⟩

/-- What is returned is what an item shows in the split mode, where pings are shown. -/
theorem deliveries_deliver (item : Option (Except E (Tungstenite.Message C))) :
    (s.deliver item).deliveries = s.deliveries ++ (visible .split item).toList := by
  refine (List.filterMap_append).trans (congrArg (s.deliveries ++ ·) ?_)
  rcases item with - | (error | msg)
  · rfl
  · rfl
  · rcases msg with t | data | data | data | frame | raw <;> rfl

theorem deliveries_next (item : Option (Except E (Tungstenite.Message C))) :
    (s.next mode item).deliveries = s.deliveries ++ (visible mode item).toList := by
  rcases mode with - | -
  · rcases item with - | (error | msg)
    · exact deliveries_deliver _
    · exact deliveries_deliver _
    · rcases msg with t | data | data | data | frame | raw
      case ping => exact (List.append_nil _).symm
      case frame => exact (List.append_nil _).symm
      all_goals exact deliveries_deliver _
  · exact deliveries_deliver item

/-- A ping that is read is due with its answer. -/
theorem due_next (h : mode = .whole → s.writing = none)
    (item : Option (Except E (Tungstenite.Message C))) :
    (s.next mode item).due = s.due ++ (Event.next item : Event C E).asks mode ∧
      (s.next mode item).handed = s.handed := by
  rcases mode with - | -
  · rcases item with - | (error | msg)
    · exact ⟨(List.append_nil _).symm, rfl⟩
    · exact ⟨(List.append_nil _).symm, rfl⟩
    · rcases msg with t | data | data | data | frame | raw
      case ping =>
        rw [due_of_writing_eq_none (h rfl)]
        exact ⟨due_start s true (autoPong data), rfl⟩
      all_goals exact ⟨(List.append_nil _).symm, rfl⟩
  · refine ⟨?_, rfl⟩
    rcases item with - | (error | (t | data | data | data | frame | raw)) <;>
      exact (List.append_nil _).symm

/-- A write that is done hands over what was first due. -/
theorem wrote_ok {w : Writing} (h : s.writing = some w) :
    (s.wrote w (.ok ())).handed ++ (s.wrote w (.ok ())).due = s.handed ++ s.due ∧
      (s.wrote w (.ok ())).deliveries = s.deliveries := by
  have hdue : s.due = [w.todo].filter (· ≠ .flush) ++ w.rest.filter (· ≠ .flush) := by
    rw [Session.due, h, ← List.filter_append]
    exact List.append_nil _
  have hwrote : (s.wrote w (.ok ())).handed = s.handed ++ [w.todo].filter (· ≠ .flush) ∧
      (s.wrote w (.ok ())).due = w.rest.filter (· ≠ .flush) ∧
        (s.wrote w (.ok ())).deliveries = s.deliveries := by
    rcases w with ⟨todo, rest, recv⟩
    rcases rest with - | ⟨next, rest⟩
    · rcases recv with - | -
      · exact ⟨List.filter_append _ _, rfl, (List.filterMap_append).trans (List.append_nil _)⟩
      · exact ⟨List.filter_append _ _, rfl, rfl⟩
    · exact ⟨List.filter_append _ _, List.append_nil _, rfl⟩
  rw [hwrote.1, hwrote.2.1, hdue, List.append_assoc]
  exact ⟨rfl, hwrote.2.2⟩

/-- A write that fails is due no more, and nothing else of its call is. -/
theorem wrote_error (w : Writing) (e : E) :
    (s.wrote w (.error e)).handed = s.handed ∧ (s.wrote w (.error e)).due = [] ∧
      (s.wrote w (.error e)).deliveries = s.deliveries := by
  refine ⟨rfl, rfl, ?_⟩
  rw [Session.wrote, Session.deliveries, List.filterMap_append]
  rcases w.recv with - | - <;> exact List.append_nil _

end Steps

/-! ### Runs -/

section Runs

variable {mode : Mode} {es : List (Event C E)} {s : Session E}

/-- A socket in one piece has one call that waits. -/
theorem writing_eq_none_of_reading (h : (Socket C E .whole).run es = some s)
    (hreading : s.reading = true) : s.writing = none := by
  refine Transition.run_induction (P := fun _ s ↦ s.reading = true → s.writing = none)
    (fun _ ↦ rfl) (fun es s e s' _ hs hstep ↦ ?_) h hreading
  rcases effect_of_step hstep with ⟨c, hidle⟩ | ⟨item, hr⟩ | ⟨result, w, hw⟩ | hr | ⟨w, hw⟩
  · rcases c with - | msg | msgs | - | frame
    case recv =>
      intro _
      show s.writing = none
      simpa using (Bool.and_eq_true_iff.1 hidle).2
    case flush => exact absurd hidle Bool.false_ne_true
    all_goals
      intro (hr : s.reading = true)
      exact absurd hr (by simpa using (Bool.and_eq_true_iff.1 hidle).2)
  · rcases item with - | (e | (t | data | data | data | frame | raw))
    case some.ok.frame => exact hs
    all_goals exact fun h ↦ absurd h Bool.false_ne_true
  · rcases result with e | -
    · exact fun _ ↦ rfl
    · rcases w with ⟨todo, rest, recv⟩
      rcases rest with - | ⟨next, rest⟩
      · rcases recv with - | - <;> exact fun _ ↦ rfl
      · -- while a write is waited for, no call waits for the stream
        exact fun hr ↦ nomatch (hs hr).symm.trans hw
  · exact fun h ↦ absurd h Bool.false_ne_true
  · exact fun _ ↦ rfl

/-- **No message that was read is lost**: in any run, whatever futures are dropped, the calls have
returned the messages that the stream had for them, in order and once each, apart from the pings
that `recv` answers and raw frames. -/
theorem deliveries_eq (h : (Socket C E mode).run es = some s) :
    s.deliveries = (items es).filterMap (visible mode) := by
  refine Transition.run_induction
    (P := fun es s ↦ s.deliveries = (items es).filterMap (visible mode)) rfl
    (fun es s e s' _ hs hstep ↦ ?_) h
  show s'.deliveries = (items (es ++ [e])).filterMap (visible mode)
  rw [items, List.filterMap_append, List.filterMap_append, ← items, ← hs]
  rcases effect_of_step hstep with ⟨c, -⟩ | ⟨item, -⟩ | ⟨result, w, hw⟩ | - | -
  · exact (call_frame c).1.trans (List.append_nil _).symm
  · rw [deliveries_next]
    show _ = s.deliveries ++ [item].filterMap (visible mode)
    rw [List.filterMap_cons]
    rcases visible mode item with - | msg <;> rfl
  · refine Eq.trans ?_ (List.append_nil _).symm
    rcases result with e | -
    · exact (wrote_error w e).2.2
    · exact (wrote_ok hw).2
  · exact (List.append_nil _).symm
  · exact (List.append_nil _).symm

/-- A step keeps what has been asked for, unless it ends a call that has something due. -/
theorem keepsAsked_concat_iff {e : Event C E} {s' : Session E}
    (h : (Socket C E mode).run es = some s) (hs : KeepsAsked mode es s)
    (hstep : s.step mode e = some s') :
    KeepsAsked mode (es ++ [e]) s' ↔ (e.GivesUp → s.due = []) := by
  rw [KeepsAsked, asked_concat, ← hs]
  have hlost : s.handed ++ [] = s.handed ++ s.due ++ [] ↔ (True → s.due = []) := by
    rw [List.append_nil, List.append_nil, List.self_eq_append_right, true_imp_iff]
  rcases effect_of_step hstep with ⟨c, hidle⟩ | ⟨item, hreading⟩ | ⟨result, w, hw⟩ | - | ⟨w, hw⟩
  · refine iff_of_true ?_ False.elim
    rw [due_call (C := C) hidle, (call_frame c).2, List.append_assoc]
  · refine iff_of_true ?_ False.elim
    have hwriting : mode = .whole → s.writing = none := by
      rintro rfl
      exact writing_eq_none_of_reading h hreading
    rw [(due_next hwriting item).1, (due_next hwriting item).2, List.append_assoc]
  · rcases result with e | -
    · obtain ⟨hhanded, hdue, -⟩ := wrote_error (s := s) w e
      rw [hhanded, hdue]
      exact hlost
    · refine iff_of_true ?_ False.elim
      exact (wrote_ok hw).1.trans (List.append_nil _).symm
  · exact iff_of_true (List.append_nil _).symm False.elim
  · exact hlost

/-- **All that is asked for is handed over, in order and once each**, be it by the application or by
a ping, throughout a run exactly if no write fails and no call is dropped that has something due at
the sink. -/
theorem keepsAsked_iff (h : (Socket C E mode).run es = some s) :
    (Socket C E mode).Throughout (KeepsAsked mode) es ↔
      (Socket C E mode).Each (fun _ s e ↦ e.GivesUp → s.due = []) es :=
  Transition.throughout_iff_each rfl
    (fun _ _ _ _ hrun hkept hstep ↦ keepsAsked_concat_iff hrun hkept hstep) h

end Runs

section Witness

/-- Close codes that are their numbers. -/
@[reducible]
private def plainCodes : Tungstenite.CloseCodeLib UInt16 where
  toU16 := id
  ofU16 := id
  toU16_ofU16 _ := rfl

attribute [local instance] plainCodes

/-- A `recv` that answers a ping before it returns a text. -/
private def pinged : List (Event UInt16 Unit) :=
  [.call .recv, .next (some (.ok (.ping [1]))), .wrote (.ok ()), .wrote (.ok ()),
    .next (some (.ok (.text ['a'])))]

/-- A `recv` that is dropped while it answers a ping. -/
private def dropped : List (Event UInt16 Unit) :=
  [.call .recv, .next (some (.ok (.ping [1]))), .dropWrite]

theorem deliveries_eq_pinged : ∃ s, (Socket UInt16 Unit .whole).run pinged = some s ∧
    s.deliveries = [.text ['a']] := by
  obtain ⟨s, hs⟩ : ∃ s, (Socket UInt16 Unit .whole).run pinged = some s := ⟨_, rfl⟩
  exact ⟨s, hs, (deliveries_eq hs).trans rfl⟩

theorem keepsAsked_iff_dropped :
    ¬(Socket UInt16 Unit .whole).Throughout (KeepsAsked .whole) dropped := by
  intro h
  have hdue := (keepsAsked_iff (s := { }) rfl).1 h (dropped.dropLast) .dropWrite _
    List.prefix_rfl rfl trivial
  exact List.cons_ne_nil _ _ hdue

end Witness

end WebSocket
