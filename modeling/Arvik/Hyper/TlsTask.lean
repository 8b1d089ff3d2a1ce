import Arvik.Foundation.Machine

/-!
# The task of a TLS connection

Every admitted TLS connection is a task of its own: the TLS accept, then the connection service
until it resolves, the two together under the configured handshake timeout. The task as a whole can
be aborted while the server drains.

The hyper connection is a parameter (`HyperConnection`): how it progresses, when it resolves and
what a graceful shutdown does to it are not looked into. What the task adds around it is the
sequence `accept → run_connection` (`handshake`), the timer and the abort, both of them
interruptions of what is below (`connectionTask`).

`TimerBoundsHandshake` says what a timeout named after the handshake is for, on one run of events.
`timerBoundsHandshake_iff` compares it with the task: a run has the property exactly when the timer
does not fire in an established connection, and all runs have it exactly when there is no timer.

The timer is an event like the others and may come at any point of a run; nothing is assumed about
how long anything takes. A connection that does nothing is enough to refute the property for a
server with a timer (`idleConnection`), and the default configuration has one. The two ways of
accepting, with either TLS library, differ in their errors only, and make the same task
(`Listener.task_eq`).
-/

namespace TlsTask

/-! ### The connection future -/

/-- How a connection future resolves. -/
inductive ConnectionResult
  /-- The peer closed, or a graceful shutdown finished. -/
  | ok
  /-- The connection failed. -/
  | err
  deriving DecidableEq, Repr

/-- A hyper connection over an accepted stream, as a machine of its own: where it starts, what
traffic makes of it, and what a graceful shutdown does to it. -/
structure HyperConnection (ε σ : Type) where
  /-- The connection before any traffic. -/
  start : σ
  /-- Traffic: requests served, the peer closing, errors. -/
  step : σ → ε → σ ⊕ ConnectionResult
  /-- Stop taking new requests. -/
  gracefulShutdown : σ → σ

/-- The two halves of the shutdown-aware select. -/
inductive ServeState (σ : Type)
  /-- Waiting for the connection or the shutdown signal. -/
  | serving (conn : σ)
  /-- The signal was seen; only the connection is waited for. -/
  | draining (conn : σ)
  deriving DecidableEq, Repr

/-- What an admitted connection sees. -/
inductive ConnectionEvent (ε : Type)
  | acceptOk
  | acceptErr
  | traffic (e : ε)
  | shutdown
  deriving DecidableEq, Repr

variable {ε σ : Type}

/-- Serve an accepted connection. On the shutdown signal the connection is told to finish and then
only waited for. -/
def runConnection (conn : HyperConnection ε σ) :
    Machine (ConnectionEvent ε) (ServeState σ) ConnectionResult where
  step
    | .serving c, .traffic e => (conn.step c e).map .serving id
    | .serving c, .shutdown => .inl (.draining (conn.gracefulShutdown c))
    | .draining c, .traffic e => (conn.step c e).map .draining id
    | s, _ => .inl s

/-- The state in which serving starts; a signal sent during the accept is seen at once. -/
def ServeState.start (conn : HyperConnection ε σ) (signalled : Bool) : ServeState σ :=
  if signalled then .draining (conn.gracefulShutdown conn.start) else .serving conn.start

/-! ### The task -/

/-- The future under the timeout: the accept, then the connection. -/
inductive HandshakeState (σ : Type)
  /-- The accept is pending; the flag says whether shutdown was signalled meanwhile. -/
  | accepting (signalled : Bool)
  | established (s : ServeState σ)
  deriving DecidableEq, Repr

/-- How that future ends. -/
inductive HandshakeResult
  | acceptFailed
  | served (result : ConnectionResult)
  deriving DecidableEq, Repr

/-- Accept, and on success run the connection to its end. -/
def handshake (conn : HyperConnection ε σ) :
    Machine (ConnectionEvent ε) (HandshakeState σ) HandshakeResult where
  step
    | .accepting signalled, .acceptOk => .inl (.established (.start conn signalled))
    | .accepting _, .acceptErr => .inr .acceptFailed
    | .accepting _, .shutdown => .inl (.accepting true)
    | .accepting signalled, .traffic _ => .inl (.accepting signalled)
    | .established s, e => ((runConnection conn).step s e).map .established .served

/-- The events of a task: those of the connection, the timer and the abort. -/
abbrev TaskEvent (ε : Type) := Option (Option (ConnectionEvent ε))

/-- The states of a task: an unfinished handshake, or how the task ended. -/
abbrev TaskState (σ : Type) := HandshakeState σ ⊕ Option (Option HandshakeResult)

/-- The handshake timer fires. -/
def timer : TaskEvent ε := some none

/-- The owner aborts the task. -/
def abort : TaskEvent ε := none

/-- The connection sees an event. -/
def event (e : ConnectionEvent ε) : TaskEvent ε := some (some e)

/-- The task was ended by the timer. -/
def timedOut : TaskState σ := .inr (some none)

/-- The task was ended by the abort. -/
def aborted : TaskState σ := .inr none

/-- The task ended by itself. -/
def finished (r : HandshakeResult) : TaskState σ := .inr (some (some r))

/-- The task of an admitted connection: the handshake future under the optional timeout, in a task
that can be aborted. -/
def connectionTask (handshakeTimeout : Option ℕ) (conn : HyperConnection ε σ) :
    Machine (TaskEvent ε) (HandshakeState σ) (Option (Option HandshakeResult)) :=
  ((handshake conn).interruptible handshakeTimeout.isSome).interruptible true

/-- The server configuration, as far as a connection task reads it. -/
structure ServerConfig where
  /-- Upper bound on the TLS handshake phase, in milliseconds. -/
  handshakeTimeout : Option ℕ := some 10000
  /-- Whether only HTTP/2 with prior knowledge is accepted. -/
  http2Only : Bool := false

/-- The two TLS listeners. -/
inductive Listener
  | tls
  | nativeTls
  deriving DecidableEq, Repr

section

variable (config : ServerConfig) (serve : Bool → HyperConnection ε σ)

/-- The task spawned by the rustls listener; `serve` builds the connection, either for HTTP/2 only
or with upgrades. -/
def acceptTls : Machine (TaskEvent ε) (HandshakeState σ) (Option (Option HandshakeResult)) :=
  connectionTask config.handshakeTimeout (serve config.http2Only)

/-- The task spawned by the native-tls listener. -/
def acceptNativeTls :
    Machine (TaskEvent ε) (HandshakeState σ) (Option (Option HandshakeResult)) :=
  connectionTask config.handshakeTimeout (serve config.http2Only)

/-- The task of a listener. -/
def Listener.task : Listener →
    Machine (TaskEvent ε) (HandshakeState σ) (Option (Option HandshakeResult))
  | tls => acceptTls config serve
  | nativeTls => acceptNativeTls config serve

end

/-- Both listeners spawn the same task. -/
theorem Listener.task_eq (listener : Listener) (config : ServerConfig)
    (serve : Bool → HyperConnection ε σ) :
    listener.task config serve =
      connectionTask config.handshakeTimeout (serve config.http2Only) := by
  cases listener <;> rfl

/-- The state of a task after a run. -/
def after (task : Machine (TaskEvent ε) (HandshakeState σ) (Option (Option HandshakeResult)))
    (es : List (TaskEvent ε)) : TaskState σ :=
  task.run (.inl (.accepting false)) es

/-! ### What one event does -/

section

variable (handshakeTimeout : Option ℕ) (conn : HyperConnection ε σ)

/-- A configured timer ends the task, whatever its state. -/
theorem step_timer_of_isSome (h : handshakeTimeout.isSome) (s : HandshakeState σ) :
    (connectionTask handshakeTimeout conn).step s timer = timedOut := by
  rw [connectionTask, h]
  rfl

/-- Without a configured timeout there is no timer. -/
theorem step_timer_of_eq_none (h : handshakeTimeout = none) (s : HandshakeState σ) :
    (connectionTask handshakeTimeout conn).step s timer = .inl s := by
  rw [h]
  rfl

/-- An established connection is ended by the timer, by the abort, or because it resolved. -/
theorem step_established_eq_inr {s : ServeState σ} {e : TaskEvent ε}
    {r : Option (Option HandshakeResult)}
    (h : (connectionTask handshakeTimeout conn).step (.established s) e = .inr r) :
    (e = timer ∧ r = some none) ∨ r = none ∨ ∃ result, r = some (some (.served result)) := by
  match e with
  | none => exact .inr (.inl (Sum.inr.inj h).symm)
  | some none =>
    cases hto : handshakeTimeout.isSome with
    | true =>
      rw [show (some none : TaskEvent ε) = timer from rfl, step_timer_of_isSome _ conn hto] at h
      exact .inl ⟨rfl, (Sum.inr.inj h).symm⟩
    | false =>
      rw [show (some none : TaskEvent ε) = timer from rfl,
        step_timer_of_eq_none _ conn (Option.isNone_iff_eq_none.1 (by simpa using hto))] at h
      cases h
  | some (some e) =>
    -- The event reaches the connection, so the task can only end as the connection does.
    cases hstep : (runConnection conn).step s e with
    | inl s' =>
      simp only [connectionTask, Machine.interruptible, handshake, hstep, Sum.map_inl] at h
      cases h
    | inr result =>
      simp only [connectionTask, Machine.interruptible, handshake, hstep, Sum.map_inr] at h
      exact .inr (.inr ⟨result, (Sum.inr.inj h).symm⟩)

end

/-! ### What the timeout is for -/

/-- On a run, the timer bounds the handshake and nothing else: it ends a handshake that is still
going on, and an established connection goes on as if there were no timer. -/
structure TimerBoundsHandshake
    (task : Machine (TaskEvent ε) (HandshakeState σ) (Option (Option HandshakeResult)))
    (configured : Bool) (es : List (TaskEvent ε)) : Prop where
  /-- Firing leaves an established connection as it is. -/
  keeps_established : ∀ pre post s, es = pre ++ timer :: post →
    after task pre = .inl (.established s) → after task (pre ++ [timer]) = .inl (.established s)
  /-- An established connection ends because it resolved or because it was aborted. -/
  ends_established : ∀ pre e post s r, es = pre ++ e :: post →
    after task pre = .inl (.established s) → after task (pre ++ [e]) = .inr r →
    .inr r = (aborted : TaskState σ) ∨ ∃ result, .inr r = (finished (.served result) : TaskState σ)
  /-- A configured timer firing during the accept drops the connection. -/
  drops_accepting : configured → ∀ pre post signalled, es = pre ++ timer :: post →
    after task pre = .inl (.accepting signalled) → after task (pre ++ [timer]) = timedOut

/-- In the run the timer fires while the connection is established. -/
def FiresWhileEstablished
    (task : Machine (TaskEvent ε) (HandshakeState σ) (Option (Option HandshakeResult)))
    (es : List (TaskEvent ε)) : Prop :=
  ∃ pre post s, es = pre ++ timer :: post ∧ after task pre = .inl (.established s)

section

variable (handshakeTimeout : Option ℕ) (conn : HyperConnection ε σ)

theorem after_concat_of_running {es : List (TaskEvent ε)} {s : HandshakeState σ} (e : TaskEvent ε)
    (h : after (connectionTask handshakeTimeout conn) es = .inl s) :
    after (connectionTask handshakeTimeout conn) (es ++ [e]) =
      (connectionTask handshakeTimeout conn).step s e := by
  rw [after, Machine.run_concat]
  rw [after] at h
  rw [h]
  rfl

/-- Without a timer the property holds on every run. -/
theorem timerBoundsHandshake_of_eq_none (h : handshakeTimeout = none) (es : List (TaskEvent ε)) :
    TimerBoundsHandshake (connectionTask handshakeTimeout conn) handshakeTimeout.isSome es where
  keeps_established pre post s _ hpre := by
    rw [after_concat_of_running _ conn timer hpre, step_timer_of_eq_none _ conn h]
  ends_established pre e post s r _ hpre hr := by
    rw [after_concat_of_running _ conn e hpre] at hr
    rcases step_established_eq_inr _ conn hr with ⟨rfl, rfl⟩ | rfl | ⟨result, rfl⟩
    · rw [step_timer_of_eq_none _ conn h] at hr
      cases hr
    · exact .inl rfl
    · exact .inr ⟨result, rfl⟩
  drops_accepting hsome := by
    rw [h] at hsome
    cases hsome

/-- With a timer, a run has the property as long as the timer spares established connections. -/
theorem timerBoundsHandshake_of_not_fires {es : List (TaskEvent ε)}
    (h : ¬ FiresWhileEstablished (connectionTask handshakeTimeout conn) es) :
    TimerBoundsHandshake (connectionTask handshakeTimeout conn) handshakeTimeout.isSome es where
  keeps_established pre post s hes hpre := absurd ⟨pre, post, s, hes, hpre⟩ h
  ends_established pre e post s r hes hpre hr := by
    rw [after_concat_of_running _ conn e hpre] at hr
    rcases step_established_eq_inr _ conn hr with ⟨rfl, rfl⟩ | rfl | ⟨result, rfl⟩
    · exact absurd ⟨pre, post, s, hes, hpre⟩ h
    · exact .inl rfl
    · exact .inr ⟨result, rfl⟩
  drops_accepting hsome pre post signalled _ hpre := by
    rw [after_concat_of_running _ conn timer hpre, step_timer_of_isSome _ conn hsome]

/-- A configured timer that fires in an established connection ends it. -/
theorem not_timerBoundsHandshake_of_fires {es : List (TaskEvent ε)}
    (hsome : handshakeTimeout.isSome)
    (h : FiresWhileEstablished (connectionTask handshakeTimeout conn) es) :
    ¬ TimerBoundsHandshake (connectionTask handshakeTimeout conn) handshakeTimeout.isSome es := by
  obtain ⟨pre, post, s, hes, hpre⟩ := h
  intro hbounds
  have hkept := hbounds.keeps_established pre post s hes hpre
  rw [after_concat_of_running _ conn timer hpre, step_timer_of_isSome _ conn hsome] at hkept
  cases hkept

end

/-- For either listener: a run has the property exactly when no configured timer fires in an
established connection, and every run has it exactly when no timeout is configured. -/
theorem timerBoundsHandshake_iff (listener : Listener) (config : ServerConfig)
    (serve : Bool → HyperConnection ε σ) :
    (∀ es, TimerBoundsHandshake (listener.task config serve) config.handshakeTimeout.isSome es ↔
      (config.handshakeTimeout = none ∨
        ¬ FiresWhileEstablished (listener.task config serve) es)) ∧
    ((∀ es, TimerBoundsHandshake (listener.task config serve) config.handshakeTimeout.isSome es) ↔
      config.handshakeTimeout = none) := by
  rw [listener.task_eq]
  have hiff : ∀ es, TimerBoundsHandshake
      (connectionTask config.handshakeTimeout (serve config.http2Only))
      config.handshakeTimeout.isSome es ↔
      (config.handshakeTimeout = none ∨ ¬ FiresWhileEstablished
        (connectionTask config.handshakeTimeout (serve config.http2Only)) es) := by
    intro es
    constructor
    · intro hbounds
      by_contra hcon
      obtain ⟨hne, hfires⟩ := not_or.1 hcon
      exact not_timerBoundsHandshake_of_fires _ _ (Option.isSome_iff_ne_none.2 hne)
        (not_not.1 hfires) hbounds
    · rintro (hnone | hfires)
      · exact timerBoundsHandshake_of_eq_none _ _ hnone es
      · exact timerBoundsHandshake_of_not_fires _ _ hfires
  refine ⟨hiff, fun hall ↦ ?_, fun hnone es ↦ timerBoundsHandshake_of_eq_none _ _ hnone es⟩
  -- A connection that is accepted and still open when the timer fires.
  rcases (hiff [event .acceptOk, timer]).1 (hall _) with hnone | hfires
  · exact hnone
  · exact absurd ⟨[event .acceptOk], [], _, rfl, rfl⟩ hfires

/-- A connection whose only traffic is a request served at once. -/
def idleConnection : HyperConnection Unit Unit where
  start := ()
  step _ _ := .inl ()
  gracefulShutdown := id

/-- Under the default configuration, the timer ends a connection that has already served a
request. -/
theorem default_timer_ends_established :
    ¬ TimerBoundsHandshake (acceptTls {} fun _ ↦ idleConnection) true
      [event .acceptOk, event (.traffic ()), timer] := by
  intro h
  have hkept := h.keeps_established [event .acceptOk, event (.traffic ())] [] _ rfl rfl
  cases hkept

end TlsTask
