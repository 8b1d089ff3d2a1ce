import Mathlib.Algebra.Group.Nat.Defs

/-!
# Tuning of the server

The low-level settings of a server, with their defaults and setters, and the calls by which they are
handed to the builder of connections. Numbers keep the width of the source, since a size of a
pointer and a window of 32 bits have different bounds.

The builder belongs to the HTTP library. What it asserts about its arguments is a parameter, with
the documented ranges as what is known of it (`BuilderCall.InRange`): inside these it does not
panic, outside nothing is said. The calls are made in the order of the source, each setting that is
absent leaving its call out, and a panic at one of them is a panic of the whole
(`ServerConfig.autoBuilder`).
-/

namespace Hyper

/-- A number of the size of a pointer. -/
abbrev Usize : Type := UInt64

/-- A span of time. -/
structure Duration where
  secs : UInt64
  deriving DecidableEq

/-- A span of whole seconds. -/
def Duration.fromSecs (secs : UInt64) : Duration :=
  ⟨secs⟩

/-- Low-level HTTP server tuning. -/
structure ServerConfig where
  maxConnections : Option Usize := none
  tcpNodelay : Option Bool := some true
  tcpKeepalive : Option Duration := none
  tcpKeepaliveInterval : Option Duration := none
  tcpKeepaliveRetries : Option UInt32 := none
  reusePort : Bool := false
  reuseAddress : Bool := false
  backlog : Option Int32 := none
  socketRecvBufferSize : Option Usize := none
  socketSendBufferSize : Option Usize := none
  acceptWorkers : Usize := 1
  http1KeepAlive : Bool := true
  http1HalfClose : Bool := false
  http1TitleCaseHeaders : Bool := false
  http1PreserveHeaderCase : Bool := false
  http1PipelineFlush : Bool := false
  http1HeaderReadTimeout : Option Duration := none
  http1MaxBufSize : Option Usize := none
  http2Only : Bool := false
  http2AdaptiveWindow : Bool := true
  http2InitialStreamWindowSize : Option UInt32 := none
  http2InitialConnectionWindowSize : Option UInt32 := none
  http2MaxConcurrentStreams : Option UInt32 := some 1000
  http2KeepAliveInterval : Option Duration := some (.fromSecs 20)
  http2KeepAliveTimeout : Duration := .fromSecs 10
  http2MaxFrameSize : Option UInt32 := none
  http2MaxSendBufSize : Option Usize := none
  http2MaxHeaderListSize : Option UInt32 := some (64 * 1024)
  deriving DecidableEq

/-- Hand a setting on if it is there. -/
def ServerConfig.ifSome {α : Type} (setting : Option α) (set : ServerConfig → α → ServerConfig)
    (self : ServerConfig) : ServerConfig :=
  match setting with
  | some value => set self value
  | none => self

/-- The number of accept workers is at least one. -/
def ServerConfig.setAcceptWorkers (self : ServerConfig) (workers : Usize) : ServerConfig :=
  { self with acceptWorkers := max workers 1 }

/-! ### The builder of connections -/

/-- A call of the builder of connections. -/
inductive BuilderCall
  | http1KeepAlive (enabled : Bool)
  | http1HalfClose (enabled : Bool)
  | http1TitleCaseHeaders (enabled : Bool)
  | http1PreserveHeaderCase (enabled : Bool)
  | http1PipelineFlush (enabled : Bool)
  | http1HeaderReadTimeout (timeout : Duration)
  | http1MaxBufSize (size : Usize)
  | http1Timer
  | http2Timer
  | http2AdaptiveWindow (enabled : Bool)
  | http2InitialStreamWindowSize (size : Option UInt32)
  | http2InitialConnectionWindowSize (size : Option UInt32)
  | http2MaxConcurrentStreams (max : Option UInt32)
  | http2KeepAliveInterval (interval : Option Duration)
  | http2KeepAliveTimeout (timeout : Duration)
  | http2MaxFrameSize (size : Option UInt32)
  | http2MaxSendBufSize (size : Usize)
  | http2MaxHeaderListSize (size : UInt32)
  | http2Only

/-- The calls that make the builder of a server, in order. -/
def ServerConfig.autoBuilder (self : ServerConfig) : List BuilderCall :=
  [.http1KeepAlive self.http1KeepAlive, .http1HalfClose self.http1HalfClose,
    .http1TitleCaseHeaders self.http1TitleCaseHeaders,
    .http1PreserveHeaderCase self.http1PreserveHeaderCase,
    .http1PipelineFlush self.http1PipelineFlush] ++
  (self.http1HeaderReadTimeout.map .http1HeaderReadTimeout).toList ++
  (self.http1MaxBufSize.map .http1MaxBufSize).toList ++
  [.http1Timer, .http2Timer, .http2AdaptiveWindow self.http2AdaptiveWindow,
    .http2InitialStreamWindowSize self.http2InitialStreamWindowSize,
    .http2InitialConnectionWindowSize self.http2InitialConnectionWindowSize,
    .http2MaxConcurrentStreams self.http2MaxConcurrentStreams,
    .http2KeepAliveInterval self.http2KeepAliveInterval,
    .http2KeepAliveTimeout self.http2KeepAliveTimeout,
    .http2MaxFrameSize self.http2MaxFrameSize] ++
  (self.http2MaxSendBufSize.map .http2MaxSendBufSize).toList ++
  (self.http2MaxHeaderListSize.map .http2MaxHeaderListSize).toList ++
  if self.http2Only then [.http2Only] else []

/-- The arguments that are documented not to panic: window sizes and frame sizes that the protocol
allows, and buffer sizes within their bounds. -/
def BuilderCall.InRange : BuilderCall → Prop
  | http1MaxBufSize size => 8192 ≤ size.toNat
  | http2InitialStreamWindowSize size => ∀ n ∈ size, n.toNat ≤ 2 ^ 31 - 1
  | http2InitialConnectionWindowSize size => ∀ n ∈ size, n.toNat ≤ 2 ^ 31 - 1
  | http2MaxFrameSize size => ∀ n ∈ size, 16384 ≤ n.toNat ∧ n.toNat ≤ 16777215
  | http2MaxSendBufSize size => size.toNat ≤ 2 ^ 32 - 1
  | _ => True

/-- The builder of connections: the calls whose assertions hold. -/
class BuilderLib where
  Asserts : BuilderCall → Prop
  asserts_iff : ∀ call, Asserts call ↔ call.InRange

end Hyper
