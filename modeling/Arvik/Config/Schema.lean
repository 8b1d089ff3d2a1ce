import Arvik.Foundation.Text
import Arvik.Hyper.ServerConfig

/-!
# The configuration schema

The sections of a configuration with their defaults, its validation, and its conversion into the
tuning of the server. Every section is a structure with the defaults of the source as default
values, so that `{}` is what a configuration is when nothing was given.

Validation is a sequence of checks, the first of which to fail is the error. The checks come in
three shapes: a condition with its message (`ensure`), an optional number that is not zero
(`validateNonzero`) and a window size that the protocol allows (`validateWindow`). They differ in
which field they look at and how they name it, so each keeps the texts of the source. What passes
them all, and whether that is enough for the calls that the tuning ends in, is the subject of
`Preconditions`.
-/

namespace Config

open Hyper (Usize Duration ServerConfig)

/-! ### Sections -/

/-- Listener, admission, and app-level server settings. -/
structure ServerSection where
  host : Str := "127.0.0.1".toList
  port : UInt16 := 8080
  workers : Option Usize := none
  backlog : Option UInt32 := none
  maxConnections : Option Usize := none
  bodyLimit : Option Usize := none
  tcpNodelay : Option Bool := none
  tcpKeepaliveSecs : Option UInt64 := none
  tcpKeepaliveIntervalSecs : Option UInt64 := none
  tcpKeepaliveRetries : Option UInt32 := none
  reusePort : Bool := false
  reuseAddress : Bool := false
  socketRecvBufferSize : Option Usize := none
  socketSendBufferSize : Option Usize := none
  acceptWorkers : Option Usize := none
  deriving DecidableEq

/-- HTTP/1 protocol settings. -/
structure Http1Section where
  keepAlive : Bool := true
  halfClose : Bool := false
  titleCaseHeaders : Bool := false
  preserveHeaderCase : Bool := false
  pipelineFlush : Bool := false
  deriving DecidableEq

/-- HTTP/2 protocol settings. -/
structure Http2Section where
  only : Bool := false
  adaptiveWindow : Bool := true
  initialStreamWindowSize : Option UInt32 := none
  initialConnectionWindowSize : Option UInt32 := none
  maxConcurrentStreams : Option UInt32 := some 1000
  keepAliveIntervalSecs : Option UInt64 := some 20
  keepAliveTimeoutSecs : UInt64 := 10
  maxFrameSize : Option UInt32 := none
  maxSendBufSize : Option Usize := none
  maxHeaderListSize : Option UInt32 := some (64 * 1024)
  deriving DecidableEq

/-- Supported TLS backends. -/
inductive TlsBackend
  | rustls
  | nativeTls
  deriving DecidableEq

/-- TLS file settings. -/
structure TlsSection where
  backend : TlsBackend := .rustls
  certPath : Option Str := none
  keyPath : Option Str := none
  pkcs12Path : Option Str := none
  pkcs12Password : Option Str := none
  deriving DecidableEq

/-- Graceful shutdown settings. -/
structure ShutdownSection where
  drainTimeoutSecs : UInt64 := 30
  deriving DecidableEq

/-- A complete configuration. -/
structure ArvikConfig where
  server : ServerSection := {}
  http1 : Http1Section := {}
  http2 : Http2Section := {}
  tls : Option TlsSection := none
  shutdown : ShutdownSection := {}
  deriving DecidableEq

/-! ### Errors -/

/-- Configuration load, parse, and validation errors. -/
inductive ConfigError
  | io (path : Str)
  | toml (path : Str)
  | json (path : Str)
  | unsupportedExtension (path : Str)
  | env (var message : Str)
  | decode
  | validation (message : Str)
  | watch (message : Str)
  deriving DecidableEq

/-! ### Validation -/

/-- A check of the schema. -/
def ensure (passes : Bool) (message : Str) : Except ConfigError Unit :=
  if passes then .ok () else .error (.validation message)

/-- An optional number is not zero. -/
def validateNonzero {T : Type} [DecidableEq T] [OfNat T 0] (value : Option T) (name : String) :
    Except ConfigError Unit :=
  ensure (value ≠ some 0) (name.toList ++ " must be greater than 0".toList)

/-- The largest window of the protocol. -/
def h2MaxWindow : ℕ := 2 ^ 31 - 1

/-- A window size is one of the protocol. -/
def validateWindow (field : String) (value : Option UInt32) : Except ConfigError Unit :=
  match value with
  | none => .ok ()
  | some size => ensure (size.toNat ≤ h2MaxWindow) (field.toList ++ " must be at most ".toList ++
      Nat.toDigits 10 h2MaxWindow ++ " (h2 protocol maximum), got ".toList ++
      Nat.toDigits 10 size.toNat)

/-- The files a backend needs are there. -/
def TlsSection.validate (self : TlsSection) : Except ConfigError Unit :=
  match self.backend with
  | .rustls => ensure (self.certPath.isSome && self.keyPath.isSome)
      "tls.cert_path and tls.key_path are required for rustls".toList
  | .nativeTls => ensure self.pkcs12Path.isSome
      "tls.pkcs12_path is required for native-tls".toList

namespace ArvikConfig

/-- Validate a configuration. -/
def validate (self : ArvikConfig) : Except ConfigError Unit := do
  ensure (self.server.port ≠ 0) "server.port must be between 1 and 65535".toList
  validateNonzero self.server.workers "server.workers"
  validateNonzero self.server.backlog "server.backlog"
  validateNonzero self.server.maxConnections "server.max_connections"
  validateNonzero self.server.bodyLimit "server.body_limit"
  validateNonzero self.server.tcpKeepaliveSecs "server.tcp_keepalive_secs"
  validateNonzero self.server.tcpKeepaliveIntervalSecs "server.tcp_keepalive_interval_secs"
  validateNonzero self.server.tcpKeepaliveRetries "server.tcp_keepalive_retries"
  validateNonzero self.server.socketRecvBufferSize "server.socket_recv_buffer_size"
  validateNonzero self.server.socketSendBufferSize "server.socket_send_buffer_size"
  validateNonzero self.server.acceptWorkers "server.accept_workers"
  ensure (self.server.acceptWorkers.getD 1 ≤ 1 || self.server.reusePort)
    "server.accept_workers greater than 1 requires server.reuse_port = true".toList
  ensure (self.server.backlog.all (·.toNat ≤ 2 ^ 31 - 1)) "server.backlog must fit into i32".toList
  -- the two windows are checked twice, against zero and against the protocol's maximum
  validateNonzero self.http2.initialStreamWindowSize "http2.initial_stream_window_size"
  validateNonzero self.http2.initialConnectionWindowSize "http2.initial_connection_window_size"
  validateWindow "http2.initial_stream_window_size" self.http2.initialStreamWindowSize
  validateWindow "http2.initial_connection_window_size" self.http2.initialConnectionWindowSize
  validateNonzero self.http2.maxConcurrentStreams "http2.max_concurrent_streams"
  validateNonzero self.http2.maxSendBufSize "http2.max_send_buf_size"
  validateNonzero self.http2.maxHeaderListSize "http2.max_header_list_size"
  ensure (self.http2.keepAliveIntervalSecs ≠ some 0)
    "http2.keep_alive_interval_secs must be greater than 0 or omitted".toList
  ensure (self.http2.keepAliveTimeoutSecs ≠ 0)
    "http2.keep_alive_timeout_secs must be greater than 0".toList
  ensure (self.http2.maxFrameSize.all fun size ↦ 16384 ≤ size && size ≤ 16777215)
    "http2.max_frame_size must be between 16384 and 16777215".toList
  ensure (self.shutdown.drainTimeoutSecs ≠ 0)
    "shutdown.drain_timeout_secs must be greater than 0".toList
  self.tls.elim (.ok ()) TlsSection.validate

/-! ### Conversion -/

/-- The low-level tuning of the server. -/
def serverConfig (self : ArvikConfig) : ServerConfig :=
  let config : ServerConfig := {
    http1KeepAlive := self.http1.keepAlive
    http1HalfClose := self.http1.halfClose
    http1TitleCaseHeaders := self.http1.titleCaseHeaders
    http1PreserveHeaderCase := self.http1.preserveHeaderCase
    http1PipelineFlush := self.http1.pipelineFlush
    http2Only := self.http2.only
    http2AdaptiveWindow := self.http2.adaptiveWindow
    http2KeepAliveTimeout := .fromSecs self.http2.keepAliveTimeoutSecs }
  let config := config.ifSome self.server.maxConnections fun config max ↦
    { config with maxConnections := some max }
  let config := config.ifSome self.server.tcpNodelay fun config enabled ↦
    { config with tcpNodelay := some enabled }
  let config := config.ifSome self.server.tcpKeepaliveSecs fun config secs ↦
    { config with tcpKeepalive := some (.fromSecs secs) }
  let config := config.ifSome self.server.tcpKeepaliveIntervalSecs fun config secs ↦
    { config with tcpKeepaliveInterval := some (.fromSecs secs) }
  let config := config.ifSome self.server.tcpKeepaliveRetries fun config retries ↦
    { config with tcpKeepaliveRetries := some retries }
  let config := if self.server.reusePort then { config with reusePort := true } else config
  let config := if self.server.reuseAddress then { config with reuseAddress := true } else config
  let config := config.ifSome self.server.backlog fun config backlog ↦
    -- the cast keeps the bits, so a large backlog would turn negative
    { config with backlog := some backlog.toInt32 }
  let config := config.ifSome self.server.socketRecvBufferSize fun config size ↦
    { config with socketRecvBufferSize := some size }
  let config := config.ifSome self.server.socketSendBufferSize fun config size ↦
    { config with socketSendBufferSize := some size }
  let config := config.ifSome self.server.acceptWorkers ServerConfig.setAcceptWorkers
  let config := config.ifSome self.http2.initialStreamWindowSize fun config size ↦
    { config with http2InitialStreamWindowSize := some size }
  let config := config.ifSome self.http2.initialConnectionWindowSize fun config size ↦
    { config with http2InitialConnectionWindowSize := some size }
  let config := { config with http2MaxConcurrentStreams := self.http2.maxConcurrentStreams }
  let config :=
    { config with http2KeepAliveInterval := self.http2.keepAliveIntervalSecs.map .fromSecs }
  let config := config.ifSome self.http2.maxFrameSize fun config size ↦
    { config with http2MaxFrameSize := some size }
  let config := config.ifSome self.http2.maxSendBufSize fun config size ↦
    { config with http2MaxSendBufSize := some size }
  config.ifSome self.http2.maxHeaderListSize fun config size ↦
    { config with http2MaxHeaderListSize := some size }

end ArvikConfig

end Config
