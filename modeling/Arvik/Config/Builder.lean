import Arvik.Config.Schema
import Arvik.Foundation.KeyedTree
import Mathlib.Data.Char
import Mathlib.Data.List.Lex

/-!
# Building a configuration

A configuration is put together as a tree of values: the defaults, over which the files are laid in
their order, and into which the environment is written, one variable after the other. The finished
tree is read as a configuration, which is then validated.

## The tree

An object is a list of fields with their keys in order, as the map behind it keeps them, and a
`Value` carries the proof of that order. So two ways to the same fields end in the same value, and
the order in which variables are visited can be compared by what is found at the paths.

## The environment

A variable under the chosen prefix overrides one setting, if what follows the prefix is in the table
of the builder (`envOverrides`). One that names a section but no setting of it is an error, reported
when all variables have been visited, so that a mistyped name does not pass for the default; all
others are ignored.

The readers of the formats and of the finished tree are parameters.
-/

namespace Config

/-! ### Values -/

/-- A number as it was read. -/
inductive Number
  | posInt (n : UInt64)
  | negInt (n : Int64)
  | float (bits : UInt64)

/-- The values that are no objects. -/
inductive Scalar
  | null
  | bool (value : Bool)
  | number (value : Number)
  | string (value : Str)
  | array (elements : List (KeyedTree Str Scalar))

/-- A value, with the keys of every object in order. -/
@[ext]
structure Value where
  tree : KeyedTree Str Scalar
  ordered : tree.Ordered

/-- Lay a value over another one. -/
def mergeValues (base overlay : Value) : Value where
  tree := KeyedTree.merge .null base.tree overlay.tree
  ordered := .merge .null overlay.tree base.ordered overlay.ordered

/-- Write a setting. -/
def setPath (root : Value) (setting : KeyedTree.Put Str Scalar) : Value where
  tree := setting.apply root.tree
  ordered := root.ordered.setPath setting.last (.leaf setting.value) setting.segments

/-! ### Configurations as values -/

/-- A value that is no object. -/
def Value.scalar (value : Scalar) : Value :=
  ⟨.leaf value, .leaf value⟩

def Value.number (n : UInt64) : Value :=
  .scalar (.number (.posInt n))

/-- An optional value; nothing is `null`. -/
def Value.option {α : Type} (toValue : α → Value) (value : Option α) : Value :=
  value.elim (.scalar .null) toValue

/-- Set a field of an object. -/
def Value.insert (object : Value) (key : Str) (value : Value) : Value where
  tree := KeyedTree.setPath object.tree key value.tree []
  ordered := object.ordered.setPath key value.ordered []

/-- An object of fields. -/
def Value.object (fields : List (String × Value)) : Value :=
  fields.foldl (fun object field ↦ object.insert field.1.toList field.2)
    ⟨.node [], .node .nil (by simp)⟩

def ServerSection.toValue (self : ServerSection) : Value :=
  .object [("host", .scalar (.string self.host)), ("port", .number self.port.toUInt64),
    ("workers", .option .number self.workers),
    ("backlog", .option (.number ·.toUInt64) self.backlog),
    ("max_connections", .option .number self.maxConnections),
    ("body_limit", .option .number self.bodyLimit),
    ("tcp_nodelay", .option (.scalar <| .bool ·) self.tcpNodelay),
    ("tcp_keepalive_secs", .option .number self.tcpKeepaliveSecs),
    ("tcp_keepalive_interval_secs", .option .number self.tcpKeepaliveIntervalSecs),
    ("tcp_keepalive_retries", .option (.number ·.toUInt64) self.tcpKeepaliveRetries),
    ("reuse_port", .scalar (.bool self.reusePort)),
    ("reuse_address", .scalar (.bool self.reuseAddress)),
    ("socket_recv_buffer_size", .option .number self.socketRecvBufferSize),
    ("socket_send_buffer_size", .option .number self.socketSendBufferSize),
    ("accept_workers", .option .number self.acceptWorkers)]

def Http1Section.toValue (self : Http1Section) : Value :=
  .object [("keep_alive", .scalar (.bool self.keepAlive)),
    ("half_close", .scalar (.bool self.halfClose)),
    ("title_case_headers", .scalar (.bool self.titleCaseHeaders)),
    ("preserve_header_case", .scalar (.bool self.preserveHeaderCase)),
    ("pipeline_flush", .scalar (.bool self.pipelineFlush))]

def Http2Section.toValue (self : Http2Section) : Value :=
  .object [("only", .scalar (.bool self.only)),
    ("adaptive_window", .scalar (.bool self.adaptiveWindow)),
    ("initial_stream_window_size", .option (.number ·.toUInt64) self.initialStreamWindowSize),
    ("initial_connection_window_size",
      .option (.number ·.toUInt64) self.initialConnectionWindowSize),
    ("max_concurrent_streams", .option (.number ·.toUInt64) self.maxConcurrentStreams),
    ("keep_alive_interval_secs", .option .number self.keepAliveIntervalSecs),
    ("keep_alive_timeout_secs", .number self.keepAliveTimeoutSecs),
    ("max_frame_size", .option (.number ·.toUInt64) self.maxFrameSize),
    ("max_send_buf_size", .option .number self.maxSendBufSize),
    ("max_header_list_size", .option (.number ·.toUInt64) self.maxHeaderListSize)]

def TlsBackend.toValue : TlsBackend → Value
  | rustls => .scalar (.string "rustls".toList)
  | nativeTls => .scalar (.string "native-tls".toList)

def TlsSection.toValue (self : TlsSection) : Value :=
  .object [("backend", self.backend.toValue),
    ("cert_path", .option (.scalar <| .string ·) self.certPath),
    ("key_path", .option (.scalar <| .string ·) self.keyPath),
    ("pkcs12_path", .option (.scalar <| .string ·) self.pkcs12Path),
    ("pkcs12_password", .option (.scalar <| .string ·) self.pkcs12Password)]

def ShutdownSection.toValue (self : ShutdownSection) : Value :=
  .object [("drain_timeout_secs", .number self.drainTimeoutSecs)]

/-- A configuration as a tree. -/
def ArvikConfig.toValue (self : ArvikConfig) : Value :=
  .object [("server", self.server.toValue), ("http1", self.http1.toValue),
    ("http2", self.http2.toValue), ("tls", .option TlsSection.toValue self.tls),
    ("shutdown", self.shutdown.toValue)]

/-! ### Files -/

/-- The readers of the file formats, and of the merged tree. -/
class FormatLib where
  toml : Str → Option Value
  json : Str → Option Value
  fromValue : Value → Option ArvikConfig

/-- What follows the last dot of a file name, unless the dot begins the name. -/
def extension (path : Str) : Option Str :=
  ((path.splitOn '/').filter fun component ↦ component ≠ [] && component ≠ ['.']).getLast?.bind
    fun name ↦
      if name = ['.', '.'] then none
      else match name.reverse.dropWhile (· ≠ '.') with
        | [] | [_] => none
        | _ => some (name.reverse.takeWhile (· ≠ '.')).reverse

/-- Read a config file; `read` is what the file system has. -/
def loadFile [FormatLib] (read : Str → Option Str) (path : Str) : Except ConfigError Value :=
  match read path with
  | none => .error (.io path)
  | some contents =>
    if extension path = some "toml".toList then
      (FormatLib.toml contents).elim (.error (.toml path)) .ok
    else if extension path = some "json".toList then
      (FormatLib.json contents).elim (.error (.json path)) .ok
    else .error (.unsupportedExtension path)

/-! ### The environment -/

/-- How the text of a variable is read. -/
inductive Kind
  | bool
  | string
  | number (bits : ℕ) (ty : String)

/-- A setting that a variable overrides. -/
structure EnvOverride where
  /-- What follows the prefix in the name of the variable. -/
  suffix : String
  path : String × String
  kind : Kind

/-- The variables of the schema. -/
def envOverrides : List EnvOverride :=
  [⟨"SERVER_HOST", ("server", "host"), .string⟩,
    ⟨"SERVER_PORT", ("server", "port"), .number 16 "u16"⟩,
    ⟨"SERVER_WORKERS", ("server", "workers"), .number 64 "usize"⟩,
    ⟨"SERVER_BACKLOG", ("server", "backlog"), .number 32 "u32"⟩,
    ⟨"SERVER_MAX_CONNECTIONS", ("server", "max_connections"), .number 64 "usize"⟩,
    ⟨"SERVER_BODY_LIMIT", ("server", "body_limit"), .number 64 "usize"⟩,
    ⟨"SERVER_TCP_NODELAY", ("server", "tcp_nodelay"), .bool⟩,
    ⟨"SERVER_TCP_KEEPALIVE_SECS", ("server", "tcp_keepalive_secs"), .number 64 "u64"⟩,
    ⟨"SERVER_TCP_KEEPALIVE_INTERVAL_SECS", ("server", "tcp_keepalive_interval_secs"),
      .number 64 "u64"⟩,
    ⟨"SERVER_TCP_KEEPALIVE_RETRIES", ("server", "tcp_keepalive_retries"), .number 32 "u32"⟩,
    ⟨"SERVER_REUSE_PORT", ("server", "reuse_port"), .bool⟩,
    ⟨"SERVER_REUSE_ADDRESS", ("server", "reuse_address"), .bool⟩,
    ⟨"SERVER_SOCKET_RECV_BUFFER_SIZE", ("server", "socket_recv_buffer_size"), .number 64 "usize"⟩,
    ⟨"SERVER_SOCKET_SEND_BUFFER_SIZE", ("server", "socket_send_buffer_size"), .number 64 "usize"⟩,
    ⟨"SERVER_ACCEPT_WORKERS", ("server", "accept_workers"), .number 64 "usize"⟩,
    ⟨"HTTP1_KEEP_ALIVE", ("http1", "keep_alive"), .bool⟩,
    ⟨"HTTP1_HALF_CLOSE", ("http1", "half_close"), .bool⟩,
    ⟨"HTTP1_TITLE_CASE_HEADERS", ("http1", "title_case_headers"), .bool⟩,
    ⟨"HTTP1_PRESERVE_HEADER_CASE", ("http1", "preserve_header_case"), .bool⟩,
    ⟨"HTTP1_PIPELINE_FLUSH", ("http1", "pipeline_flush"), .bool⟩,
    ⟨"HTTP2_ONLY", ("http2", "only"), .bool⟩,
    ⟨"HTTP2_ADAPTIVE_WINDOW", ("http2", "adaptive_window"), .bool⟩,
    ⟨"HTTP2_INITIAL_STREAM_WINDOW_SIZE", ("http2", "initial_stream_window_size"), .number 32 "u32"⟩,
    ⟨"HTTP2_INITIAL_CONNECTION_WINDOW_SIZE", ("http2", "initial_connection_window_size"),
      .number 32 "u32"⟩,
    ⟨"HTTP2_MAX_CONCURRENT_STREAMS", ("http2", "max_concurrent_streams"), .number 32 "u32"⟩,
    ⟨"HTTP2_KEEP_ALIVE_INTERVAL_SECS", ("http2", "keep_alive_interval_secs"), .number 64 "u64"⟩,
    ⟨"HTTP2_KEEP_ALIVE_TIMEOUT_SECS", ("http2", "keep_alive_timeout_secs"), .number 64 "u64"⟩,
    ⟨"HTTP2_MAX_FRAME_SIZE", ("http2", "max_frame_size"), .number 32 "u32"⟩,
    ⟨"HTTP2_MAX_SEND_BUF_SIZE", ("http2", "max_send_buf_size"), .number 64 "usize"⟩,
    ⟨"HTTP2_MAX_HEADER_LIST_SIZE", ("http2", "max_header_list_size"), .number 32 "u32"⟩,
    ⟨"TLS_BACKEND", ("tls", "backend"), .string⟩,
    ⟨"TLS_CERT_PATH", ("tls", "cert_path"), .string⟩,
    ⟨"TLS_KEY_PATH", ("tls", "key_path"), .string⟩,
    ⟨"TLS_PKCS12_PATH", ("tls", "pkcs12_path"), .string⟩,
    ⟨"TLS_PKCS12_PASSWORD", ("tls", "pkcs12_password"), .string⟩,
    ⟨"SHUTDOWN_DRAIN_TIMEOUT_SECS", ("shutdown", "drain_timeout_secs"), .number 64 "u64"⟩]

/-- A boolean in one of its spellings. -/
def parseBool (var value : Str) : Except ConfigError Bool :=
  let value := value.map Text.toAsciiLowercase
  if (["true", "1", "yes", "on"].map String.toList).contains value then .ok true
  else if (["false", "0", "no", "off"].map String.toList).contains value then .ok false
  else .error (.env var "expected boolean value".toList)

/-- The value of a variable. -/
def Kind.parse (var value : Str) : Kind → Except ConfigError Scalar
  | bool => (parseBool var value).map .bool
  | string => .ok (.string value)
  | number bits ty =>
    match Text.parseUnsigned bits value with
    | some n => .ok (.number (.posInt (UInt64.ofNat n)))
    | none => .error (.env var ("expected ".toList ++ ty.toList))

/-- The setting that a variable overrides, by what follows the name in front. -/
def parseEnvOverride (suffix var value : Str) :
    Except ConfigError (Option (KeyedTree.Put Str Scalar)) :=
  match envOverrides.find? (·.suffix.toList = suffix) with
  | some entry => (entry.kind.parse var value).map fun value ↦
      some ⟨[entry.path.1.toList], entry.path.2.toList, value⟩
  | none => .ok none

/-- A variable that names a section of the schema. -/
def suffixStartsWithKnownSection (suffix : Str) : Bool :=
  (["server", "http1", "http2", "shutdown", "tls"].map String.toList).contains
    ((suffix.takeWhile (· ≠ '_')).map Text.toAsciiLowercase)

/-- A text of the operating system, if it is UTF-8. -/
abbrev OsString : Type := Option Str

/-- What the names of the variables begin with. -/
def envStart (envPrefix : Str) : Str :=
  (envPrefix.reverse.dropWhile (· = '_')).reverse ++ ['_']

/-- Write the variables of the environment into a tree; those of a known section that override
nothing are collected. -/
def applyVars (start : Str) (root : Value) (unknown : List Str) :
    List (OsString × OsString) → Except ConfigError (Value × List Str)
  | [] => .ok (root, unknown)
  | (some var, some value) :: vars =>
    if !start.isPrefixOf var then applyVars start root unknown vars
    else match parseEnvOverride (var.drop start.length) var value with
      | .error e => .error e
      | .ok (some setting) => applyVars start (setPath root setting) unknown vars
      | .ok none =>
        -- a typo is reported if it starts like a section, else the variable is someone else's
        if suffixStartsWithKnownSection (var.drop start.length) then
          applyVars start root (unknown ++ [var]) vars
        else applyVars start root unknown vars
  -- a variable that is not Unicode is skipped
  | _ :: vars => applyVars start root unknown vars

/-- Write the environment into a tree. -/
def applyEnv (root : Value) (envPrefix : Str) (env : List (OsString × OsString)) :
    Except ConfigError Value :=
  let start := envStart envPrefix
  match applyVars start root [] env with
  | .error e => .error e
  | .ok (root, unknown) =>
    if unknown ≠ [] then
      .error (.validation ("unknown configuration environment variable(s): ".toList ++
        ", ".toList.intercalate unknown ++
        ". Expected names              prefixed with `".toList ++ start ++ "` (e.g. ".toList ++
        start ++ "SERVER_PORT); check for typos.".toList))
    else .ok root

/-! ### The builder -/

/-- What is to be put together. -/
structure ArvikConfigBuilder where
  files : List Str := []
  envPrefix : Str := "ARVIK".toList
  defaults : ArvikConfig := {}

/-- The merged tree: the files over the defaults, and the environment over all. -/
def merged [FormatLib] (read : Str → Option Str) (files : List Str) (envPrefix : Str)
    (env : List (OsString × OsString)) (defaults : Value) : Except ConfigError Value := do
  let merged ← files.foldlM (fun merged file ↦ (mergeValues merged ·) <$> loadFile read file)
    defaults
  applyEnv merged envPrefix env

/-- Load, merge, and validate a configuration. -/
def ArvikConfigBuilder.buildInner [FormatLib] (self : ArvikConfigBuilder)
    (read : Str → Option Str) (env : List (OsString × OsString)) :
    Except ConfigError ArvikConfig := do
  let merged ← merged read self.files self.envPrefix env self.defaults.toValue
  let config ← (FormatLib.fromValue merged).elim (.error .decode) .ok
  config.validate
  return config

end Config
