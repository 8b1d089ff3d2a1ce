import Arvik.Config.Schema

/-!
# From a valid configuration to a connection

A configuration is checked by `validate`, converted by `serverConfig`, and its settings are handed
to the builder of connections, which asserts that they are in range. Nothing between the three
places checks a setting again: what validation lets through and the builder does not take makes the
server panic when its first connection arrives.

## The three places

* `validate_eq_ok_iff` says what validation promises, as a record with a field for every check
  (`ArvikConfig.Valid`).
* Conversion sets one field after another, each only if its setting is there. A field that a setter
  does not name is what it was before (`field_ifSome`), which gives the fields that the builder
  asserts something about, one lemma for each.
* `forall_autoBuilder_inRange_iff` says what the builder asserts of the fields it is given.

## The result

Validation checks every setting that the builder asserts something about, except that the size of
the send buffer has no upper bound (`buildsSafely_iff`). The backlog is cast to a signed number, and
validation keeps it small enough to stay what it is.
-/

namespace Config

open Hyper

/-! ### What validation promises -/

/-- Both of two checks pass. -/
theorem seq_eq_ok_iff {x y : Except ConfigError Unit} :
    (x >>= fun _ ↦ y) = .ok () ↔ x = .ok () ∧ y = .ok () := by
  cases x with
  | error e => exact iff_of_false (fun h ↦ by cases h) fun h ↦ by cases h.1
  | ok u => exact ⟨fun h ↦ ⟨rfl, h⟩, fun h ↦ h.2⟩

theorem ensure_eq_ok_iff {passes : Bool} {message : Str} :
    ensure passes message = .ok () ↔ passes := by
  cases passes with
  | true => exact iff_of_true rfl rfl
  | false => exact iff_of_false (fun h ↦ by cases h) Bool.false_ne_true

theorem validateNonzero_eq_ok_iff {T : Type} [DecidableEq T] [OfNat T 0] {value : Option T}
    {name : String} : validateNonzero value name = .ok () ↔ value ≠ some 0 := by
  rw [validateNonzero, ensure_eq_ok_iff, decide_eq_true_iff]

theorem validateWindow_eq_ok_iff {field : String} {value : Option UInt32} :
    validateWindow field value = .ok () ↔ ∀ size ∈ value, size.toNat ≤ h2MaxWindow := by
  cases value with
  | none => exact iff_of_true rfl fun _ h ↦ by cases h
  | some size => simp [validateWindow, ensure_eq_ok_iff]

/-- What is checked of a configuration. -/
@[mk_iff]
structure ArvikConfig.Valid (config : ArvikConfig) : Prop where
  port : config.server.port ≠ 0
  workers : config.server.workers ≠ some 0
  backlog : config.server.backlog ≠ some 0
  maxConnections : config.server.maxConnections ≠ some 0
  bodyLimit : config.server.bodyLimit ≠ some 0
  tcpKeepaliveSecs : config.server.tcpKeepaliveSecs ≠ some 0
  tcpKeepaliveIntervalSecs : config.server.tcpKeepaliveIntervalSecs ≠ some 0
  tcpKeepaliveRetries : config.server.tcpKeepaliveRetries ≠ some 0
  socketRecvBufferSize : config.server.socketRecvBufferSize ≠ some 0
  socketSendBufferSize : config.server.socketSendBufferSize ≠ some 0
  acceptWorkers : config.server.acceptWorkers ≠ some 0
  reusePort : config.server.acceptWorkers.getD 1 ≤ 1 ∨ config.server.reusePort = true
  backlogFits : ∀ backlog ∈ config.server.backlog, backlog.toNat ≤ 2 ^ 31 - 1
  initialStreamWindowSize : config.http2.initialStreamWindowSize ≠ some 0
  initialConnectionWindowSize : config.http2.initialConnectionWindowSize ≠ some 0
  streamWindowFits : ∀ size ∈ config.http2.initialStreamWindowSize, size.toNat ≤ h2MaxWindow
  connectionWindowFits : ∀ size ∈ config.http2.initialConnectionWindowSize, size.toNat ≤ h2MaxWindow
  maxConcurrentStreams : config.http2.maxConcurrentStreams ≠ some 0
  maxSendBufSize : config.http2.maxSendBufSize ≠ some 0
  maxHeaderListSize : config.http2.maxHeaderListSize ≠ some 0
  keepAliveIntervalSecs : config.http2.keepAliveIntervalSecs ≠ some 0
  keepAliveTimeoutSecs : config.http2.keepAliveTimeoutSecs ≠ 0
  maxFrameSize : ∀ size ∈ config.http2.maxFrameSize, 16384 ≤ size ∧ size ≤ 16777215
  drainTimeoutSecs : config.shutdown.drainTimeoutSecs ≠ 0
  tls : ∀ tls ∈ config.tls, tls.validate = .ok ()

theorem validate_eq_ok_iff (self : ArvikConfig) : self.validate = .ok () ↔ self.Valid := by
  have htls : self.tls.elim (.ok ()) TlsSection.validate = .ok () ↔
      ∀ tls ∈ self.tls, tls.validate = .ok () := by
    cases self.tls <;> simp
  simp only [ArvikConfig.validate, seq_eq_ok_iff, ensure_eq_ok_iff, validateNonzero_eq_ok_iff,
    validateWindow_eq_ok_iff, htls, ArvikConfig.valid_iff, decide_eq_true_iff, Bool.or_eq_true,
    Bool.and_eq_true, Option.all_eq_true, Option.mem_def]

/-! ### What conversion keeps -/

/-- A field of the tuning behind an optional setting. -/
theorem field_ifSome {α β : Type} (field : ServerConfig → β) (setting : Option α)
    (set : ServerConfig → α → ServerConfig) (config : ServerConfig) :
    field (config.ifSome setting set) =
      setting.elim (field config) fun x ↦ field (set config x) := by
  cases setting <;> rfl

theorem elim_const {α β : Type} (setting : Option α) (x : β) :
    (setting.elim x fun _ ↦ x) = x := by
  cases setting <;> rfl

theorem elim_none_some {α β : Type} (setting : Option α) (f : α → β) :
    (setting.elim none fun x ↦ some (f x)) = setting.map f := by
  cases setting <;> rfl

theorem elim_some {α : Type} (setting : Option α) :
    (setting.elim none fun x ↦ some x) = setting := by
  cases setting <;> rfl

theorem backlog_serverConfig (self : ArvikConfig) :
    self.serverConfig.backlog = self.server.backlog.map UInt32.toInt32 := by
  simp only [ArvikConfig.serverConfig, field_ifSome ServerConfig.backlog, apply_ite
    ServerConfig.backlog, ServerConfig.setAcceptWorkers, elim_const, elim_none_some, ite_self]

theorem http1MaxBufSize_serverConfig (self : ArvikConfig) :
    self.serverConfig.http1MaxBufSize = none := by
  simp only [ArvikConfig.serverConfig, field_ifSome ServerConfig.http1MaxBufSize, apply_ite
    ServerConfig.http1MaxBufSize, ServerConfig.setAcceptWorkers, elim_const, ite_self]

theorem http2InitialStreamWindowSize_serverConfig (self : ArvikConfig) :
    self.serverConfig.http2InitialStreamWindowSize = self.http2.initialStreamWindowSize := by
  simp only [ArvikConfig.serverConfig, field_ifSome ServerConfig.http2InitialStreamWindowSize,
    apply_ite ServerConfig.http2InitialStreamWindowSize, ServerConfig.setAcceptWorkers,
    elim_const, elim_some, ite_self]

theorem http2InitialConnectionWindowSize_serverConfig (self : ArvikConfig) :
    self.serverConfig.http2InitialConnectionWindowSize =
      self.http2.initialConnectionWindowSize := by
  simp only [ArvikConfig.serverConfig, field_ifSome ServerConfig.http2InitialConnectionWindowSize,
    apply_ite ServerConfig.http2InitialConnectionWindowSize, ServerConfig.setAcceptWorkers,
    elim_const, elim_some, ite_self]

theorem http2MaxFrameSize_serverConfig (self : ArvikConfig) :
    self.serverConfig.http2MaxFrameSize = self.http2.maxFrameSize := by
  simp only [ArvikConfig.serverConfig, field_ifSome ServerConfig.http2MaxFrameSize,
    apply_ite ServerConfig.http2MaxFrameSize, ServerConfig.setAcceptWorkers,
    elim_const, elim_some, ite_self]

theorem http2MaxSendBufSize_serverConfig (self : ArvikConfig) :
    self.serverConfig.http2MaxSendBufSize = self.http2.maxSendBufSize := by
  simp only [ArvikConfig.serverConfig, field_ifSome ServerConfig.http2MaxSendBufSize,
    apply_ite ServerConfig.http2MaxSendBufSize, ServerConfig.setAcceptWorkers,
    elim_const, elim_some, ite_self]

/-! ### Building a connection -/

/-- Every call of the builder is in range if the buffer, window and frame sizes are. -/
theorem forall_autoBuilder_inRange_iff (self : ServerConfig) :
    (∀ call ∈ self.autoBuilder, call.InRange) ↔
      (∀ size ∈ self.http1MaxBufSize, 8192 ≤ size.toNat) ∧
      (∀ size ∈ self.http2InitialStreamWindowSize, size.toNat ≤ 2 ^ 31 - 1) ∧
      (∀ size ∈ self.http2InitialConnectionWindowSize, size.toNat ≤ 2 ^ 31 - 1) ∧
      (∀ size ∈ self.http2MaxFrameSize, 16384 ≤ size.toNat ∧ size.toNat ≤ 16777215) ∧
      ∀ size ∈ self.http2MaxSendBufSize, size.toNat ≤ 2 ^ 32 - 1 := by
  have hmap : ∀ {α : Type} (setting : Option α) (call : α → BuilderCall),
      (∀ c ∈ (setting.map call).toList, c.InRange) ↔ ∀ x ∈ setting, (call x).InRange := by
    intro α setting call
    cases setting <;> simp
  have honly : ∀ c ∈ (if self.http2Only then [BuilderCall.http2Only] else []), c.InRange := by
    split_ifs <;> simp [BuilderCall.InRange]
  simp only [ServerConfig.autoBuilder, List.forall_mem_append, hmap, iff_true_intro honly]
  simp only [List.forall_mem_cons, List.not_mem_nil, BuilderCall.InRange, false_imp_iff,
    implies_true, true_and, and_true, and_assoc]

/-- The builder does not panic, and the backlog keeps its value. The backlog is unsigned in the
configuration and signed where the socket is made, and nothing is told if it does not fit. -/
structure ArvikConfig.BuildsSafely [BuilderLib] (config : ArvikConfig) : Prop where
  asserts : ∀ call ∈ config.serverConfig.autoBuilder, BuilderLib.Asserts call
  backlog : config.serverConfig.backlog.map Int32.toInt =
    config.server.backlog.map fun backlog ↦ (backlog.toNat : ℤ)

theorem toInt_toInt32 {n : UInt32} (h : n.toNat ≤ 2 ^ 31 - 1) : n.toInt32.toInt = n.toNat := by
  have hbits : n.toInt32.toBitVec.toNat = n.toNat := rfl
  exact (BitVec.toInt_eq_toNat_of_lt (by omega)).trans (congrArg Nat.cast hbits)

/-- **When a valid configuration builds safely**: its send buffer is no larger than `2³² - 1`. All
else that the builder asserts is checked. -/
theorem buildsSafely_iff [BuilderLib] {self : ArvikConfig} (hvalid : self.validate = .ok ()) :
    self.BuildsSafely ↔ ∀ size ∈ self.http2.maxSendBufSize, size.toNat ≤ 2 ^ 32 - 1 := by
  have hvalid := (validate_eq_ok_iff self).1 hvalid
  have hasserts : (∀ call ∈ self.serverConfig.autoBuilder, BuilderLib.Asserts call) ↔
      ∀ size ∈ self.http2.maxSendBufSize, size.toNat ≤ 2 ^ 32 - 1 := by
    have hinRange := forall_autoBuilder_inRange_iff self.serverConfig
    rw [http1MaxBufSize_serverConfig, http2InitialStreamWindowSize_serverConfig,
      http2InitialConnectionWindowSize_serverConfig, http2MaxFrameSize_serverConfig,
      http2MaxSendBufSize_serverConfig] at hinRange
    rw [forall₂_congr fun call _ ↦ BuilderLib.asserts_iff call, hinRange]
    refine ⟨fun h ↦ h.2.2.2.2, fun h ↦ ⟨?_, hvalid.streamWindowFits,
      hvalid.connectionWindowFits, hvalid.maxFrameSize, h⟩⟩
    intro size hsize
    cases hsize
  have hbacklog : self.serverConfig.backlog.map Int32.toInt =
      self.server.backlog.map fun backlog ↦ (backlog.toNat : ℤ) := by
    rw [backlog_serverConfig, Option.map_map]
    exact Option.map_congr fun backlog h ↦ toInt_toInt32 (hvalid.backlogFits backlog h)
  exact ⟨fun h ↦ hasserts.1 h.asserts, fun h ↦ ⟨hasserts.2 h, hbacklog⟩⟩

section Documented

/-- A builder that asserts what is documented. -/
private local instance documented : BuilderLib where
  Asserts := BuilderCall.InRange
  asserts_iff _ := Iff.rfl

/-- Every setting the builder asserts something about, and the backlog, as large as it may be. -/
def largestConfig : ArvikConfig where
  server := { backlog := some 2147483647 }
  http2 := { initialStreamWindowSize := some 2147483647,
             initialConnectionWindowSize := some 2147483647,
             maxFrameSize := some 16777215,
             maxSendBufSize := some 4294967295 }

theorem largestConfig_buildsSafely : largestConfig.BuildsSafely := by
  refine (buildsSafely_iff (by decide)).2 fun size hsize ↦ ?_
  rw [← Option.some.inj hsize]
  decide

/-- A configuration that is valid, and whose send buffer makes the builder panic. -/
theorem large_send_buffer_not_buildsSafely :
    ({ http2 := { maxSendBufSize := some 4294967296 } } : ArvikConfig).validate = .ok () ∧
      ¬ ({ http2 := { maxSendBufSize := some 4294967296 } } : ArvikConfig).BuildsSafely := by
  refine ⟨by decide, fun h ↦ ?_⟩
  have hcalls := (forall_autoBuilder_inRange_iff _).1 h.asserts
  exact absurd (hcalls.2.2.2.2 4294967296 (http2MaxSendBufSize_serverConfig _)) (by decide)

end Documented

end Config
