import Arvik.Foundation.Text
import Arvik.Foundation.Transition
import Mathlib.Logic.Function.Basic

/-!
# The reloadable TLS configuration

The clones of a `RustlsConfig` share one cell with the active configuration. Two operations write
it. `reload_from_pem` builds a new configuration and stores it; `with_alpn_http2_only` takes a copy
of the active one, restricts its protocols, and stores the copy. Each takes the lock anew whenever
it reads or writes, so calls on different clones interleave between these accesses (`RustlsConfig`).

`KeepsSettings` is what the two operations promise together: the active certificate is the one of
the last reload, a failed reload changes nothing, and once a call of `with_alpn_http2_only` has
returned, only HTTP/2 is offered. A reload builds its configuration from scratch, with both
protocols, and the copy may be older than a reload; `keepsSettings_iff` says which events of a run
do no harm.

The promise is about a history: which reload was the last one, and whether some call has returned.
Both are read off the events, and `keepsSettings_concat_iff` compares the promise before and after
one event, with a case for each kind of access. The invariant behind it is that every configuration
there is, active or copied, was built by the library, so it offers both protocols or only the second
(`Offers`).
-/

namespace Tls

/-- PEM files and rustls. -/
class RustlsLib where
  /-- A certificate in DER form. -/
  Cert : Type
  /-- A private key in DER form. -/
  Key : Type
  /-- The certificates of a PEM file, or an error text. -/
  certs : Bytes → Except Str (List Cert)
  /-- The first private key of a PEM file, or an error text. -/
  privateKey : Bytes → Except Str (Option Key)
  /-- Whether a certificate chain and a key can serve; if not, an error text. -/
  withSingleCert : List Cert → Key → Except Str Unit

/-- Why a configuration could not be built. -/
inductive TlsError
  | pem (text : Str)
  | config (text : Str)
  deriving DecidableEq

def alpnHttp2 : Bytes := Text.utf8 "h2".toList
def alpnHttp11 : Bytes := Text.utf8 "http/1.1".toList

section Configuration

variable [RustlsLib]

/-- A certificate chain with its key. -/
abbrev Identity := List RustlsLib.Cert × RustlsLib.Key

/-- A server configuration. -/
structure ServerConfig where
  identity : Identity
  /-- The protocols offered, in order of preference. -/
  alpnProtocols : List Bytes

/-- The configuration restricted to HTTP/2. -/
def ServerConfig.http2Only (config : ServerConfig) : ServerConfig :=
  { config with alpnProtocols := [alpnHttp2] }

def parseCerts (pem : Bytes) : Except TlsError (List RustlsLib.Cert) :=
  match RustlsLib.certs pem with
  | .error text => .error (.pem text)
  | .ok certs => if certs.isEmpty then .error (.pem "no certificates found".toList) else .ok certs

def parsePrivateKey (pem : Bytes) : Except TlsError RustlsLib.Key :=
  match RustlsLib.privateKey pem with
  | .error text => .error (.pem text)
  | .ok none => .error (.pem "no private key found".toList)
  | .ok (some key) => .ok key

/-- The configuration offering both protocols. -/
def buildServerConfig (certs : List RustlsLib.Cert) (key : RustlsLib.Key) :
    Except TlsError ServerConfig :=
  match RustlsLib.withSingleCert certs key with
  | .error text => .error (.config text)
  | .ok () => .ok ⟨(certs, key), [alpnHttp2, alpnHttp11]⟩

/-- The configuration a reload builds. -/
def buildFromPem (certPem keyPem : Bytes) : Except TlsError ServerConfig := do
  let certs ← parseCerts certPem
  let key ← parsePrivateKey keyPem
  buildServerConfig certs key

/-- Whatever is built offers both protocols. -/
theorem alpnProtocols_of_buildServerConfig {certs : List RustlsLib.Cert} {key : RustlsLib.Key}
    {config : ServerConfig} (h : buildServerConfig certs key = .ok config) :
    config.alpnProtocols = [alpnHttp2, alpnHttp11] := by
  rw [buildServerConfig] at h
  split at h
  · exact nomatch h
  · obtain rfl := Except.ok.inj h
    rfl

theorem alpnProtocols_of_buildFromPem {certPem keyPem : Bytes} {config : ServerConfig}
    (h : buildFromPem certPem keyPem = .ok config) :
    config.alpnProtocols = [alpnHttp2, alpnHttp11] := by
  rw [buildFromPem] at h
  rcases hcerts : parseCerts certPem with error | certs
  · rw [hcerts] at h
    cases h
  · rcases hkey : parsePrivateKey keyPem with error | key
    · rw [hcerts, hkey] at h
      cases h
    · rw [hcerts, hkey] at h
      exact alpnProtocols_of_buildServerConfig h

/-! ### Interleaved calls -/

/-- How far a call of `with_alpn_http2_only` has got. -/
inductive AlpnCall
  | notStarted
  /-- The lock was taken to read; the copy is not stored yet. -/
  | updated (copy : ServerConfig)
  | written
  | returned

/-- The shared cell, and the calls of `with_alpn_http2_only`, numbered. -/
structure State where
  active : ServerConfig
  calls : ℕ → AlpnCall

/-- The steps of the calls, one for each access of the lock. Between two of them the steps of other
calls may come. -/
inductive Event
  /-- A reload up to its only access, or to its failure before that. -/
  | reload (certPem keyPem : Bytes)
  /-- A call of `with_alpn_http2_only` copies the active configuration. -/
  | read (call : ℕ)
  /-- The call stores its copy. -/
  | write (call : ℕ)
  | ret (call : ℕ)
  deriving DecidableEq

/-- One step. -/
def step (s : State) : Event → Option State
  | .reload certPem keyPem =>
    match buildFromPem certPem keyPem with
    | .ok config => some { s with active := config }
    | .error _ => some s
  | .read i =>
    match s.calls i with
    | .notStarted =>
      -- the copy is made now and stored by a later event
      some { s with calls := Function.update s.calls i (.updated s.active.http2Only) }
    | _ => none
  | .write i =>
    match s.calls i with
    | .updated updated =>
      some { active := updated, calls := Function.update s.calls i .written }
    | _ => none
  | .ret i =>
    match s.calls i with
    | .written => some { s with calls := Function.update s.calls i .returned }
    | _ => none

/-- The clones of a configuration that was built from a certificate chain and a key. -/
def RustlsConfig (initial : Identity) : Transition State Event where
  init := ⟨⟨initial, [alpnHttp2, alpnHttp11]⟩, fun _ ↦ .notStarted⟩
  step := step

/-! ### What is promised -/

/-- The identity an event leaves as that of the last successful reload. -/
def reloaded (last : Identity) : Event → Identity
  | .reload certPem keyPem =>
    match buildFromPem certPem keyPem with
    | .ok config => config.identity
    | .error _ => last
  | _ => last

/-- The identity of the last successful reload, or the initial one. -/
def lastReloaded (initial : Identity) (es : List Event) : Identity :=
  es.foldl reloaded initial

/-- A call of `with_alpn_http2_only` has returned. -/
def hasReturned (es : List Event) : Bool :=
  es.any fun e ↦
    match e with
    | .ret _ => true
    | _ => false

/-- The settings are kept in the state after a history. What they are is read off the events: the
last reload that went well, and the calls that have returned. -/
structure KeepsSettings (initial : Identity) (es : List Event) (s : State) : Prop where
  certificate : s.active.identity = lastReloaded initial es
  failedReload : ∀ before certPem keyPem s₀, es = before ++ [.reload certPem keyPem] →
    (RustlsConfig initial).run before = some s₀ → (buildFromPem certPem keyPem).isOk = false →
      s.active = s₀.active
  alpn : hasReturned es → s.active.alpnProtocols = [alpnHttp2]

/-- The last write of a history was that of a call of `with_alpn_http2_only`. -/
def alpnWroteLast (es : List Event) : Bool :=
  es.foldl (fun last e ↦
    match e with
    | .write _ => true
    | .reload certPem keyPem => last && !(buildFromPem certPem keyPem).isOk
    | _ => last) false

/-- An event that does no harm: a successful reload before any call has returned; a call that
stores its copy while the certificate it copied is still the one last loaded; a call that returns
with no reload since the last copy was stored. -/
def Harmless (initial : Identity) (es : List Event) (s : State) : Event → Prop
  | .reload certPem keyPem => (buildFromPem certPem keyPem).isOk → hasReturned es = false
  | .read _ => True
  | .write i => ∀ copy, s.calls i = .updated copy → copy.identity = lastReloaded initial es
  | .ret _ => alpnWroteLast es

/-! ### One step -/

/-- What an event does. -/
theorem step_cases {s s' : State} {e : Event} (h : step s e = some s') :
    (∃ certPem keyPem config, e = .reload certPem keyPem ∧
        buildFromPem certPem keyPem = .ok config ∧ s' = { s with active := config }) ∨
      (∃ certPem keyPem error, e = .reload certPem keyPem ∧
        buildFromPem certPem keyPem = .error error ∧ s' = s) ∨
      (∃ i, e = .read i ∧
        s' = ⟨s.active, Function.update s.calls i (.updated s.active.http2Only)⟩) ∨
      (∃ i copy, e = .write i ∧ s.calls i = .updated copy ∧
        s' = ⟨copy, Function.update s.calls i .written⟩) ∨
      ∃ i, e = .ret i ∧ s' = ⟨s.active, Function.update s.calls i .returned⟩ := by
  rcases e with ⟨certPem, keyPem⟩ | i | i | i
  · rcases hbuild : buildFromPem certPem keyPem with error | config
    · simp only [step, hbuild, Option.some.injEq] at h
      exact .inr (.inl ⟨certPem, keyPem, error, rfl, hbuild, h.symm⟩)
    · simp only [step, hbuild, Option.some.injEq] at h
      exact .inl ⟨certPem, keyPem, config, rfl, hbuild, h.symm⟩
  · rw [step] at h
    split at h
    · exact .inr (.inr (.inl ⟨i, rfl, (Option.some.inj h).symm⟩))
    · exact nomatch h
  · rw [step] at h
    split at h
    · next copy hcall =>
      exact .inr (.inr (.inr (.inl ⟨i, copy, rfl, hcall, (Option.some.inj h).symm⟩)))
    · exact nomatch h
  · rw [step] at h
    split at h
    · exact .inr (.inr (.inr (.inr ⟨i, rfl, (Option.some.inj h).symm⟩)))
    · exact nomatch h

theorem lastReloaded_concat (initial : Identity) (es : List Event) (e : Event) :
    lastReloaded initial (es ++ [e]) = reloaded (lastReloaded initial es) e :=
  List.foldl_concat ..

omit [RustlsLib] in
theorem hasReturned_concat (es : List Event) (e : Event) :
    hasReturned (es ++ [e]) = (hasReturned es || hasReturned [e]) :=
  List.any_append

/-- The protocols offered tell which operation wrote last, and every copy is restricted. -/
structure Offers (es : List Event) (s : State) : Prop where
  http2Only : alpnWroteLast es → s.active.alpnProtocols = [alpnHttp2]
  both : alpnWroteLast es = false → s.active.alpnProtocols = [alpnHttp2, alpnHttp11]
  copies : ∀ i copy, s.calls i = .updated copy → copy.alpnProtocols = [alpnHttp2]

/-- An update of one call that is not a new copy keeps the copies restricted. -/
theorem copies_update {calls : ℕ → AlpnCall} {i : ℕ} {call : AlpnCall}
    (h : ∀ j copy, calls j = .updated copy → copy.alpnProtocols = [alpnHttp2])
    (hcall : ∀ copy, call = .updated copy → copy.alpnProtocols = [alpnHttp2]) (j : ℕ)
    (copy : ServerConfig) (hj : Function.update calls i call j = .updated copy) :
    copy.alpnProtocols = [alpnHttp2] := by
  by_cases hij : j = i
  · subst hij
    rw [Function.update_self] at hj
    exact hcall copy hj
  · rw [Function.update_of_ne hij] at hj
    exact h j copy hj

theorem offers_of_run {initial : Identity} {es : List Event} {s : State}
    (h : (RustlsConfig initial).run es = some s) : Offers es s := by
  have hinit : Offers [] (RustlsConfig initial).init :=
    ⟨fun h ↦ absurd h Bool.false_ne_true, fun _ ↦ rfl, fun _ _ h ↦ by cases h⟩
  refine Transition.run_induction hinit (fun es s e s' _ ih hstep ↦ ?_) h
  obtain ⟨certPem, keyPem, config, rfl, hbuild, rfl⟩ |
    ⟨certPem, keyPem, error, rfl, hbuild, rfl⟩ | ⟨i, rfl, rfl⟩ | ⟨i, copy, rfl, hcall, rfl⟩ |
    ⟨i, rfl, rfl⟩ := step_cases hstep
  · have hlast : alpnWroteLast (es ++ [.reload certPem keyPem]) = false := by
      simp [alpnWroteLast, hbuild, Except.isOk, Except.toBool]
    refine ⟨fun h ↦ absurd (hlast ▸ h) Bool.false_ne_true,
      fun _ ↦ alpnProtocols_of_buildFromPem hbuild, ih.copies⟩
  · have hlast : alpnWroteLast (es ++ [.reload certPem keyPem]) = alpnWroteLast es := by
      simp [alpnWroteLast, hbuild, Except.isOk, Except.toBool]
    exact ⟨fun h ↦ ih.http2Only (hlast ▸ h), fun h ↦ ih.both (hlast ▸ h), ih.copies⟩
  · have hlast : alpnWroteLast (es ++ [.read i]) = alpnWroteLast es := by
      simp [alpnWroteLast]
    exact ⟨fun h ↦ ih.http2Only (hlast ▸ h), fun h ↦ ih.both (hlast ▸ h),
      copies_update ih.copies fun copy hcopy ↦ by cases hcopy; rfl⟩
  · have hlast : alpnWroteLast (es ++ [.write i]) = true := by
      simp [alpnWroteLast]
    exact ⟨fun _ ↦ ih.copies i copy hcall, fun h ↦ absurd (hlast ▸ h) Bool.noConfusion,
      copies_update ih.copies nofun⟩
  · have hlast : alpnWroteLast (es ++ [.ret i]) = alpnWroteLast es := by
      simp [alpnWroteLast]
    exact ⟨fun h ↦ ih.http2Only (hlast ▸ h), fun h ↦ ih.both (hlast ▸ h),
      copies_update ih.copies nofun⟩

/-! ### The promise over a run -/

variable {initial : Identity}

theorem keepsSettings_init : KeepsSettings initial [] (RustlsConfig initial).init where
  certificate := rfl
  failedReload before _ _ _ h := absurd h (by simp)
  alpn h := absurd h Bool.false_ne_true

/-- An event that is no failed reload keeps the settings if it does so for the certificate and the
protocols. -/
theorem keepsSettings_concat_iff_of_not_failed {es : List Event} {e : Event} {s : State}
    (h : ∀ certPem keyPem, e = .reload certPem keyPem → (buildFromPem certPem keyPem).isOk) :
    KeepsSettings initial (es ++ [e]) s ↔
      s.active.identity = reloaded (lastReloaded initial es) e ∧
        (hasReturned es || hasReturned [e] → s.active.alpnProtocols = [alpnHttp2]) := by
  rw [← lastReloaded_concat, ← hasReturned_concat]
  refine ⟨fun hkeeps ↦ ⟨hkeeps.certificate, hkeeps.alpn⟩, fun ⟨hcert, halpn⟩ ↦ ⟨hcert, ?_, halpn⟩⟩
  intro before certPem keyPem s₀ heq _ hfailed
  obtain ⟨-, rfl⟩ := List.concat_inj.1 (by simpa using heq)
  rw [h certPem keyPem rfl] at hfailed
  cases hfailed

/-- **An event keeps the settings exactly if it does no harm.** Only the two writes to the cell can
do any, and each is compared with what the promise is after it. -/
theorem keepsSettings_concat_iff {es : List Event} {e : Event} {s s' : State}
    (hrun : (RustlsConfig initial).run es = some s) (hkeeps : KeepsSettings initial es s)
    (hstep : step s e = some s') :
    KeepsSettings initial (es ++ [e]) s' ↔ Harmless initial es s e := by
  have hoffers := offers_of_run hrun
  obtain ⟨certPem, keyPem, config, rfl, hbuild, rfl⟩ |
    ⟨certPem, keyPem, error, rfl, hbuild, rfl⟩ | ⟨i, rfl, rfl⟩ | ⟨i, copy, rfl, hcall, rfl⟩ |
    ⟨i, rfl, rfl⟩ := step_cases hstep
  · rw [keepsSettings_concat_iff_of_not_failed fun _ _ h ↦ by cases h; rw [hbuild]; rfl]
    have hreloaded : reloaded (lastReloaded initial es) (.reload certPem keyPem) =
        config.identity := by
      rw [reloaded, hbuild]
    constructor
    · rintro ⟨-, halpn⟩ -
      by_contra hreturned
      -- A reloaded configuration offers both protocols again.
      have hboth := alpnProtocols_of_buildFromPem hbuild
      rw [show config.alpnProtocols = [alpnHttp2] from
        halpn (by rw [eq_true_of_ne_false hreturned]; rfl)] at hboth
      exact absurd hboth (by decide)
    · intro hharmless
      have hreturned : hasReturned es = false := hharmless (by rw [hbuild]; rfl)
      refine ⟨hreloaded.symm, fun h ↦ ?_⟩
      rw [hreturned] at h
      exact absurd h Bool.false_ne_true
  · -- A reload that fails changes nothing.
    have hfailed : (buildFromPem certPem keyPem).isOk = false := by rw [hbuild]; rfl
    refine iff_of_true ⟨?_, ?_, ?_⟩ fun h ↦ absurd (hfailed ▸ h) Bool.false_ne_true
    · rw [lastReloaded_concat, reloaded, hbuild]
      exact hkeeps.certificate
    · intro before certPem' keyPem' s₀ heq hbefore _
      obtain ⟨rfl, -⟩ : es = before ∧ _ := by simpa using heq
      rw [Option.some.inj (hrun.symm.trans hbefore)]
    · intro h
      rw [hasReturned_concat, show hasReturned [.reload certPem keyPem] = false from rfl,
        Bool.or_false] at h
      exact hkeeps.alpn h
  · rw [keepsSettings_concat_iff_of_not_failed fun _ _ h ↦ by cases h]
    refine iff_of_true ⟨hkeeps.certificate, fun h ↦ hkeeps.alpn ?_⟩ trivial
    exact (Bool.or_eq_true_iff.1 h).resolve_right Bool.false_ne_true
  · rw [keepsSettings_concat_iff_of_not_failed fun _ _ h ↦ by cases h]
    constructor
    · rintro ⟨hcert, -⟩ copy' hcall'
      -- The copy a call stores has the identity it was made with, current or not.
      obtain rfl := AlpnCall.updated.inj (hcall.symm.trans hcall')
      exact hcert
    · exact fun h ↦ ⟨h copy hcall, fun _ ↦ hoffers.copies i copy hcall⟩
  · rw [keepsSettings_concat_iff_of_not_failed fun _ _ h ↦ by cases h]
    constructor
    · rintro ⟨-, halpn⟩
      by_contra hlast
      have hboth := hoffers.both (Bool.eq_false_iff.2 hlast)
      have honly : s.active.alpnProtocols = [alpnHttp2] :=
        halpn (Bool.or_eq_true_iff.2 (.inr rfl))
      rw [honly] at hboth
      exact absurd hboth (by decide)
    · exact fun h ↦ ⟨hkeeps.certificate, fun _ ↦ hoffers.http2Only h⟩

/-- **When the settings are kept**: throughout a run they are, exactly if each of its events does no
harm. Whether an event does can be told from the state it finds and the calls so far. -/
theorem keepsSettings_iff {es : List Event} {s : State}
    (h : (RustlsConfig initial).run es = some s) :
    (RustlsConfig initial).Throughout (KeepsSettings initial) es ↔
      (RustlsConfig initial).Each (Harmless initial) es :=
  Transition.throughout_iff_each keepsSettings_init
    (fun _ _ _ _ hrun hkeeps hstep ↦ keepsSettings_concat_iff hrun hkeeps hstep) h

end Configuration

section Runs

/-- A library that takes every file for one certificate, and for a key if it is not empty. -/
local instance trusting : RustlsLib where
  Cert := Bytes
  Key := Bytes
  certs pem := .ok [pem]
  privateKey pem := .ok (if pem = [] then none else some pem)
  withSingleCert _ _ := .ok ()

/-- The identity of the library's one-byte files. -/
private def identityOf (b : UInt8) : Identity :=
  (([[b]] : List Bytes), ([b] : Bytes))

/-- A reload before the call does no harm, nor do reloads that fail, during the call and after. -/
theorem keepsSettings_reloads :
    (RustlsConfig (identityOf 1)).Throughout (KeepsSettings (identityOf 1))
      [.reload [2] [2], .read 0, .reload [3] [], .write 0, .ret 0, .reload [3] []] := by
  refine (keepsSettings_iff rfl).2 ?_
  have hfailed : (buildFromPem [3] []).isOk = false := rfl
  show (RustlsConfig (identityOf 1)).Each _ (([] ++ [.reload [2] [2]] ++ [.read 0] ++
    [.reload [3] []] ++ [.write 0]) ++ [.ret 0] ++ [.reload [3] []])
  iterate 6 rw [Transition.each_concat_iff rfl]
  exact ⟨⟨⟨⟨⟨⟨Transition.each_nil, fun _ ↦ rfl⟩, trivial⟩, fun h ↦ nomatch hfailed ▸ h⟩,
    fun copy h ↦ by cases h; rfl⟩, rfl⟩, fun h ↦ nomatch hfailed ▸ h⟩

/-- A reload after a call has returned offers both protocols again; and a call that read before a
reload and writes after it brings the old certificate back. -/
theorem not_keepsSettings :
    ¬ (RustlsConfig (identityOf 1)).Throughout (KeepsSettings (identityOf 1))
        [.read 0, .write 0, .ret 0, .reload [2] [2]] ∧
      ¬ (RustlsConfig (identityOf 1)).Throughout (KeepsSettings (identityOf 1))
        [.read 0, .reload [2] [2], .write 0] := by
  refine ⟨fun h ↦ ?_, fun h ↦ ?_⟩
  · have halpn := (h _ _ List.prefix_rfl rfl).alpn rfl
    exact absurd halpn (by decide)
  · have hcert := (h _ _ List.prefix_rfl rfl).certificate
    have hkey : ([1] : Bytes) = [2] := congrArg Prod.snd hcert
    exact absurd hkey (by decide)

end Runs

end Tls
