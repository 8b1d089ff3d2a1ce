import Arvik.Config.Builder
import Arvik.Foundation.Debounce
import Arvik.Tls.RustlsConfig

/-!
# Hot reload

The watchers of the configuration files and of the certificate reload what changed while the server
runs (`ConfigWatcher`, `TlsReloadWatcher`). Both are tasks that debounce notifications. The first
sends what comes of each reload, and every error of the file watcher, to whoever calls `next`; the
second logs failures only.

Neither loses a change, nor falls back behind what was loaded last, and a reload during which
nothing changes has the result of building from what is there (`upToDate_of_watchers`).

## How it goes

The two tasks are one, `Debounce.system`, for two ways of loading: what the one needs is a number of
looks at the world, one for each file and one for the environment, and what the other needs is two,
one for each PEM file. Everything may change between two looks, so a result need not be that of any
moment. That the looks at one world add up to the builder's own function, which reads all files at
once, is an induction on the files (`foldl_look_replicate`).

What is sent has both sources, the errors of the file watcher and the results (`deliver`). The order
of what is produced is the debouncer's; that `current` is the last configuration sent is the order
again, seen through the successful results alone (`filterMap_deliver`).
-/

open Debounce

/-! ### The configuration -/

namespace Config

/-- What a configuration is put together from. -/
structure Surroundings where
  read : Str → Option Str
  env : List (OsString × OsString)

/-- The files that are still to be read, and what the others were merged to. -/
structure Loading where
  files : List Str
  merged : Value

abbrev ConfigWatcher.State : Type :=
  Debounce.State Surroundings Loading Str ConfigError ArvikConfig (Except ConfigError ArvikConfig)

abbrev ConfigWatcher.Event : Type :=
  Debounce.Event Surroundings Str

variable [FormatLib]

/-- What follows when all files are merged. -/
def ArvikConfigBuilder.finish (self : ArvikConfigBuilder) (env : List (OsString × OsString))
    (merged : Value) : Except ConfigError ArvikConfig := do
  let merged ← applyEnv merged self.envPrefix env
  let config ← (FormatLib.fromValue merged).elim (.error .decode) .ok
  config.validate
  return config

/-- Load a file, or finish. -/
def ArvikConfigBuilder.look (self : ArvikConfigBuilder) (world : Surroundings) :
    Loading → Loading ⊕ Except ConfigError ArvikConfig
  | ⟨file :: files, merged⟩ =>
    match loadFile world.read file with
    | .error e => .inr (.error e)
    | .ok value => .inl ⟨files, mergeValues merged value⟩
  | ⟨[], merged⟩ => .inr (self.finish world.env merged)

/-- What is sent of an error of the file watcher, or of a reload. -/
def deliver : Str ⊕ Except ConfigError ArvikConfig → Except ConfigError ArvikConfig
  | .inl text => .error (.watch text)
  | .inr result => result

def ArvikConfigBuilder.reload (self : ArvikConfigBuilder) :
    Reload Surroundings Loading Str ConfigError ArvikConfig (Except ConfigError ArvikConfig) where
  start := ⟨self.files, self.defaults.toValue⟩
  read := self.look
  report outcome := some (deliver outcome)

/-- The task of a watcher, and what happens around it. -/
def ConfigWatcher (builder : ArvikConfigBuilder) (world : Surroundings) (initial : ArvikConfig) :
    Transition ConfigWatcher.State ConfigWatcher.Event :=
  Debounce.system builder.reload world initial

/-- The last successfully loaded configuration. -/
def ConfigWatcher.current (s : ConfigWatcher.State) : ArvikConfig :=
  s.active

/-- Files that do not change are merged as when nothing happens in between. -/
theorem foldl_look_replicate (builder : ArvikConfigBuilder) (world : Surroundings)
    (files : List Str) (merged : Value) :
    (List.replicate (files.length + 1) world).foldl builder.reload.look (.inl ⟨files, merged⟩) =
      .inr (do
        let merged ← files.foldlM (fun merged file ↦
          (mergeValues merged ·) <$> loadFile world.read file) merged
        builder.finish world.env merged) := by
  induction files generalizing merged with
  | nil => rfl
  | cons file files ih =>
    rw [List.length_cons, List.replicate_succ, List.foldl_cons, List.foldlM_cons]
    rcases hfile : loadFile world.read file with e | value
    · have hlook : builder.reload.look (.inl ⟨file :: files, merged⟩) world =
          .inr (.error e) := by
        show builder.look world ⟨file :: files, merged⟩ = _
        rw [ArvikConfigBuilder.look, hfile]
      rw [hlook, Reload.foldl_look_inr]
      rfl
    · have hlook : builder.reload.look (.inl ⟨file :: files, merged⟩) world =
          .inl ⟨files, mergeValues merged value⟩ := by
        show builder.look world ⟨file :: files, merged⟩ = _
        rw [ArvikConfigBuilder.look, hfile]
      rw [hlook, ih]
      rfl

theorem after_replicate (builder : ArvikConfigBuilder) (world : Surroundings) :
    builder.reload.after (List.replicate (builder.files.length + 1) world) =
      .inr (builder.buildInner world.read world.env) :=
  (foldl_look_replicate builder world builder.files builder.defaults.toValue).trans
    (congrArg Sum.inr (bind_assoc ..).symm)

section Runs

variable {builder : ArvikConfigBuilder} {world : Surroundings} {initial : ArvikConfig}
  {s : ConfigWatcher.State}

/-- **A reload during which nothing changes builds from what is there.** Each look finds the same
file system, so the looks together are one reading of it. -/
theorem loadsAnew_buildInner {es : List ConfigWatcher.Event}
    (h : (ConfigWatcher builder world initial).run es = some s) :
    LoadsAnew (fun world ↦ builder.buildInner world.read world.env) es s :=
  loadsAnew_of_run (after_replicate builder) h

omit [FormatLib] in
theorem filterMap_deliver (produced : List (Str ⊕ Except ConfigError ArvikConfig)) :
    (produced.map deliver).filterMap Except.toOption =
      (produced.filterMap Sum.getRight?).filterMap Except.toOption := by
  rw [List.filterMap_map, List.filterMap_filterMap]
  refine List.filterMap_congr fun outcome _ ↦ ?_
  rcases outcome with text | result <;> rfl

/-- Every error of the file watcher and every result of a reload is sent, in order and once, and
what is current is the last configuration sent. -/
structure Delivered (builder : ArvikConfigBuilder) (world : Surroundings) (initial : ArvikConfig)
    (es : List ConfigWatcher.Event) (s : ConfigWatcher.State) : Prop where
  reported : Reported builder.reload world es s
  delivered : s.taken ++ s.updates ++ s.phase.pending builder.reload = s.produced.map deliver
  current : ConfigWatcher.current s =
    lastLoaded initial (s.taken ++ s.updates ++ s.phase.pending builder.reload)

theorem delivered_of_run {es : List ConfigWatcher.Event}
    (h : (ConfigWatcher builder world initial).run es = some s) :
    Delivered builder world initial es s := by
  have hreported : Reported builder.reload world es s := reported_of_run h
  have hdelivered : s.taken ++ s.updates ++ s.phase.pending builder.reload =
      s.produced.map deliver := by
    rw [hreported.reports]
    exact congrFun List.filterMap_eq_map s.produced
  refine ⟨hreported, hdelivered, ?_⟩
  rw [hdelivered, lastLoaded, filterMap_deliver, hreported.results]
  exact (upToDate_of_run h).active

end Runs

end Config

/-! ### The certificate -/

namespace Tls

/-- Why a certificate could not be reloaded. -/
inductive ReloadError
  /-- A file cannot be read. -/
  | io (path : Str)
  | tls (error : TlsError)

/-- The paths that are watched. -/
structure TlsReloadWatcher where
  certPath : Str
  keyPath : Str

variable [RustlsLib]

/-- The configuration of a certificate file and a key file. -/
def reloadFromPemFile (self : TlsReloadWatcher) (read : Str → Option Bytes) :
    Except ReloadError ServerConfig := do
  let certPem ← (read self.certPath).elim (.error (.io self.certPath)) .ok
  let keyPem ← (read self.keyPath).elim (.error (.io self.keyPath)) .ok
  (buildFromPem certPem keyPem).mapError .tls

namespace TlsReloadWatcher

/-- Read the certificate; then, with the certificate read, the key. -/
def look (self : TlsReloadWatcher) (read : Str → Option Bytes) :
    Option Bytes → Option Bytes ⊕ Except ReloadError ServerConfig
  | none => (read self.certPath).elim (.inr (.error (.io self.certPath))) (.inl ∘ some)
  | some certPem => (read self.keyPath).elim (.inr (.error (.io self.keyPath))) fun keyPem ↦
      .inr ((buildFromPem certPem keyPem).mapError .tls)

/-- No error of the file watcher gets here, and nothing is sent. -/
def reload (self : TlsReloadWatcher) :
    Reload (Str → Option Bytes) (Option Bytes) Empty ReloadError ServerConfig Empty where
  start := none
  read := self.look
  report _ := none

abbrev State : Type :=
  Debounce.State (Str → Option Bytes) (Option Bytes) Empty ReloadError ServerConfig Empty

abbrev Event : Type :=
  Debounce.Event (Str → Option Bytes) Empty

/-- The task of a watcher, and what happens around it. -/
def task (self : TlsReloadWatcher) (read : Str → Option Bytes) (initial : ServerConfig) :
    Transition State Event :=
  Debounce.system self.reload read initial

theorem after_replicate (self : TlsReloadWatcher) (read : Str → Option Bytes) :
    self.reload.after (List.replicate 2 read) = .inr (reloadFromPemFile self read) := by
  rw [reloadFromPemFile]
  show self.reload.look (self.look read none) read = _
  rcases hcert : read self.certPath with - | certPem
  · rw [look, hcert]
    rfl
  · rw [look, hcert]
    show self.look read (some certPem) = _
    rcases hkey : read self.keyPath with - | keyPem
    · rw [look, hkey]
      rfl
    · rw [look, hkey]
      rfl

/-- **A reload during which nothing changes builds from what is there.** The certificates and the
key are read one after the other, and both are those of one moment. -/
theorem loadsAnew_reloadFromPemFile {self : TlsReloadWatcher} {read : Str → Option Bytes}
    {initial : ServerConfig} {es : List Event} {s : State}
    (h : (self.task read initial).run es = some s) : LoadsAnew (reloadFromPemFile self) es s :=
  loadsAnew_of_run (after_replicate self) h

end TlsReloadWatcher

end Tls

/-! ### Both watchers -/

namespace HotReload

open Config Tls

/-- **No change is lost, and nothing falls back.** In every run of a watcher, what is active is what
was loaded last; a reload that fails leaves it alone; and when the watcher waits and nothing is in
its queue, it began a reload after the last notification of a change. What comes of the reloads of
a configuration is delivered in order, with every error of the file watcher. And a reload during
which nothing changes has the result of building from what is there. -/
theorem upToDate_of_watchers [FormatLib] [RustlsLib] :
    (∀ builder world initial es s, (ConfigWatcher builder world initial).run es = some s →
        UpToDate builder.reload world initial es s ∧ Delivered builder world initial es s ∧
          LoadsAnew (fun world ↦ builder.buildInner world.read world.env) es s) ∧
      ∀ (watcher : TlsReloadWatcher) read initial es s,
        (watcher.task read initial).run es = some s →
          UpToDate watcher.reload read initial es s ∧
            LoadsAnew (reloadFromPemFile watcher) es s :=
  ⟨fun _ _ _ _ _ h ↦ ⟨upToDate_of_run h, delivered_of_run h, loadsAnew_buildInner h⟩,
    fun _ _ _ _ _ h ↦ ⟨upToDate_of_run h, TlsReloadWatcher.loadsAnew_reloadFromPemFile h⟩⟩

section Examples

/-- A library that reads every file, and the configuration of every tree. -/
private local instance lenient : FormatLib where
  toml _ := none
  json _ := some ({} : ArvikConfig).toValue
  fromValue _ := some {}

attribute [local instance] trusting

/-- The file appears, while the file watcher makes an error; what comes of it is taken. -/
private def appears : List ConfigWatcher.Event :=
  [.notify (.error "overflow".toList), .change ⟨fun _ ↦ some [], []⟩, .notify (.ok ()), .recv,
    .recv, .wake, .tryRecv, .begin, .read, .read, .store, .send, .next, .next]

/-- The key changes after the certificate was read. -/
private def rotates : List TlsReloadWatcher.Event :=
  [.notify (.ok ()), .recv, .wake, .notify (.ok ()), .tryRecv, .tryRecv, .begin, .read,
    .change fun _ ↦ some [2], .notify (.ok ()), .read, .store, .send, .recv, .wake, .tryRecv,
    .begin, .read, .read, .store, .send]

theorem upToDate_of_watchers_changes :
    (∃ s, (ConfigWatcher ⟨["arvik.json".toList], "ARVIK".toList, {}⟩ ⟨fun _ ↦ none, []⟩ {}).run
        appears = some s ∧
      UpToDate (ArvikConfigBuilder.reload ⟨["arvik.json".toList], "ARVIK".toList, {}⟩)
        ⟨fun _ ↦ none, []⟩ {} appears s ∧
      Delivered ⟨["arvik.json".toList], "ARVIK".toList, {}⟩ ⟨fun _ ↦ none, []⟩ {} appears s ∧
      LoadsAnew (fun world ↦ ArvikConfigBuilder.buildInner
        ⟨["arvik.json".toList], "ARVIK".toList, {}⟩ world.read world.env) appears s) ∧
      ∃ s, (TlsReloadWatcher.task ⟨"cert.pem".toList, "key.pem".toList⟩ (fun _ ↦ some [1])
          ⟨([[1]], [1]), [alpnHttp2, alpnHttp11]⟩).run rotates = some s ∧
        UpToDate (TlsReloadWatcher.reload ⟨"cert.pem".toList, "key.pem".toList⟩)
            (fun _ ↦ some [1]) ⟨([[1]], [1]), [alpnHttp2, alpnHttp11]⟩ rotates s ∧
          LoadsAnew (reloadFromPemFile ⟨"cert.pem".toList, "key.pem".toList⟩) rotates s :=
  ⟨⟨_, rfl, upToDate_of_watchers.1 _ _ _ _ _ rfl⟩,
    _, rfl, upToDate_of_watchers.2 _ _ _ _ _ rfl⟩

end Examples

end HotReload
