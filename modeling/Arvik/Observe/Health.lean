import Arvik.Core.Http
import Arvik.Foundation.Transition
import Mathlib.Data.List.Infix

/-!
# Readiness

A readiness response runs all checks that are registered, or takes over the reports of a run that
finished less than a time to live before. Responses, the registration of checks and the checks
themselves interleave: a response reads the time to live, looks into the cache, takes a copy of the
list of checks, starts and awaits each of them, and stores the reports, one step at a time.

A response is `Complete` if it has the report of each check that was registered before it began, and
answers 200 only if all of these were found healthy in a run of late. A response from its own run is
complete, but one from the cache may be short of the checks that were added since the run behind it
took its list: responses are complete throughout a run of events exactly if each response that is
taken from the cache finds reports of all checks registered before it began (`complete_iff`).

Checks are only ever added, so what was registered before is a prefix of what is registered now, and
a list of reports that covers a prefix is judged by its length. The invariant says of each response
under way which checks it has taken and what it has of them (`Probe.Kept`), and of the cache when
the run behind it started; a step moves one response and leaves the others, and `Advances` is the
summary of what a step may do to everything that the others rely on.
-/

namespace Health

/-- What a check comes to. -/
structure HealthCheckResult where
  healthy : Bool
  message : Option Str := none

structure CheckReport where
  name : Str
  status : Str
  latencyMs : ℕ
  message : Option Str
  deriving DecidableEq

/-- The report on a check, from its result or from its timing out. -/
def checkReport (name : Str) (timeout latencyMs : ℕ) : Option HealthCheckResult → CheckReport
  | some result =>
    if result.healthy then ⟨name, "ok".toList, latencyMs, result.message⟩
    else ⟨name, "unhealthy".toList, latencyMs, result.message⟩
  | none => ⟨name, "timeout".toList, latencyMs,
      some ("check timed out after ".toList ++ Nat.toDigits 10 (timeout / 1000000) ++ "ms".toList)⟩

@[simp]
theorem name_checkReport (name : Str) (timeout latencyMs : ℕ) (result : Option HealthCheckResult) :
    (checkReport name timeout latencyMs result).name = name := by
  rcases result with - | ⟨healthy, message⟩
  · rfl
  · cases healthy
    · rfl
    · rfl

/-- How far a check has got. -/
inductive Progress
  | waiting
  | started (time : ℕ)
  | reported (latencyMs : ℕ) (result : Option HealthCheckResult)

/-- A check in a run. -/
structure Slot where
  name : Str
  progress : Progress := .waiting

/-- The reports of a run, once all checks are through. -/
def collect (timeout : ℕ) : List Slot → Option (List CheckReport)
  | [] => some []
  | ⟨name, .reported latencyMs result⟩ :: slots =>
    (collect timeout slots).map (checkReport name timeout latencyMs result :: ·)
  | _ :: _ => none

/-- The reports of a run and when it was over. -/
structure CheckRun where
  finished : ℕ
  reports : List CheckReport

/-- The response, apart from its headers. -/
structure ProbeResponse where
  code : StatusCode
  status : Str
  /-- In seconds. -/
  uptime : ℕ
  checks : List CheckReport

inductive Phase
  /-- The time to live was read. -/
  | called
  /-- The cache was of no use. -/
  | missed
  | running (timeout : ℕ) (slots : List Slot)
  /-- The run is over, its reports are not in the cache yet. -/
  | storing (run : CheckRun)
  | responded (response : ProbeResponse)
  | dropped

/-- A readiness response in the making. -/
structure Probe where
  ttl : ℕ
  /-- When it began, and how many checks were registered before. -/
  begun : ℕ
  registered : ℕ
  phase : Phase := .called

/-- The registry. Times are in nanoseconds since it was made. -/
structure State where
  now : ℕ := 0
  /-- The names of the checks. A check is known by its place. -/
  checks : List Str := []
  checkTimeout : ℕ := 2000000000
  readinessCacheTtl : ℕ := 1000000000
  readinessCache : Option CheckRun := none
  probes : List Probe := []
  /-- All runs that are over. -/
  runs : List CheckRun := []

/-- The response with these reports. -/
def State.respond (s : State) (reports : List CheckReport) : ProbeResponse :=
  let healthy := reports.all fun check ↦ check.status = "ok".toList
  { code := if healthy then .ok else .serviceUnavailable
    status := if healthy then "ok".toList else "degraded".toList
    uptime := s.now / 1000000000
    checks := reports }

/-- What a response does next. -/
inductive Action
  /-- Look into the cache, unless the time to live is zero. -/
  | consult
  /-- Take a copy of the list of checks, and read the timeout. -/
  | list
  /-- A check is first polled. -/
  | start (j : ℕ)
  /-- A check comes to a result, or times out. -/
  | report (j : ℕ) (result : Option HealthCheckResult)
  /-- All checks are through. -/
  | finish
  | store
  /-- The future of the response is dropped. -/
  | drop

inductive Event
  | addCheck (name : Str)
  | setReadinessCacheTtl (ttl : ℕ)
  | withCheckTimeout (timeout : ℕ)
  /-- Time passes. -/
  | wait (duration : ℕ)
  /-- A response begins. -/
  | call
  | act (i : ℕ) (action : Action)

/-- The cached run, if it is fresh. -/
def State.cached (s : State) (ttl : ℕ) : Option CheckRun :=
  s.readinessCache.filter fun run ↦ s.now - run.finished < ttl

/-- The step of a response, if it is possible: where the response is then, and the registry. -/
def Probe.step (p : Probe) (s : State) : Action → Option (Phase × State)
  | .consult =>
    match p.phase with
    | .called =>
      if p.ttl = 0 then some (.missed, s)
      else match s.cached p.ttl with
        | some run => some (.responded (s.respond run.reports), s)
        | none => some (.missed, s)
    | _ => none
  | .list =>
    match p.phase with
    | .missed => some (.running s.checkTimeout (s.checks.map fun name ↦ { name }), s)
    | _ => none
  | .start j =>
    match p.phase with
    | .running timeout slots =>
      match slots[j]? with
      | some ⟨name, .waiting⟩ =>
        some (.running timeout (slots.set j ⟨name, .started s.now⟩), s)
      | _ => none
    | _ => none
  | .report j result =>
    match p.phase with
    | .running timeout slots =>
      match slots[j]? with
      | some ⟨name, .started time⟩ =>
        if result.isNone && s.now - time < timeout then none
        else some (.running timeout
          (slots.set j ⟨name, .reported ((s.now - time) / 1000000) result⟩), s)
      | _ => none
    | _ => none
  | .finish =>
    match p.phase with
    | .running timeout slots =>
      (collect timeout slots).map fun reports ↦
        let run : CheckRun := { finished := s.now, reports }
        let s := { s with runs := s.runs ++ [run] }
        -- with a time to live of zero nothing is stored
        if p.ttl = 0 then (.responded (s.respond reports), s) else (.storing run, s)
    | _ => none
  | .store =>
    match p.phase with
    | .storing run =>
      let s := { s with readinessCache := some run }
      some (.responded (s.respond run.reports), s)
    | _ => none
  | .drop =>
    match p.phase with
    | .responded _ => none
    | .dropped => none
    | _ => some (.dropped, s)

/-- Where a response is. -/
def State.put (s : State) (i : ℕ) (p : Probe) (phase : Phase) : State :=
  { s with probes := s.probes.set i { p with phase } }

/-- One event. -/
def step (s : State) : Event → Option State
  | .addCheck name => some { s with checks := s.checks ++ [name] }
  | .setReadinessCacheTtl ttl => some { s with readinessCacheTtl := ttl }
  | .withCheckTimeout timeout => some { s with checkTimeout := timeout }
  | .wait duration => some { s with now := s.now + duration }
  | .call => some { s with
      probes := s.probes ++
        [{ ttl := s.readinessCacheTtl, begun := s.now, registered := s.checks.length }] }
  | .act i action =>
    s.probes[i]?.bind fun p ↦ (p.step s action).map fun next ↦ next.2.put i p next.1

/-- The registry with its responses and checks. -/
def system : Transition State Event where
  init := {}
  step := step

/-! ### Complete responses -/

/-- **The response is complete**: it has the report of each check registered before it began, and
if it answers 200, each of these was found healthy in a run that finished since the time to live
before it began. -/
structure Complete (s : State) (p : Probe) (response : ProbeResponse) : Prop where
  reported : ∀ j < p.registered, ∃ report, response.checks[j]? = some report ∧
    s.checks[j]? = some report.name
  healthy : response.code = .ok → ∀ j < p.registered,
    ∃ run ∈ s.runs, p.begun ≤ run.finished + p.ttl ∧
      ∃ report, run.reports[j]? = some report ∧ report.status = "ok".toList

/-- All responses given so far are complete. Those under way are not looked at. -/
def AllComplete (s : State) : Prop :=
  ∀ p ∈ s.probes, ∀ response, p.phase = .responded response → Complete s p response

/-- A response that finds a fresh run in the cache finds all checks registered before it began. A
response that runs the checks itself meets this trivially. -/
def FindsAll (s : State) : Event → Prop
  | .act i .consult =>
    ∀ p ∈ s.probes[i]?, ∀ run ∈ s.cached p.ttl, p.registered ≤ run.reports.length
  | _ => True

/-- Checks and runs are only ever added, and time passes. -/
structure Grows (s s' : State) : Prop where
  now : s.now ≤ s'.now
  checks : s.checks <+: s'.checks
  runs : s.runs ⊆ s'.runs

theorem getElem?_of_prefix {α : Type} {l l' : List α} (h : l <+: l') {j : ℕ} {a : α}
    (hj : l[j]? = some a) : l'[j]? = some a := by
  obtain ⟨rest, rfl⟩ := h
  exact (List.getElem?_append_left (List.getElem?_eq_some_iff.1 hj).1).trans hj

theorem Grows.of_eq {s s' : State} (hnow : s'.now = s.now) (hchecks : s'.checks = s.checks)
    (hruns : s'.runs = s.runs) : Grows s s' :=
  ⟨hnow.ge, hchecks ▸ List.prefix_rfl, hruns ▸ List.Subset.refl _⟩

theorem Complete.mono {s s' : State} {p : Probe} {response : ProbeResponse} (h : Grows s s')
    (hcomplete : Complete s p response) : Complete s' p response := by
  refine ⟨fun j hj ↦ ?_, fun hok j hj ↦ ?_⟩
  · obtain ⟨report, hreport, hname⟩ := hcomplete.reported j hj
    exact ⟨report, hreport, getElem?_of_prefix h.checks hname⟩
  · obtain ⟨run, hrun, hrest⟩ := hcomplete.healthy hok j hj
    exact ⟨run, h.runs hrun, hrest⟩

/-- A response is 200 if all reports are fine, and 503 otherwise. -/
theorem code_respond_eq_ok_iff {s : State} {reports : List CheckReport} :
    (s.respond reports).code = .ok ↔ ∀ report ∈ reports, report.status = "ok".toList := by
  have hall : (reports.all fun check ↦ check.status = "ok".toList) = true ↔
      ∀ report ∈ reports, report.status = "ok".toList := by simp
  rw [← hall, State.respond]
  cases reports.all fun check ↦ check.status = "ok".toList
  · exact iff_of_false (show StatusCode.serviceUnavailable ≠ .ok by decide) Bool.false_ne_true
  · exact iff_of_true rfl rfl

/-- A response with the reports of a run of late that covers all checks is complete. -/
theorem complete_respond {s s' : State} {p : Probe} (run : CheckRun) (hrun : run ∈ s.runs)
    (hnames : run.reports.map CheckReport.name <+: s.checks)
    (hcovers : p.registered ≤ run.reports.length) (hlate : p.begun ≤ run.finished + p.ttl) :
    Complete s p (s'.respond run.reports) := by
  have hreport (j : ℕ) (hj : j < p.registered) : ∃ report, run.reports[j]? = some report :=
    ⟨_, List.getElem?_eq_getElem (Nat.lt_of_lt_of_le hj hcovers)⟩
  refine ⟨fun j hj ↦ ?_, fun hok j hj ↦ ?_⟩
  · obtain ⟨report, hreport⟩ := hreport j hj
    refine ⟨report, hreport, getElem?_of_prefix hnames ?_⟩
    rw [List.getElem?_map, hreport, Option.map_some]
  · obtain ⟨report, hreport⟩ := hreport j hj
    refine ⟨run, hrun, hlate, report, hreport, ?_⟩
    exact code_respond_eq_ok_iff.1 hok report (List.mem_of_getElem? hreport)

/-- The other way round, a complete response has reports of all checks. -/
theorem Complete.le_length {s s' : State} {p : Probe} {reports : List CheckReport}
    (h : Complete s p (s'.respond reports)) : p.registered ≤ reports.length := by
  by_contra hlt
  obtain ⟨report, hreport, -⟩ := h.reported reports.length (Nat.lt_of_not_le hlt)
  exact absurd (List.getElem?_eq_some_iff.1 hreport).1 (Nat.lt_irrefl _)

theorem map_name_collect {timeout : ℕ} {slots : List Slot} {reports : List CheckReport}
    (h : collect timeout slots = some reports) :
    reports.map CheckReport.name = slots.map Slot.name := by
  induction slots generalizing reports with
  | nil =>
    obtain rfl := Option.some.inj h
    rfl
  | cons slot slots ih =>
    obtain ⟨name, progress⟩ := slot
    cases progress with
    | waiting => cases h
    | started time => cases h
    | reported latencyMs result =>
      obtain ⟨rest, hrest, rfl⟩ := Option.map_eq_some_iff.1 h
      rw [List.map_cons, List.map_cons, ih hrest, name_checkReport]

/-! ### One event -/

/-- What holds of a response in the making. -/
structure Probe.Kept (s : State) (p : Probe) : Prop where
  begun : p.begun ≤ s.now
  registered : p.registered ≤ s.checks.length
  running : ∀ timeout slots, p.phase = .running timeout slots →
    p.registered ≤ slots.length ∧ slots.map Slot.name <+: s.checks
  storing : ∀ run, p.phase = .storing run →
    run ∈ s.runs ∧ p.registered ≤ run.reports.length ∧ p.begun ≤ run.finished

theorem Probe.Kept.mono {s s' : State} {p : Probe} (h : Grows s s') (hkept : p.Kept s) :
    p.Kept s' where
  begun := hkept.begun.trans h.now
  registered := hkept.registered.trans h.checks.length_le
  running timeout slots hphase :=
    (hkept.running timeout slots hphase).imp id fun hnames ↦ hnames.trans h.checks
  storing run hphase := (hkept.storing run hphase).imp (h.runs ·) id

/-- Where a response is that has no run in hand. -/
def Phase.IsIdle : Phase → Prop
  | .running _ _ => False
  | .storing _ => False
  | _ => True

theorem Probe.Kept.idle {s : State} {p : Probe} {phase : Phase} (hkept : p.Kept s)
    (hidle : phase.IsIdle) : ({ p with phase } : Probe).Kept s := by
  refine ⟨hkept.begun, hkept.registered, fun timeout slots h ↦ ?_, fun run h ↦ ?_⟩
  · obtain rfl : phase = .running timeout slots := h
    exact hidle.elim
  · obtain rfl : phase = .storing run := h
    exact hidle.elim

/-- The invariant of the registry: a run covers a first part of the checks, and the cache holds a
run. -/
structure Sound (s : State) : Prop where
  runs : ∀ run ∈ s.runs, run.reports.map CheckReport.name <+: s.checks
  cache : ∀ run, s.readinessCache = some run → run ∈ s.runs

/-- What a step of a response has to do. It gives a complete response, unless it takes one from the
cache that is short of checks. -/
structure Moves (s : State) (p : Probe) (action : Action) (phase : Phase) (s' : State) : Prop where
  grows : Grows s s'
  sound : Sound s'
  kept : ({ p with phase } : Probe).Kept s'
  probes : s'.probes = s.probes
  complete : (∀ response, phase = .responded response → Complete s' p response) ↔
    (action = .consult → ∀ run ∈ s.cached p.ttl, p.registered ≤ run.reports.length)

/-- A step that gives no response and only changes where the response is. -/
theorem moves_of_silent {s : State} {p : Probe} {action : Action} {phase : Phase}
    (hsound : Sound s) (hkept : ({ p with phase } : Probe).Kept s)
    (hphase : ∀ response, phase ≠ .responded response)
    (haction : action = .consult → s.cached p.ttl = none) : Moves s p action phase s := by
  refine ⟨.of_eq rfl rfl rfl, hsound, hkept, rfl,
    iff_of_true (fun response h ↦ absurd h (hphase response)) ?_⟩
  intro hconsult run hrun
  rw [haction hconsult] at hrun
  cases hrun

/-- A step that is not a look into the cache and gives a complete response. -/
theorem moves_of_respond {s s' : State} {p : Probe} {action : Action} {response : ProbeResponse}
    (hgrows : Grows s s') (hsound : Sound s') (hkept : p.Kept s) (hprobes : s'.probes = s.probes)
    (haction : action ≠ .consult) (hcomplete : Complete s' p response) :
    Moves s p action (.responded response) s' := by
  refine ⟨hgrows, hsound, (hkept.mono hgrows).idle trivial, hprobes,
    iff_of_true (fun response' h ↦ ?_) (absurd · haction)⟩
  cases h
  exact hcomplete

theorem moves_consult {s s' : State} {p : Probe} {phase : Phase} (hsound : Sound s)
    (hkept : p.Kept s) (h : p.step s .consult = some (phase, s')) :
    Moves s p .consult phase s' := by
  rw [Probe.step] at h
  split at h
  · split at h
    · next httl =>
      obtain ⟨rfl, rfl⟩ := Prod.mk.inj (Option.some.inj h)
      refine moves_of_silent hsound (hkept.idle trivial) (fun _ h ↦ (by cases h)) fun _ ↦ ?_
      rw [State.cached, httl]
      rcases s.readinessCache with - | run
      · rfl
      · simp
    · split at h
      · next run hcached =>
        obtain ⟨rfl, rfl⟩ := Prod.mk.inj (Option.some.inj h)
        obtain ⟨hcache, hfresh⟩ := Option.filter_eq_some_iff.1 hcached
        have hrun := hsound.cache run hcache
        have hlate : p.begun ≤ run.finished + p.ttl := by
          have hlt := of_decide_eq_true hfresh
          have hbegun := hkept.begun
          omega
        refine ⟨.of_eq rfl rfl rfl, hsound, hkept.idle trivial, rfl,
          ⟨fun hcomplete _ run' hrun' ↦ ?_, fun hfinds response h ↦ ?_⟩⟩
        · obtain rfl := Option.some.inj (hcached.symm.trans hrun')
          exact (hcomplete _ rfl).le_length
        · cases h
          exact complete_respond run hrun (hsound.runs run hrun) (hfinds rfl run hcached) hlate
      · next hcached =>
        obtain ⟨rfl, rfl⟩ := Prod.mk.inj (Option.some.inj h)
        exact moves_of_silent hsound (hkept.idle trivial) (fun _ h ↦ (by cases h)) fun _ ↦ hcached
  · cases h

theorem moves_list {s s' : State} {p : Probe} {phase : Phase} (hsound : Sound s)
    (hkept : p.Kept s) (h : p.step s .list = some (phase, s')) : Moves s p .list phase s' := by
  rw [Probe.step] at h
  split at h
  · obtain ⟨rfl, rfl⟩ := Prod.mk.inj (Option.some.inj h)
    refine moves_of_silent hsound ⟨hkept.begun, hkept.registered, fun _ _ h ↦ ?_,
      fun _ h ↦ (by cases h)⟩ (fun _ h ↦ (by cases h)) fun h ↦ (by cases h)
    cases h
    refine ⟨?_, ?_⟩
    · rw [List.length_map]
      exact hkept.registered
    · rw [List.map_map]
      exact (List.map_id s.checks).symm ▸ List.prefix_rfl
  · cases h

theorem moves_finish {s s' : State} {p : Probe} {phase : Phase} (hsound : Sound s)
    (hkept : p.Kept s) (h : p.step s .finish = some (phase, s')) :
    Moves s p .finish phase s' := by
  rw [Probe.step] at h
  split at h
  · next timeout slots hphase =>
    obtain ⟨reports, hreports, hnext⟩ := Option.map_eq_some_iff.1 h
    obtain ⟨hregistered, hslots⟩ := hkept.running timeout slots hphase
    have hnames : reports.map CheckReport.name <+: s.checks := by
      rw [map_name_collect hreports]
      exact hslots
    have hlength : p.registered ≤ reports.length := by
      have hmap := congrArg List.length (map_name_collect hreports)
      rw [List.length_map, List.length_map] at hmap
      exact hmap ▸ hregistered
    have hgrows : Grows s { s with runs := s.runs ++ [⟨s.now, reports⟩] } :=
      ⟨Nat.le_refl _, List.prefix_rfl, List.subset_append_left _ _⟩
    have hsound' : Sound { s with runs := s.runs ++ [⟨s.now, reports⟩] } := by
      refine ⟨fun run hrun ↦ ?_, fun run hrun ↦ List.mem_append_left _ (hsound.cache run hrun)⟩
      rcases List.mem_append.1 hrun with hrun | hrun
      · exact hsound.runs run hrun
      · obtain rfl := List.mem_singleton.1 hrun
        exact hnames
    have hmem : (⟨s.now, reports⟩ : CheckRun) ∈ s.runs ++ [⟨s.now, reports⟩] :=
      List.mem_append_right _ List.mem_cons_self
    split at hnext
    · obtain ⟨rfl, rfl⟩ := Prod.mk.inj hnext
      exact moves_of_respond hgrows hsound' hkept rfl (fun h ↦ (by cases h))
        (complete_respond ⟨s.now, reports⟩ hmem hnames hlength
          (hkept.begun.trans (Nat.le_add_right _ _)))
    · obtain ⟨rfl, rfl⟩ := Prod.mk.inj hnext
      refine ⟨hgrows, hsound', ⟨hkept.begun, hkept.registered, fun _ _ h ↦ (by cases h),
        fun run h ↦ ?_⟩, rfl, iff_of_true (fun _ h ↦ (by cases h)) fun h ↦ (by cases h)⟩
      cases h
      exact ⟨hmem, hlength, hkept.begun⟩
  · cases h

theorem moves_store {s s' : State} {p : Probe} {phase : Phase} (hsound : Sound s)
    (hkept : p.Kept s) (h : p.step s .store = some (phase, s')) :
    Moves s p .store phase s' := by
  rw [Probe.step] at h
  split at h
  · next run hphase =>
    obtain ⟨rfl, rfl⟩ := Prod.mk.inj (Option.some.inj h)
    obtain ⟨hrun, hlength, hbegun⟩ := hkept.storing run hphase
    refine moves_of_respond (.of_eq rfl rfl rfl)
      ⟨hsound.runs, fun run' hrun' ↦ ?_⟩ hkept rfl (fun h ↦ (by cases h))
      (complete_respond run hrun (hsound.runs run hrun) hlength
        (hbegun.trans (Nat.le_add_right _ _)))
    obtain rfl := Option.some.inj hrun'
    exact hrun
  · cases h

/-- The progress of a check changes neither the number of slots nor their names. -/
theorem kept_set {s : State} {p : Probe} {timeout : ℕ} {slots : List Slot} (hkept : p.Kept s)
    (hphase : p.phase = .running timeout slots) {j : ℕ} {name : Str} {progress : Progress}
    (hslot : slots[j]? = some ⟨name, progress⟩) (progress' : Progress) :
    ({ p with phase := .running timeout (slots.set j ⟨name, progress'⟩) } : Probe).Kept s := by
  obtain ⟨hregistered, hnames⟩ := hkept.running timeout slots hphase
  refine ⟨hkept.begun, hkept.registered, fun timeout' slots' h ↦ ?_, fun _ h ↦ (by cases h)⟩
  cases h
  refine ⟨by rwa [List.length_set], ?_⟩
  have hslot' : (slots.map Slot.name)[j]? = some name := by
    rw [List.getElem?_map, hslot, Option.map_some]
  obtain ⟨hj, hname⟩ := List.getElem?_eq_some_iff.1 hslot'
  rw [List.map_set]
  show (slots.map Slot.name).set j name <+: s.checks
  rwa [← hname, List.set_getElem_self]

/-- **One step of a response.** It keeps what is known of the response, and the only one that can
make an incomplete answer is the look into the cache. -/
theorem Probe.Kept.moves {s s' : State} {p : Probe} {action : Action} {phase : Phase}
    (hkept : p.Kept s) (hsound : Sound s) (h : p.step s action = some (phase, s')) :
    Moves s p action phase s' := by
  cases action with
  | consult => exact moves_consult hsound hkept h
  | list => exact moves_list hsound hkept h
  | start j =>
    rw [Probe.step] at h
    split at h
    · next timeout slots hphase =>
      split at h
      · next name hslot =>
        obtain ⟨rfl, rfl⟩ := Prod.mk.inj (Option.some.inj h)
        exact moves_of_silent hsound (kept_set hkept hphase hslot _) (fun _ h ↦ (by cases h))
          fun h ↦ (by cases h)
      · cases h
    · cases h
  | report j result =>
    rw [Probe.step] at h
    split at h
    · next timeout slots hphase =>
      split at h
      · next name time hslot =>
        split at h
        · cases h
        · obtain ⟨rfl, rfl⟩ := Prod.mk.inj (Option.some.inj h)
          exact moves_of_silent hsound (kept_set hkept hphase hslot _) (fun _ h ↦ (by cases h))
            fun h ↦ (by cases h)
      · cases h
    · cases h
  | finish => exact moves_finish hsound hkept h
  | store => exact moves_store hsound hkept h
  | drop =>
    rw [Probe.step] at h
    split at h
    · cases h
    · cases h
    · obtain ⟨rfl, rfl⟩ := Prod.mk.inj (Option.some.inj h)
      exact moves_of_silent hsound (hkept.idle trivial) (fun _ h ↦ (by cases h))
        fun h ↦ (by cases h)

/-! ### Whole runs -/

/-- The invariant. -/
structure State.Inv (s : State) : Prop where
  sound : Sound s
  kept : ∀ p ∈ s.probes, p.Kept s

/-- What an event has to do, when all responses so far are complete. -/
structure Advances (s : State) (e : Event) (s' : State) : Prop where
  inv : s'.Inv
  complete : AllComplete s → (AllComplete s' ↔ FindsAll s e)

/-- An event that is no step of a response. -/
theorem advances_of_grows {s s' : State} {e : Event} (h : s.Inv) (hgrows : Grows s s')
    (hruns : s'.runs = s.runs) (hcache : s'.readinessCache = s.readinessCache)
    (hprobes : ∀ p ∈ s'.probes, p ∈ s.probes ∨ p.Kept s' ∧ p.phase = .called)
    (hfinds : FindsAll s e) : Advances s e s' := by
  refine ⟨⟨⟨fun run hrun ↦ ?_, fun run hrun ↦ ?_⟩, fun p hp ↦ ?_⟩,
    fun hall ↦ iff_of_true (fun p hp response hphase ↦ ?_) hfinds⟩
  · rw [hruns] at hrun
    exact (h.sound.runs run hrun).trans hgrows.checks
  · rw [hcache] at hrun
    exact hgrows.runs (h.sound.cache run hrun)
  · rcases hprobes p hp with hp | ⟨hkept, -⟩
    · exact (h.kept p hp).mono hgrows
    · exact hkept
  · rcases hprobes p hp with hp | ⟨-, hcalled⟩
    · exact (hall p hp response hphase).mono hgrows
    · rw [hcalled] at hphase
      cases hphase

/-- **A step of a response in the registry.** -/
theorem advances_act {s s' : State} {i : ℕ} {action : Action} (h : s.Inv)
    (hstep : step s (.act i action) = some s') : Advances s (.act i action) s' := by
  obtain ⟨p, hp, hnext⟩ := Option.bind_eq_some_iff.1 hstep
  obtain ⟨⟨phase, next⟩, haction, rfl⟩ := Option.map_eq_some_iff.1 hnext
  have hmem := List.mem_of_getElem? hp
  have hmoves := (h.kept p hmem).moves h.sound haction
  have hfinds : FindsAll s (.act i action) ↔
      (action = .consult → ∀ run ∈ s.cached p.ttl, p.registered ≤ run.reports.length) := by
    rw [FindsAll.eq_def]
    cases action <;> simp [hp]
  have hget : (next.put i p phase).probes[i]? = some { p with phase } := by
    rw [State.put, hmoves.probes, List.getElem?_set_self (List.getElem?_eq_some_iff.1 hp).1]
  have hput : Grows next (next.put i p phase) := .of_eq rfl rfl rfl
  refine ⟨⟨⟨hmoves.sound.runs, hmoves.sound.cache⟩, fun q hq ↦ ?_⟩, fun hall ↦ ?_⟩
  · rw [State.put, hmoves.probes] at hq
    rcases List.mem_or_eq_of_mem_set hq with hq | rfl
    · exact ((h.kept q hq).mono hmoves.grows).mono hput
    · exact hmoves.kept.mono hput
  · rw [hfinds, ← hmoves.complete]
    constructor
    · intro hcomplete response hphase
      have hp' := hcomplete _ (List.mem_of_getElem? hget) response hphase
      exact ⟨hp'.reported, hp'.healthy⟩
    · intro hcomplete q hq response hphase
      rw [State.put, hmoves.probes] at hq
      rcases List.mem_or_eq_of_mem_set hq with hq | rfl
      · exact ((hall q hq response hphase).mono hmoves.grows).mono hput
      · have hp' := hcomplete response hphase
        exact ⟨hp'.reported, hp'.healthy⟩

/-- **One event.** Whatever it is, checks and runs are only added and time does not go back, which
is all that the other responses rely on. -/
theorem State.Inv.advances {s s' : State} {e : Event} (h : s.Inv) (hstep : step s e = some s') :
    Advances s e s' := by
  cases e with
  | addCheck name =>
    obtain rfl := Option.some.inj hstep
    exact advances_of_grows h ⟨Nat.le_refl _, List.prefix_append _ _, List.Subset.refl _⟩ rfl rfl
      (fun p hp ↦ .inl hp) trivial
  | setReadinessCacheTtl ttl =>
    obtain rfl := Option.some.inj hstep
    exact advances_of_grows h (.of_eq rfl rfl rfl) rfl rfl (fun p hp ↦ .inl hp) trivial
  | withCheckTimeout timeout =>
    obtain rfl := Option.some.inj hstep
    exact advances_of_grows h (.of_eq rfl rfl rfl) rfl rfl (fun p hp ↦ .inl hp) trivial
  | wait duration =>
    obtain rfl := Option.some.inj hstep
    exact advances_of_grows h ⟨Nat.le_add_right _ _, List.prefix_rfl, List.Subset.refl _⟩ rfl rfl
      (fun p hp ↦ .inl hp) trivial
  | call =>
    obtain rfl := Option.some.inj hstep
    refine advances_of_grows h (.of_eq rfl rfl rfl) rfl rfl (fun p hp ↦ ?_) trivial
    rcases List.mem_append.1 hp with hp | hp
    · exact .inl hp
    · obtain rfl := List.mem_singleton.1 hp
      exact .inr ⟨⟨Nat.le_refl _, Nat.le_refl _, fun _ _ h ↦ (by cases h),
        fun _ h ↦ (by cases h)⟩, rfl⟩
  | act i action => exact advances_act h hstep

theorem inv_of_run {es : List Event} {s : State} (h : system.run es = some s) : s.Inv :=
  Transition.run_induction (P := fun _ s ↦ s.Inv)
    ⟨⟨fun _ hrun ↦ absurd hrun List.not_mem_nil, fun _ hrun ↦ (by cases hrun)⟩,
      fun _ hp ↦ absurd hp List.not_mem_nil⟩
    (fun _ _ _ _ _ hinv hstep ↦ (hinv.advances hstep).inv) h

/-- **When all responses are complete**: exactly if each that finds a fresh run in the cache finds
all checks that were registered before it began. -/
theorem complete_iff {es : List Event} {s : State} (h : system.run es = some s) :
    system.Throughout (fun _ s ↦ AllComplete s) es ↔ system.Each (fun _ s e ↦ FindsAll s e) es :=
  Transition.throughout_iff_each (fun _ hp ↦ absurd hp List.not_mem_nil)
    (fun _ _ _ _ hs hall hstep ↦ ((inv_of_run hs).advances hstep).complete hall) h

/-! ### A response short of a check -/

private def db : Str := "db".toList

/-- A response with a run of its own, of one check. -/
private def runOfOne (i : ℕ) (healthy : Bool) : List Event :=
  [.act i .consult, .act i .list, .act i (.start 0), .act i (.report 0 (some { healthy })),
    .act i .finish, .act i .store]

/-- A second response takes over what the first one found. -/
private def takesOver : List Event :=
  [.addCheck db, .call] ++ runOfOne 0 true ++ [.wait 500000000, .call, .act 1 .consult]

theorem complete_iff_takesOver : (system.run takesOver).isSome ∧
    system.Throughout (fun _ s ↦ AllComplete s) takesOver := by
  have hrun : (system.run takesOver).isSome := rfl
  obtain ⟨s, hs⟩ := Option.isSome_iff_exists.1 hrun
  refine ⟨hrun, (complete_iff hs).2 ?_⟩
  -- nothing is in the cache when the first response looks
  have hfirst : system.Each (fun _ s e ↦ FindsAll s e)
      ([] ++ [.addCheck db] ++ [.call] ++ [.act 0 .consult]) := by
    refine ((Transition.each_nil.concat fun _ _ ↦ trivial).concat fun _ _ ↦ trivial).concat ?_
    intro s hs p _ run hrun
    obtain rfl := Option.some.inj hs
    cases hrun
  have hstored : system.Each (fun _ s e ↦ FindsAll s e) ([.addCheck db, .call, .act 0 .consult] ++
      [.act 0 .list] ++ [.act 0 (.start 0)] ++ [.act 0 (.report 0 (some { healthy := true }))] ++
      [.act 0 .finish] ++ [.act 0 .store] ++ [.wait 500000000] ++ [.call]) := by
    iterate 7 refine Transition.Each.concat ?_ fun _ _ ↦ trivial
    exact hfirst
  -- the run that the second one finds has the one check
  have hfound : (system.run ([.addCheck db, .call] ++ runOfOne 0 true ++
      [.wait 500000000, .call])).all fun s ↦ s.probes[1]?.all fun p ↦
        (s.cached p.ttl).all fun run ↦ p.registered ≤ run.reports.length := by
    decide +kernel
  refine hstored.concat fun s hs p hp run hrun ↦ ?_
  simp only [Option.all_eq_true, decide_eq_true_eq] at hfound
  exact hfound s hs p hp run hrun

/-- A check is added while the reports of a run without checks are in the cache. -/
private def addedLate : List Event :=
  [.call, .act 0 .consult, .act 0 .list, .act 0 .finish, .act 0 .store, .addCheck db, .call,
    .act 1 .consult]

/-- A run without checks is stored after one with a check that was added meanwhile and fails. -/
private def storedLate : List Event :=
  [.call, .act 0 .consult, .act 0 .list, .addCheck db, .call] ++ runOfOne 1 false ++
    [.act 0 .finish, .act 0 .store, .call, .act 2 .consult]

/-- A response that lacks a check and answers 200. -/
theorem not_allComplete {s : State} {p : Probe} {response : ProbeResponse} (hp : p ∈ s.probes)
    (hphase : p.phase = .responded response) (hregistered : 0 < p.registered)
    (hchecks : response.checks = []) : ¬AllComplete s := by
  intro h
  obtain ⟨report, hreport, -⟩ := (h p hp response hphase).reported 0 hregistered
  rw [hchecks] at hreport
  cases hreport

theorem not_throughout_addedLate :
    (¬system.Throughout (fun _ s ↦ AllComplete s) addedLate) ∧
      ¬system.Throughout (fun _ s ↦ AllComplete s) storedLate := by
  refine ⟨fun h ↦ ?_, fun h ↦ ?_⟩
  · exact not_allComplete (.tail _ (.head _)) rfl (by decide) rfl (h _ _ List.prefix_rfl rfl)
  · exact not_allComplete (.tail _ (.tail _ (.head _))) rfl (by decide) rfl
      (h _ _ List.prefix_rfl rfl)

end Health
