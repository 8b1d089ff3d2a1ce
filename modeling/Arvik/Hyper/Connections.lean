import Arvik.Foundation.Transition
import Mathlib.Data.List.Perm.Basic

/-!
# Accounting of connections

The accept loop admits a connection by counting it in `active`, calls the `on_connected` hook, and
spawns a task for it. When the task is first polled it makes a guard, and the guard's drop counts
the connection out again and calls `on_disconnected`. The loop, the tasks and the shutdown
interleave; a task can be aborted once the drain timeout has passed, or when the loop has left with
an error and dropped its set of tasks. An abort before the first poll drops what the task captured,
and no guard is among that.

`Accounted` is what the accounting is for. Its bound holds in every run (`ledger_of_run`). The rest
fails with the abort of a task that was never polled, and only then (`accounted_iff`): what the
guard would have counted out stays in `active`.

The loop admits by a compare-and-swap that may have to be tried again, since tasks count out at the
same time; each attempt is an event. The invariant is a ledger: who is counted in `active` is known
at any time, being the connection the loop is just admitting, the tasks that hold a guard or are
still to make one, and those that were aborted before they made it. Every event is one of a few
movements between these (`Effect`), and both results are read off the ledger.
-/

namespace Hyper

/-- How far the task of a connection has got. -/
inductive Phase
  /-- In the set of tasks, not polled yet. -/
  | spawned
  /-- Polled, so that the guard exists. -/
  | running
  /-- The guard was dropped. -/
  | ended
  /-- Aborted before the first poll. -/
  | cancelled
  deriving DecidableEq

variable {I : Type}

/-- The task of a connection; `info` is what the hooks are told. -/
structure Task (I : Type) where
  info : I
  phase : Phase

/-- The accept loop. -/
inductive Loop (I : Type)
  /-- Waiting for a connection, a finished task or the shutdown signal. -/
  | selecting
  /-- In `try_admit_connection`, with the number of active connections last read. -/
  | admitting (info : I) (current : ℕ)
  /-- The connection is counted. -/
  | admitted (info : I)
  /-- `on_connected` was called. -/
  | connected (info : I)
  /-- Only waiting for the tasks. -/
  | draining
  | returned

/-- The server: the loop, the counter, the tasks in the order of spawning, the calls of the
hooks. -/
structure State (I : Type) where
  loop : Loop I := .selecting
  active : ℕ := 0
  tasks : List (Task I) := []
  connected : List I := []
  disconnected : List I := []
  /-- The remaining tasks are to be aborted. -/
  aborting : Bool := false

inductive Event (I : Type)
  /-- A connection was accepted and its options applied; admission starts. -/
  | accept (info : I)
  /-- One round of the compare-and-exchange loop; a weak exchange may fail spuriously. -/
  | exchange (spurious : Bool)
  | callConnected
  | spawn
  /-- A task is polled for the first time. -/
  | poll (task : ℕ)
  /-- A task runs to its end and drops its guard. -/
  | finish (task : ℕ)
  /-- A task is aborted. -/
  | abort (task : ℕ)
  /-- The signal was seen, or no more connections will come. -/
  | shutdown
  /-- Accepting failed for good; the loop returns and drops the set of tasks. -/
  | acceptError
  | drainTimeout
  | drained

/-- The drop of a guard. -/
def State.dropGuard (s : State I) (info : I) : State I :=
  { s with active := s.active - 1, disconnected := s.disconnected ++ [info] }

/-- Set the phase of a task. -/
def State.setPhase (s : State I) (i : ℕ) (task : Task I) (phase : Phase) : State I :=
  { s with tasks := s.tasks.set i { task with phase } }

/-- One event. -/
def step (maxConnections : Option ℕ) (s : State I) : Event I → Option (State I)
  | .accept info =>
    match s.loop with
    | .selecting =>
      if maxConnections.isSome then some { s with loop := .admitting info s.active }
      else some { s with loop := .admitted info, active := s.active + 1 }
    | _ => none
  | .exchange spurious =>
    match s.loop with
    | .admitting info current =>
      -- refused: the loop goes on to the next connection
      if maxConnections.any (· ≤ current) then some { s with loop := .selecting }
      else if s.active = current ∧ spurious = false then
        some { s with loop := .admitted info, active := current + 1 }
      else some { s with loop := .admitting info s.active }
    | _ => none
  | .callConnected =>
    match s.loop with
    | .admitted info =>
      some { s with loop := .connected info, connected := s.connected ++ [info] }
    | _ => none
  | .spawn =>
    match s.loop with
    | .connected info => some { s with loop := .selecting, tasks := s.tasks ++ [⟨info, .spawned⟩] }
    | _ => none
  | .poll i =>
    match s.tasks[i]? with
    | some ⟨info, .spawned⟩ => some (s.setPhase i ⟨info, .spawned⟩ .running)
    | _ => none
  | .finish i =>
    match s.tasks[i]? with
    | some ⟨info, .running⟩ => some ((s.setPhase i ⟨info, .running⟩ .ended).dropGuard info)
    | _ => none
  | .abort i =>
    if s.aborting then
      match s.tasks[i]? with
      | some ⟨info, .running⟩ => some ((s.setPhase i ⟨info, .running⟩ .ended).dropGuard info)
      | some ⟨info, .spawned⟩ => some (s.setPhase i ⟨info, .spawned⟩ .cancelled)
      | _ => none
    else none
  | .shutdown =>
    match s.loop with
    | .selecting => some { s with loop := .draining }
    | _ => none
  | .acceptError =>
    match s.loop with
    | .selecting => some { s with loop := .returned, aborting := true }
    | _ => none
  | .drainTimeout =>
    match s.loop with
    | .draining => some { s with aborting := true }
    | _ => none
  | .drained =>
    match s.loop with
    | .draining =>
      if s.tasks.all fun task ↦ task.phase = .ended ∨ task.phase = .cancelled then
        some { s with loop := .returned }
      else none
    | _ => none

/-- The server with its limit. -/
def Server (I : Type) (maxConnections : Option ℕ) : Transition (State I) (Event I) where
  init := {}
  step := step maxConnections

/-! ### What the accounting is for -/

/-- The connection of a task, as long as it has not ended. -/
def Task.live (task : Task I) : List I :=
  match task.phase with
  | .spawned | .running => [task.info]
  | .ended | .cancelled => []

/-- The connection the loop has admitted and not yet spawned a task for. -/
def Loop.admitted? : Loop I → List I
  | .admitted info | .connected info => [info]
  | _ => []

/-- The connections admitted that have not ended. -/
def State.live (s : State I) : List I :=
  s.loop.admitted? ++ s.tasks.flatMap Task.live

/-- `active` counts the live connections and respects the limit; and once all connections have
ended, there was one call of `on_disconnected` for each call of `on_connected`. -/
structure Accounted (maxConnections : Option ℕ) (s : State I) : Prop where
  active : s.active = s.live.length
  bound : ∀ max ∈ maxConnections, s.active ≤ max
  hooks : s.live = [] → s.disconnected.Perm s.connected

/-- An event is no abort of a task that was never polled. Until it is polled a task has no guard,
and nothing else counts its connection out. -/
def AfterPoll (s : State I) : Event I → Prop
  | .abort i => ∀ info, s.tasks[i]? ≠ some ⟨info, .spawned⟩
  | _ => True

/-! ### The effects of events -/

/-- What an event does to the accounts: nothing; one more connection is counted; its hook is
called; it becomes a task; a task gets its guard; the guard is dropped; a task without a guard is
gone. -/
inductive Effect (maxConnections : Option ℕ) (s : State I) : Event I → State I → Prop
  | quiet {e : Event I} (loop : Loop I) (aborting : Bool) (before : s.loop.admitted? = [])
      (after : loop.admitted? = []) (polled : AfterPoll s e) :
      Effect maxConnections s e { s with loop, aborting }
  | count {e : Event I} (info : I) (before : s.loop.admitted? = [])
      (below : ∀ max ∈ maxConnections, s.active < max) (polled : AfterPoll s e) :
      Effect maxConnections s e { s with loop := .admitted info, active := s.active + 1 }
  | callConnected (info : I) (before : s.loop = .admitted info) :
      Effect maxConnections s .callConnected
        { s with loop := .connected info, connected := s.connected ++ [info] }
  | spawn (info : I) (before : s.loop = .connected info) :
      Effect maxConnections s .spawn
        { s with loop := .selecting, tasks := s.tasks ++ [⟨info, .spawned⟩] }
  | poll (i : ℕ) (info : I) (before : s.tasks[i]? = some ⟨info, .spawned⟩) :
      Effect maxConnections s (.poll i) (s.setPhase i ⟨info, .spawned⟩ .running)
  | drop {e : Event I} (i : ℕ) (info : I) (before : s.tasks[i]? = some ⟨info, .running⟩)
      (polled : AfterPoll s e) :
      Effect maxConnections s e ((s.setPhase i ⟨info, .running⟩ .ended).dropGuard info)
  | cancel (i : ℕ) (info : I) (before : s.tasks[i]? = some ⟨info, .spawned⟩) :
      Effect maxConnections s (.abort i) (s.setPhase i ⟨info, .spawned⟩ .cancelled)

theorem effect_of_step {maxConnections : Option ℕ} {s s' : State I} {e : Event I}
    (h : step maxConnections s e = some s') : Effect maxConnections s e s' := by
  rcases e with info | spurious | - | - | i | i | i | - | - | - | - <;> rw [step] at h
  · split at h
    · next hloop =>
      -- Without a limit the connection is counted at once, with one the loop starts to compare.
      have hbefore : s.loop.admitted? = [] := by rw [hloop]; rfl
      split at h
      · obtain rfl := Option.some.inj h
        exact .quiet (.admitting info s.active) s.aborting hbefore rfl trivial
      · next hmax =>
        obtain rfl := Option.some.inj h
        refine .count info hbefore (fun max hmem ↦ absurd ?_ hmax) trivial
        rw [Option.mem_def.1 hmem]
        rfl
    · exact nomatch h
  · split at h
    · next info current hloop =>
      have hbefore : s.loop.admitted? = [] := by rw [hloop]; rfl
      split at h
      · obtain rfl := Option.some.inj h
        exact .quiet .selecting s.aborting hbefore rfl trivial
      · next hbelow =>
        split at h
        · -- Only an exchange that finds the counter unchanged counts the connection.
          next hexchange =>
          obtain rfl := Option.some.inj h
          obtain ⟨rfl, -⟩ := hexchange
          refine .count info hbefore (fun max hmem ↦ Nat.lt_of_not_le fun hle ↦ hbelow ?_) trivial
          rw [Option.mem_def.1 hmem]
          exact decide_eq_true hle
        · obtain rfl := Option.some.inj h
          exact .quiet (.admitting info s.active) s.aborting hbefore rfl trivial
    · exact nomatch h
  · split at h
    · next info hloop =>
      obtain rfl := Option.some.inj h
      exact .callConnected info hloop
    · exact nomatch h
  · split at h
    · next info hloop =>
      obtain rfl := Option.some.inj h
      exact .spawn info hloop
    · exact nomatch h
  · split at h
    · next info htask =>
      obtain rfl := Option.some.inj h
      exact .poll i info htask
    · exact nomatch h
  · split at h
    · next info htask =>
      obtain rfl := Option.some.inj h
      exact .drop i info htask trivial
    · exact nomatch h
  · split at h
    · split at h
      · next info htask =>
        obtain rfl := Option.some.inj h
        -- A task that was polled drops its guard, one that was not has none.
        exact .drop i info htask fun info' h' ↦ by rw [htask] at h'; cases h'
      · next info htask =>
        obtain rfl := Option.some.inj h
        exact .cancel i info htask
      · exact nomatch h
    · exact nomatch h
  · split at h
    · next hloop =>
      obtain rfl := Option.some.inj h
      exact .quiet .draining s.aborting (by rw [hloop]; rfl) rfl trivial
    · exact nomatch h
  · split at h
    · next hloop =>
      obtain rfl := Option.some.inj h
      exact .quiet .returned true (by rw [hloop]; rfl) rfl trivial
    · exact nomatch h
  · split at h
    · next hloop =>
      obtain rfl := Option.some.inj h
      exact .quiet s.loop true (by rw [hloop]; rfl) (by rw [hloop]; rfl) trivial
    · exact nomatch h
  · split at h
    · next hloop =>
      split at h
      · obtain rfl := Option.some.inj h
        exact .quiet .returned s.aborting (by rw [hloop]; rfl) rfl trivial
      · exact nomatch h
    · exact nomatch h

/-! ### The ledger -/

/-- The connection of a task whose guard has not counted it out. -/
def Task.held (task : Task I) : List I :=
  match task.phase with
  | .spawned | .running | .cancelled => [task.info]
  | .ended => []

/-- The connection the loop has told the hook of and not yet spawned a task for. -/
def Loop.announced? : Loop I → List I
  | .connected info => [info]
  | _ => []

/-- What every run balances: `active` with the connections held, and the calls of the hooks. -/
structure Ledger (maxConnections : Option ℕ) (s : State I) : Prop where
  active : s.active = s.loop.admitted?.length + (s.tasks.flatMap Task.held).length
  bound : ∀ max ∈ maxConnections, s.active ≤ max
  hooks : (s.disconnected ++ (s.tasks.flatMap Task.held ++ s.loop.announced?)).Perm s.connected

theorem Loop.announced?_eq_nil {loop : Loop I} (h : loop.admitted? = []) :
    loop.announced? = [] := by
  rcases loop with - | ⟨info, current⟩ | info | info | - | -
  all_goals first | rfl | cases h

/-- The tasks around one of them, and around what replaces it. -/
theorem exists_tasks {tasks : List (Task I)} {i : ℕ} {task : Task I} (h : tasks[i]? = some task)
    (task' : Task I) :
    ∃ before after, tasks = before ++ task :: after ∧
      tasks.set i task' = before ++ task' :: after := by
  obtain ⟨hi, htask⟩ := List.getElem?_eq_some_iff.1 h
  obtain ⟨before, after, htasks, -, hset⟩ : ∃ before after,
      tasks = before ++ tasks[i] :: after ∧ before.length = i ∧
        tasks.set i task' = before ++ task' :: after := List.exists_of_set hi
  exact ⟨before, after, htask ▸ htasks, hset⟩

/-- A task that keeps its connection held keeps what is held. -/
theorem flatMap_held_setPhase {s : State I} {i : ℕ} {task : Task I} (phase : Phase)
    (h : s.tasks[i]? = some task) (hheld : Task.held { task with phase } = task.held) :
    (s.setPhase i task phase).tasks.flatMap Task.held = s.tasks.flatMap Task.held := by
  obtain ⟨before, after, htasks, hset⟩ := exists_tasks h { task with phase }
  rw [State.setPhase, hset, htasks, List.flatMap_append, List.flatMap_append, List.flatMap_cons,
    List.flatMap_cons, hheld]

/-- **Every event keeps the ledger balanced.** A connection that is counted moves from the loop to a
task, or out of the count, and the hooks move with it. -/
theorem ledger_of_effect {maxConnections : Option ℕ} {s s' : State I} {e : Event I}
    (h : Ledger maxConnections s) (heffect : Effect maxConnections s e s') :
    Ledger maxConnections s' := by
  obtain ⟨hactive, hbound, hhooks⟩ := h
  rcases heffect with ⟨loop, aborting, before, after, -⟩ | ⟨info, before, below, -⟩ |
    ⟨info, before⟩ | ⟨info, before⟩ | ⟨i, info, before⟩ | ⟨i, info, before, -⟩ | ⟨i, info, before⟩
  · rw [before] at hactive
    rw [Loop.announced?_eq_nil before] at hhooks
    refine ⟨?_, hbound, ?_⟩
    · show s.active = loop.admitted?.length + _
      rw [after]
      exact hactive
    · show (s.disconnected ++ (_ ++ loop.announced?)).Perm s.connected
      rw [Loop.announced?_eq_nil after]
      exact hhooks
  · -- The counter goes up with the connection the loop has admitted.
    rw [before] at hactive
    rw [Loop.announced?_eq_nil before] at hhooks
    refine ⟨?_, below, hhooks⟩
    show s.active + 1 = [info].length + (s.tasks.flatMap Task.held).length
    rw [hactive, List.length_nil, List.length_singleton]
    omega
  · rw [before] at hactive hhooks
    refine ⟨hactive, hbound, ?_⟩
    show (s.disconnected ++ (s.tasks.flatMap Task.held ++ [info])).Perm (s.connected ++ [info])
    have hnil : (s.disconnected ++ (s.tasks.flatMap Task.held ++ [])).Perm s.connected := hhooks
    rw [List.append_nil] at hnil
    rw [← List.append_assoc]
    exact hnil.append_right [info]
  · rw [before] at hactive hhooks
    have hheld : (s.tasks ++ [Task.mk info .spawned]).flatMap Task.held =
        s.tasks.flatMap Task.held ++ [info] := by
      rw [List.flatMap_append]
      rfl
    refine ⟨?_, hbound, ?_⟩
    · show s.active = 0 + ((s.tasks ++ [Task.mk info .spawned]).flatMap Task.held).length
      rw [hheld, hactive, List.length_append]
      show 1 + _ = 0 + (_ + 1)
      omega
    · show (s.disconnected ++ ((s.tasks ++ [Task.mk info .spawned]).flatMap Task.held ++ [])).Perm _
      rw [hheld, List.append_nil]
      exact hhooks
  · have hheld := flatMap_held_setPhase .running before rfl
    exact ⟨hheld ▸ hactive, hbound, hheld ▸ hhooks⟩
  · obtain ⟨left, right, htasks, hset⟩ := exists_tasks before ⟨info, .ended⟩
    -- Only this task changes, and its connection passes from the held to the disconnected ones.
    have hold : s.tasks.flatMap Task.held =
        left.flatMap Task.held ++ info :: right.flatMap Task.held := by
      rw [htasks, List.flatMap_append, List.flatMap_cons]
      rfl
    have hnew : (s.tasks.set i ⟨info, .ended⟩).flatMap Task.held =
        left.flatMap Task.held ++ right.flatMap Task.held := by
      rw [hset, List.flatMap_append, List.flatMap_cons]
      rfl
    rw [hold] at hactive hhooks
    refine ⟨?_, fun max hmax ↦ Nat.le_trans (Nat.sub_le _ _) (hbound max hmax), ?_⟩
    · show s.active - 1 = s.loop.admitted?.length +
        ((s.tasks.set i ⟨info, .ended⟩).flatMap Task.held).length
      rw [hnew, hactive, List.length_append, List.length_append, List.length_cons]
      omega
    · show ((s.disconnected ++ [info]) ++ ((s.tasks.set i ⟨info, .ended⟩).flatMap Task.held ++
        s.loop.announced?)).Perm s.connected
      rw [hnew, List.append_assoc]
      refine List.Perm.trans (List.Perm.append_left _ ?_) hhooks
      rw [List.singleton_append, List.append_assoc, List.append_assoc, List.cons_append]
      exact List.perm_middle.symm
  · have hheld := flatMap_held_setPhase .cancelled before rfl
    exact ⟨hheld ▸ hactive, hbound, hheld ▸ hhooks⟩

/-! ### Runs -/

variable {maxConnections : Option ℕ}

theorem ledger_of_run {es : List (Event I)} {s : State I}
    (h : (Server I maxConnections).run es = some s) : Ledger maxConnections s := by
  have hinit : Ledger maxConnections ({} : State I) :=
    ⟨rfl, fun _ _ ↦ Nat.zero_le _, List.Perm.refl _⟩
  exact Transition.run_induction (P := fun _ s ↦ Ledger maxConnections s) hinit
    (fun _ _ _ _ _ ih hstep ↦ ledger_of_effect ih (effect_of_step hstep)) h

/-- What is held without being live is the connections of cancelled tasks. -/
theorem length_flatMap_held (tasks : List (Task I)) :
    (tasks.flatMap Task.held).length =
      (tasks.flatMap Task.live).length + tasks.countP fun task ↦ task.phase = .cancelled := by
  induction tasks with
  | nil => rfl
  | cons task tasks ih =>
    rw [List.flatMap_cons, List.flatMap_cons, List.length_append, List.length_append, ih,
      List.countP_cons]
    obtain ⟨info, - | - | - | -⟩ := task
    all_goals
      simp only [Task.held, Task.live, List.length_singleton, List.length_nil, reduceCtorEq,
        decide_false, decide_true, Bool.false_eq_true, if_false, if_true]
      omega

/-- With a balanced ledger, the accounts are in order exactly if no task was cancelled. -/
theorem accounted_iff_of_ledger {s : State I} (h : Ledger maxConnections s) :
    Accounted maxConnections s ↔ ∀ task ∈ s.tasks, task.phase ≠ .cancelled := by
  have hlength := length_flatMap_held s.tasks
  constructor
  · intro haccounted
    have hactive := haccounted.active
    rw [State.live, List.length_append, h.active, hlength] at hactive
    have hcount : (s.tasks.countP fun task ↦ task.phase = .cancelled) = 0 := by omega
    exact fun task htask hphase ↦
      absurd (decide_eq_true hphase) (List.countP_eq_zero.1 hcount task htask)
  · intro hnone
    have hheld : s.tasks.flatMap Task.held = s.tasks.flatMap Task.live :=
      List.flatMap_congr fun task htask ↦ by
        have hphase := hnone task htask
        obtain ⟨info, - | - | - | -⟩ := task
        all_goals first | rfl | exact absurd rfl hphase
    refine ⟨?_, h.bound, fun hended ↦ ?_⟩
    · rw [h.active, hheld, State.live, List.length_append]
    · obtain ⟨hloop, htasks⟩ := List.append_eq_nil_iff.1 hended
      have hhooks := h.hooks
      rwa [hheld, htasks, Loop.announced?_eq_nil hloop, List.append_nil, List.append_nil] at hhooks

/-- An event leaves no task cancelled exactly if it is no abort before the first poll. -/
theorem not_cancelled_iff {s s' : State I} {e : Event I}
    (heffect : Effect maxConnections s e s') (h : ∀ task ∈ s.tasks, task.phase ≠ .cancelled) :
    (∀ task ∈ s'.tasks, task.phase ≠ .cancelled) ↔ AfterPoll s e := by
  have hset : ∀ (i : ℕ) (task : Task I) (phase : Phase), phase ≠ .cancelled →
      ∀ t ∈ (s.setPhase i task phase).tasks, t.phase ≠ .cancelled := by
    intro i task phase hphase t ht
    rcases List.mem_or_eq_of_mem_set ht with ht | rfl
    · exact h t ht
    · exact hphase
  rcases heffect with ⟨loop, aborting, -, -, polled⟩ | ⟨info, -, -, polled⟩ | ⟨info, -⟩ |
    ⟨info, -⟩ | ⟨i, info, -⟩ | ⟨i, info, -, polled⟩ | ⟨i, info, before⟩
  · exact iff_of_true h polled
  · exact iff_of_true h polled
  · exact iff_of_true h trivial
  · refine iff_of_true (fun task htask ↦ ?_) trivial
    rcases List.mem_append.1 htask with htask | htask
    · exact h task htask
    · rw [List.mem_singleton.1 htask]
      exact nofun
  · exact iff_of_true (hset i _ _ nofun) trivial
  · exact iff_of_true (hset i _ _ nofun) polled
  · refine iff_of_false (fun hnone ↦ ?_) fun hpolled ↦ hpolled info before
    have hi := (List.getElem?_eq_some_iff.1 before).1
    exact hnone ⟨info, .cancelled⟩ (List.mem_set hi _) rfl

/-- **When the accounts are in order**: throughout a run they are, exactly if no task is aborted
before it was first polled. -/
theorem accounted_iff {es : List (Event I)} {s : State I}
    (h : (Server I maxConnections).run es = some s) :
    (Server I maxConnections).Throughout (fun _ s ↦ Accounted maxConnections s) es ↔
      (Server I maxConnections).Each (fun _ s e ↦ AfterPoll s e) es := by
  have hinit : Accounted maxConnections ({} : State I) :=
    ⟨rfl, fun _ _ ↦ Nat.zero_le _, fun _ ↦ List.Perm.refl _⟩
  refine Transition.throughout_iff_each hinit (fun es s e s' hrun haccounted hstep ↦ ?_) h
  have hledger := ledger_of_run hrun
  have heffect := effect_of_step hstep
  rw [accounted_iff_of_ledger (ledger_of_effect hledger heffect)]
  exact not_cancelled_iff heffect ((accounted_iff_of_ledger hledger).1 haccounted)

/-- A connection that is served and ends. -/
theorem accounted_served :
    (Server ℕ (some 1)).Throughout (fun _ s ↦ Accounted (some 1) s)
      [.accept 7, .exchange false, .callConnected, .spawn, .poll 0, .finish 0] := by
  refine (accounted_iff rfl).2 ?_
  show (Server ℕ (some 1)).Each _ (((((([] ++ [Event.accept 7]) ++ [.exchange false]) ++
    [.callConnected]) ++ [.spawn]) ++ [.poll 0]) ++ [.finish 0])
  rw [Transition.each_concat_iff rfl, Transition.each_concat_iff rfl,
    Transition.each_concat_iff rfl, Transition.each_concat_iff rfl,
    Transition.each_concat_iff rfl, Transition.each_concat_iff rfl]
  exact ⟨⟨⟨⟨⟨⟨Transition.each_nil, trivial⟩, trivial⟩, trivial⟩, trivial⟩, trivial⟩, trivial⟩

/-- A connection accepted just before the signal, whose task is aborted when the drain timeout
passes: it stays counted, and `on_disconnected` is not called for it. -/
theorem not_accounted :
    ¬ (Server ℕ (some 1)).Throughout (fun _ s ↦ Accounted (some 1) s)
      [.accept 7, .exchange false, .callConnected, .spawn, .shutdown, .drainTimeout, .abort 0] := by
  intro h
  have hhooks := (h _ _ List.prefix_rfl rfl).hooks rfl
  exact absurd hhooks (by decide)

end Hyper
