import Arvik.Foundation.Transition
import Mathlib.Data.List.Basic

/-!
# Debounced reloads

A task waits for notifications of changes. When one arrives, it lets a delay pass, empties its queue
and loads anew, look by look, from a world that may change between any two steps; then it stores
what it loaded, if it could be loaded, and reports how it went. Notifications can also be errors,
which are reported as they are.

Emptying the queue drops notifications on purpose. No change is missed for that: whenever the task
waits and its queue is empty, a reload began after the last notification of a change was sent. What
is active is what was loaded last, and a reload that fails leaves it alone (`upToDate_of_run`).
Every error and every result is reported once and in order (`reported_of_run`). A reload during
which the world stays as it is loads what that world has (`loadsAnew_of_run`).

A loading is a sequence of looks, not a function of one state of the world: a program opens one file
after the other, and a change may come in between. So nothing is claimed about a reload during which
something changed, except that another one follows it.

The statements are about the history of a run and are proved by one step lemma, `effect_of_step`,
which lists what an event does to the queue, to the phase and to what was reported; each invariant
is then a case analysis over these effects.
-/

/-- How a task loads, and what it reports. -/
structure Reload (World Reader Notice Failure Value Update : Type) where
  start : Reader
  /-- One look at the world: loading goes on, or is finished. -/
  read : World → Reader → Reader ⊕ Except Failure Value
  /-- What is sent of an error among the notifications, or of a result. -/
  report : Notice ⊕ Except Failure Value → Option Update

variable {World Reader Notice Failure Value Update : Type}

/-- A look, if loading is not finished. -/
def Reload.look (reload : Reload World Reader Notice Failure Value Update)
    (reached : Reader ⊕ Except Failure Value) (world : World) : Reader ⊕ Except Failure Value :=
  reached.elim (reload.read world) .inr

/-- How far some looks lead, each of them at the world of its moment. -/
def Reload.after (reload : Reload World Reader Notice Failure Value Update) (looks : List World) :
    Reader ⊕ Except Failure Value :=
  looks.foldl reload.look (.inl reload.start)

theorem Reload.foldl_look_inr (reload : Reload World Reader Notice Failure Value Update)
    (looks : List World) (result : Except Failure Value) :
    looks.foldl reload.look (.inr result) = .inr result := by
  induction looks with
  | nil => rfl
  | cons world looks ih => exact ih

namespace Debounce

/-- How far the task has got. -/
inductive Phase (Reader Failure Value : Type)
  | waiting
  /-- The delay runs. -/
  | sleeping
  | draining
  /-- The queue was found empty. -/
  | drained
  | reading (reader : Reader)
  | loaded (result : Except Failure Value)
  /-- The result is stored, and not reported yet. -/
  | stored (result : Except Failure Value)

/-- The world, the task and what it shares. -/
structure State (World Reader Notice Failure Value Update : Type) where
  world : World
  active : Value
  /-- Notifications that were sent and not received. -/
  queue : List (Except Notice Unit) := []
  phase : Phase Reader Failure Value := .waiting
  /-- What was reported and not taken. -/
  updates : List Update := []
  /-- Everything that was taken. -/
  taken : List Update := []
  /-- Everything that there was to report. -/
  produced : List (Notice ⊕ Except Failure Value) := []

inductive Event (World Notice : Type)
  /-- The world becomes another one. -/
  | change (world : World)
  /-- A change or an error is notified. -/
  | notify (notice : Except Notice Unit)
  | recv
  | wake
  /-- The queue is emptied by one notification, or found empty. -/
  | tryRecv
  | begin
  | read
  | store
  | send
  /-- A report is taken. -/
  | next

section System

variable (reload : Reload World Reader Notice Failure Value Update)

/-- An error among the notifications is reported at once. -/
def State.forward (s : State World Reader Notice Failure Value Update) (notice : Notice) :
    State World Reader Notice Failure Value Update :=
  { s with
    updates := s.updates ++ (reload.report (.inl notice)).toList
    produced := s.produced ++ [.inl notice] }

/-- One event. -/
def step (s : State World Reader Notice Failure Value Update) :
    Event World Notice → Option (State World Reader Notice Failure Value Update)
  | .change world => some { s with world }
  | .notify notice => some { s with queue := s.queue ++ [notice] }
  | .recv =>
    match s.phase, s.queue with
    | .waiting, .ok () :: queue => some { s with queue, phase := .sleeping }
    | .waiting, .error notice :: queue => some ({ s with queue }.forward reload notice)
    | _, _ => none
  | .wake =>
    match s.phase with
    | .sleeping => some { s with phase := .draining }
    | _ => none
  | .tryRecv =>
    match s.phase, s.queue with
    | .draining, .ok () :: queue => some { s with queue }
    | .draining, .error notice :: queue => some ({ s with queue }.forward reload notice)
    | .draining, [] => some { s with phase := .drained }
    | _, _ => none
  | .begin =>
    match s.phase with
    | .drained => some { s with phase := .reading reload.start }
    | _ => none
  | .read =>
    match s.phase with
    | .reading reader =>
      match reload.read s.world reader with
      | .inl reader => some { s with phase := .reading reader }
      | .inr result => some { s with phase := .loaded result }
    | _ => none
  | .store =>
    match s.phase with
    | .loaded (.ok value) => some {
        s with
        active := value
        phase := .stored (.ok value)
        produced := s.produced ++ [.inr (.ok value)] }
    | .loaded (.error failure) => some {
        s with
        phase := .stored (.error failure)
        produced := s.produced ++ [.inr (.error failure)] }
    | _ => none
  | .send =>
    match s.phase with
    | .stored result => some {
        s with
        phase := .waiting
        updates := s.updates ++ (reload.report (.inr result)).toList }
    | _ => none
  | .next =>
    match s.updates with
    | update :: updates => some { s with updates, taken := s.taken ++ [update] }
    | [] => none

/-- The task and what happens around it. -/
def system (world : World) (initial : Value) :
    Transition (State World Reader Notice Failure Value Update) (Event World Notice) where
  init := { world, active := initial }
  step := step reload

end System

/-! ### What is promised -/

/-- A reload began after every notification of a change. -/
def Answered (es : List (Event World Notice)) : Prop :=
  ∀ before after, es = before ++ .notify (.ok ()) :: after → .begin ∈ after

/-- The errors among notifications. -/
def errors (notices : List (Except Notice Unit)) : List Notice :=
  notices.filterMap fun notice ↦
    match notice with
    | .ok () => none
    | .error notice => some notice

/-- The notifications of a history. -/
def notices (es : List (Event World Notice)) : List (Except Notice Unit) :=
  es.filterMap fun e ↦
    match e with
    | .notify notice => some notice
    | _ => none

/-- What the events tell about the reloads. -/
structure Trail (World Failure Value : Type) where
  world : World
  /-- The worlds looked at since the last reload began. -/
  looks : List World := []
  results : List (Except Failure Value) := []

/-- What was loaded last, if anything was. -/
def lastLoaded (initial : Value) (results : List (Except Failure Value)) : Value :=
  (results.filterMap Except.toOption).getLastD initial

/-- What is still to be reported of a result. -/
def Phase.pending (reload : Reload World Reader Notice Failure Value Update) :
    Phase Reader Failure Value → List Update
  | stored result => (reload.report (.inr result)).toList
  | _ => []

section Promises

variable (reload : Reload World Reader Notice Failure Value Update)

def Trail.step (t : Trail World Failure Value) : Event World Notice → Trail World Failure Value
  | .change world => { t with world }
  | .begin => { t with looks := [] }
  | .read => { t with looks := t.looks ++ [t.world] }
  | .store => { t with results := t.results ++ (reload.after t.looks).getRight?.toList }
  | _ => t

def trail (world : World) (es : List (Event World Notice)) : Trail World Failure Value :=
  es.foldl (Trail.step reload) { world }

variable (world : World) (initial : Value)

/-- No change is missed, and what is active is what was loaded last. -/
structure UpToDate (es : List (Event World Notice))
    (s : State World Reader Notice Failure Value Update) : Prop where
  answered : s.phase = .waiting → s.queue = [] → Answered es
  failed : ∀ failure, s.phase = .stored (.error failure) → ∀ before during s₀,
    es = before ++ .begin :: during → .begin ∉ during →
      (system reload world initial).run before = some s₀ → s.active = s₀.active
  active : s.active = lastLoaded initial (trail reload world es).results

/-- Every error that was notified and every result is reported, in order and once. -/
structure Reported (es : List (Event World Notice))
    (s : State World Reader Notice Failure Value Update) : Prop where
  errors : errors (notices es) = s.produced.filterMap Sum.getLeft? ++ errors s.queue
  results : s.produced.filterMap Sum.getRight? = (trail reload world es).results
  reports : s.taken ++ s.updates ++ s.phase.pending reload = s.produced.filterMap reload.report

/-- A reload during which the world stays has the result of loading that world. -/
def LoadsAnew (load : World → Except Failure Value) (es : List (Event World Notice))
    (s : State World Reader Notice Failure Value Update) : Prop :=
  ∀ before during result, es = before ++ .begin :: during → s.phase = .loaded result →
    .begin ∉ during → (∀ world', .change world' ∉ during) → result = load s.world

end Promises

/-! ### One step -/

variable {reload : Reload World Reader Notice Failure Value Update}
  {s s' : State World Reader Notice Failure Value Update} {e : Event World Notice}

variable (reload s) in
/-- What an event does. -/
inductive Effect : Event World Notice → State World Reader Notice Failure Value Update → Prop
  | change (world : World) : Effect (.change world) { s with world }
  | notify (notice : Except Notice Unit) :
      Effect (.notify notice) { s with queue := s.queue ++ [notice] }
  | recvChange {queue : List (Except Notice Unit)} (phase : s.phase = .waiting)
      (received : s.queue = .ok () :: queue) : Effect .recv { s with queue, phase := .sleeping }
  | recvError {queue : List (Except Notice Unit)} {notice : Notice} (phase : s.phase = .waiting)
      (received : s.queue = .error notice :: queue) :
      Effect .recv ({ s with queue }.forward reload notice)
  | wake (phase : s.phase = .sleeping) : Effect .wake { s with phase := .draining }
  | drainChange {queue : List (Except Notice Unit)} (phase : s.phase = .draining)
      (received : s.queue = .ok () :: queue) : Effect .tryRecv { s with queue }
  | drainError {queue : List (Except Notice Unit)} {notice : Notice} (phase : s.phase = .draining)
      (received : s.queue = .error notice :: queue) :
      Effect .tryRecv ({ s with queue }.forward reload notice)
  | drained (phase : s.phase = .draining) (empty : s.queue = []) :
      Effect .tryRecv { s with phase := .drained }
  | begin (phase : s.phase = .drained) : Effect .begin { s with phase := .reading reload.start }
  | readOn {reader reader' : Reader} (phase : s.phase = .reading reader)
      (look : reload.read s.world reader = .inl reader') :
      Effect .read { s with phase := .reading reader' }
  | readEnd {reader : Reader} {result : Except Failure Value} (phase : s.phase = .reading reader)
      (look : reload.read s.world reader = .inr result) :
      Effect .read { s with phase := .loaded result }
  | storeValue {value : Value} (phase : s.phase = .loaded (.ok value)) :
      Effect .store {
        s with
        active := value
        phase := .stored (.ok value)
        produced := s.produced ++ [.inr (.ok value)] }
  | storeFailure {failure : Failure} (phase : s.phase = .loaded (.error failure)) :
      Effect .store {
        s with
        phase := .stored (.error failure)
        produced := s.produced ++ [.inr (.error failure)] }
  | send {result : Except Failure Value} (phase : s.phase = .stored result) :
      Effect .send {
        s with
        phase := .waiting
        updates := s.updates ++ (reload.report (.inr result)).toList }
  | next {update : Update} {updates : List Update} (reported : s.updates = update :: updates) :
      Effect .next { s with updates, taken := s.taken ++ [update] }

theorem effect_of_step (h : step reload s e = some s') : Effect reload s e s' := by
  cases e with
  | change world =>
    obtain rfl := Option.some.inj h
    exact .change world
  | notify notice =>
    obtain rfl := Option.some.inj h
    exact .notify notice
  | recv =>
    rw [step] at h
    split at h
    · next phase received =>
      obtain rfl := Option.some.inj h
      exact .recvChange phase received
    · next phase received =>
      obtain rfl := Option.some.inj h
      exact .recvError phase received
    · exact nomatch h
  | wake =>
    rw [step] at h
    split at h
    · next phase =>
      obtain rfl := Option.some.inj h
      exact .wake phase
    · exact nomatch h
  | tryRecv =>
    rw [step] at h
    split at h
    · next phase received =>
      obtain rfl := Option.some.inj h
      exact .drainChange phase received
    · next phase received =>
      obtain rfl := Option.some.inj h
      exact .drainError phase received
    · next phase empty =>
      obtain rfl := Option.some.inj h
      exact .drained phase empty
    · exact nomatch h
  | begin =>
    rw [step] at h
    split at h
    · next phase =>
      obtain rfl := Option.some.inj h
      exact .begin phase
    · exact nomatch h
  | read =>
    rw [step] at h
    split at h
    · next reader phase =>
      split at h
      · next look =>
        obtain rfl := Option.some.inj h
        exact .readOn phase look
      · next look =>
        obtain rfl := Option.some.inj h
        exact .readEnd phase look
    · exact nomatch h
  | store =>
    rw [step] at h
    split at h
    · next phase =>
      obtain rfl := Option.some.inj h
      exact .storeValue phase
    · next phase =>
      obtain rfl := Option.some.inj h
      exact .storeFailure phase
    · exact nomatch h
  | send =>
    rw [step] at h
    split at h
    · next phase =>
      obtain rfl := Option.some.inj h
      exact .send phase
    · exact nomatch h
  | next =>
    rw [step] at h
    split at h
    · next reported =>
      obtain rfl := Option.some.inj h
      exact .next reported
    · exact nomatch h

/-! ### No change is missed -/

/-- A place of an element in a history is its end, or a place in what came before. -/
theorem concat_eq_append_cons {α : Type} {es before after : List α} {e x : α}
    (h : es ++ [e] = before ++ x :: after) :
    es = before ∧ e = x ∧ after = [] ∨
      ∃ after', after = after' ++ [e] ∧ es = before ++ x :: after' := by
  rcases List.eq_nil_or_concat after with rfl | ⟨after', last, rfl⟩
  · obtain ⟨rfl, he⟩ := List.append_inj' h rfl
    exact .inl ⟨rfl, List.singleton_inj.1 he, rfl⟩
  · rw [List.concat_eq_append, ← List.cons_append, ← List.append_assoc] at h
    obtain ⟨rfl, he⟩ := List.append_inj' h rfl
    obtain rfl := List.singleton_inj.1 he
    exact .inr ⟨after', List.concat_eq_append, rfl⟩

theorem answered_begin (es : List (Event World Notice)) : Answered (es ++ [.begin]) := by
  intro before after h
  rcases concat_eq_append_cons h with ⟨-, he, -⟩ | ⟨after, rfl, -⟩
  · exact nomatch he
  · exact List.mem_append_right after List.mem_cons_self

theorem Answered.concat {es : List (Event World Notice)} (h : Answered es)
    (he : e ≠ .notify (.ok ())) : Answered (es ++ [e]) := by
  intro before after heq
  rcases concat_eq_append_cons heq with ⟨-, rfl, -⟩ | ⟨after, rfl, hes⟩
  · exact absurd rfl he
  · exact List.mem_append_left [e] (h before after hes)

/-- A reload is going to begin. -/
def Phase.due : Phase Reader Failure Value → Prop
  | sleeping | draining | drained => True
  | _ => False

/-- A change that no reload has answered makes one begin: one is due already, or the change is still
in the queue. -/
def Owed (es : List (Event World Notice))
    (s : State World Reader Notice Failure Value Update) : Prop :=
  s.phase.due ∨ .ok () ∈ s.queue ∨ Answered es

/-- An event that is no notification keeps what is owed, if the task goes on to a reload it was
going to begin and only errors leave the queue. -/
theorem Owed.concat {es : List (Event World Notice)} (h : Owed es s)
    (he : e ≠ .notify (.ok ())) (hdue : s.phase.due → s'.phase.due)
    (hqueue : .ok () ∈ s.queue → .ok () ∈ s'.queue) : Owed (es ++ [e]) s' :=
  h.imp hdue (Or.imp hqueue fun hanswered ↦ hanswered.concat he)

theorem owed_of_effect {es : List (Event World Notice)} (h : Owed es s)
    (heffect : Effect reload s e s') : Owed (es ++ [e]) s' := by
  have hqueue : ∀ {queue : List (Except Notice Unit)} {notice : Notice},
      s.queue = .error notice :: queue → .ok () ∈ s.queue → .ok () ∈ queue := by
    intro queue notice received hmem
    rw [received] at hmem
    exact (List.mem_cons.1 hmem).resolve_left nofun
  cases heffect with
  | change world => exact h.concat nofun id id
  | notify notice =>
    rcases notice with notice | ⟨⟩
    · exact h.concat nofun id fun hmem ↦ List.mem_append_left _ hmem
    · exact .inr (.inl (List.mem_append_right _ List.mem_cons_self))
  | recvChange phase received => exact .inl trivial
  | recvError phase received => exact h.concat nofun id (hqueue received)
  | wake phase => exact .inl trivial
  | drainChange phase received => exact .inl (phase ▸ trivial)
  | drainError phase received => exact h.concat nofun id (hqueue received)
  | drained phase empty => exact .inl trivial
  | begin phase => exact .inr (.inr (answered_begin es))
  | readOn phase look => exact h.concat nofun (fun hdue ↦ (phase ▸ hdue).elim) id
  | readEnd phase look => exact h.concat nofun (fun hdue ↦ (phase ▸ hdue).elim) id
  | storeValue phase => exact h.concat nofun (fun hdue ↦ (phase ▸ hdue).elim) id
  | storeFailure phase => exact h.concat nofun (fun hdue ↦ (phase ▸ hdue).elim) id
  | send phase => exact h.concat nofun (fun hdue ↦ (phase ▸ hdue).elim) id
  | next reported => exact h.concat nofun id id

/-! ### What is active -/

/-- A reload has begun and has stored no new value. -/
def Phase.unstored : Phase Reader Failure Value → Prop
  | reading _ | loaded _ | stored (.error _) => True
  | _ => False

/-- Between the beginning of a reload and a value it stores, what is active stays. -/
theorem active_eq_of_effect (heffect : Effect reload s e s') (hunstored : s'.phase.unstored) :
    s'.active = s.active ∧ (e = .begin ∨ s.phase.unstored) := by
  cases heffect with
  | change world => exact ⟨rfl, .inr hunstored⟩
  | notify notice => exact ⟨rfl, .inr hunstored⟩
  | recvChange phase received => exact hunstored.elim
  | recvError phase received => exact ⟨rfl, .inr hunstored⟩
  | wake phase => exact hunstored.elim
  | drainChange phase received => exact ⟨rfl, .inr hunstored⟩
  | drainError phase received => exact ⟨rfl, .inr hunstored⟩
  | drained phase empty => exact hunstored.elim
  | begin phase => exact ⟨rfl, .inl rfl⟩
  | readOn phase look => exact ⟨rfl, .inr (phase ▸ trivial)⟩
  | readEnd phase look => exact ⟨rfl, .inr (phase ▸ trivial)⟩
  | storeValue phase => exact hunstored.elim
  | storeFailure phase => exact ⟨rfl, .inr (phase ▸ trivial)⟩
  | send phase => exact hunstored.elim
  | next reported => exact ⟨rfl, .inr hunstored⟩

theorem trail_concat (world : World) (es : List (Event World Notice)) (e : Event World Notice) :
    trail reload world (es ++ [e]) = (trail reload world es).step reload e :=
  List.foldl_concat ..

theorem after_concat (looks : List World) (world : World) :
    reload.after (looks ++ [world]) = reload.look (reload.after looks) world :=
  List.foldl_concat ..

theorem lastLoaded_concat (initial : Value) (results : List (Except Failure Value))
    (result : Except Failure Value) : lastLoaded initial (results ++ [result]) =
      result.toOption.getD (lastLoaded initial results) := by
  rw [lastLoaded, List.filterMap_append]
  rcases result with failure | value
  · exact congrArg (·.getLastD initial) (List.append_nil _)
  · exact List.getLastD_concat

variable (reload) in
/-- The task reads and stores what the events tell. -/
structure Follows (initial : Value) (t : Trail World Failure Value)
    (s : State World Reader Notice Failure Value Update) : Prop where
  world : s.world = t.world
  reading : ∀ reader, s.phase = .reading reader → reload.after t.looks = .inl reader
  loaded : ∀ result, s.phase = .loaded result → reload.after t.looks = .inr result
  results : s.produced.filterMap Sum.getRight? = t.results
  active : s.active = lastLoaded initial t.results

theorem follows_of_effect {initial : Value} {t : Trail World Failure Value}
    (h : Follows reload initial t s) (heffect : Effect reload s e s') :
    Follows reload initial (t.step reload e) s' := by
  cases heffect with
  | change world => exact { h with world := rfl }
  | notify notice => exact { h with }
  | recvChange phase received => exact { h with reading := nofun, loaded := nofun }
  | recvError phase received =>
    refine { h with results := ?_ }
    show (s.produced ++ [Sum.inl _]).filterMap Sum.getRight? = _
    rw [List.filterMap_append]
    exact (List.append_nil _).trans h.results
  | wake phase => exact { h with reading := nofun, loaded := nofun }
  | drainChange phase received => exact { h with }
  | drainError phase received =>
    refine { h with results := ?_ }
    show (s.produced ++ [Sum.inl _]).filterMap Sum.getRight? = _
    rw [List.filterMap_append]
    exact (List.append_nil _).trans h.results
  | drained phase empty => exact { h with reading := nofun, loaded := nofun }
  | begin phase =>
    refine { h with reading := fun reader hreader ↦ ?_, loaded := nofun }
    exact congrArg Sum.inl (Phase.reading.inj hreader)
  | readOn phase look =>
    refine { h with reading := fun reader hreader ↦ ?_, loaded := nofun }
    obtain rfl := Phase.reading.inj hreader
    show reload.after (t.looks ++ [t.world]) = _
    rw [after_concat, h.reading _ phase, ← h.world]
    exact look
  | readEnd phase look =>
    refine { h with reading := nofun, loaded := fun result hresult ↦ ?_ }
    obtain rfl := Phase.loaded.inj hresult
    show reload.after (t.looks ++ [t.world]) = _
    rw [after_concat, h.reading _ phase, ← h.world]
    exact look
  | @storeValue value phase =>
    have hresults : (t.step reload .store).results = t.results ++ [.ok value] := by
      rw [Trail.step, h.loaded _ phase]
      rfl
    refine ⟨h.world, nofun, nofun, ?_, ?_⟩
    · rw [hresults, List.filterMap_append, h.results]
      rfl
    · rw [hresults, lastLoaded_concat]
      rfl
  | @storeFailure failure phase =>
    have hresults : (t.step reload .store).results = t.results ++ [.error failure] := by
      rw [Trail.step, h.loaded _ phase]
      rfl
    refine ⟨h.world, nofun, nofun, ?_, ?_⟩
    · rw [hresults, List.filterMap_append, h.results]
      rfl
    · rw [hresults, lastLoaded_concat]
      exact h.active
  | send phase => exact { h with reading := nofun, loaded := nofun }
  | next reported => exact { h with }

/-! ### What is reported -/

theorem errors_notices_concat (es : List (Event World Notice)) (e : Event World Notice) :
    errors (notices (es ++ [e])) = errors (notices es) ++ errors (notices [e]) := by
  rw [notices, List.filterMap_append, errors, List.filterMap_append]
  rfl

/-- Every error that was notified was reported, or is in the queue. -/
def ErrorsKept (es : List (Event World Notice))
    (s : State World Reader Notice Failure Value Update) : Prop :=
  errors (notices es) = s.produced.filterMap Sum.getLeft? ++ errors s.queue

/-- An event that is no notification keeps the errors, if no error leaves the queue unreported. -/
theorem ErrorsKept.concat {es : List (Event World Notice)} (h : ErrorsKept es s)
    (he : notices [e] = [])
    (hkept : s'.produced.filterMap Sum.getLeft? ++ errors s'.queue =
      s.produced.filterMap Sum.getLeft? ++ errors s.queue) : ErrorsKept (es ++ [e]) s' := by
  rw [ErrorsKept, errors_notices_concat, he, hkept]
  exact (List.append_nil _).trans h

theorem errorsKept_of_effect {es : List (Event World Notice)} (h : ErrorsKept es s)
    (heffect : Effect reload s e s') : ErrorsKept (es ++ [e]) s' := by
  have hforward : ∀ {queue : List (Except Notice Unit)} {notice : Notice},
      s.queue = .error notice :: queue →
        (s.produced ++ [Sum.inl notice]).filterMap Sum.getLeft? ++ errors queue =
          s.produced.filterMap Sum.getLeft? ++ errors s.queue := by
    intro queue notice received
    rw [List.filterMap_append, List.append_assoc, received]
    rfl
  -- A change or a result adds no error and takes none away.
  have hchange : ∀ {queue : List (Except Notice Unit)}, s.queue = .ok () :: queue →
      s.produced.filterMap Sum.getLeft? ++ errors queue =
        s.produced.filterMap Sum.getLeft? ++ errors s.queue := by
    intro queue received
    rw [received]
    rfl
  have hresult : ∀ result : Except Failure Value,
      (s.produced ++ [Sum.inr result]).filterMap Sum.getLeft? ++ errors s.queue =
        s.produced.filterMap Sum.getLeft? ++ errors s.queue := by
    intro result
    rw [List.filterMap_append]
    exact congrArg (· ++ errors s.queue) (List.append_nil _)
  cases heffect with
  | change world => exact h.concat rfl rfl
  | notify notice =>
    rw [ErrorsKept, errors_notices_concat, h, List.append_assoc]
    exact congrArg _ (List.filterMap_append ..).symm
  | recvChange phase received => exact h.concat rfl (hchange received)
  | recvError phase received => exact h.concat rfl (hforward received)
  | wake phase => exact h.concat rfl rfl
  | drainChange phase received => exact h.concat rfl (hchange received)
  | drainError phase received => exact h.concat rfl (hforward received)
  | drained phase empty => exact h.concat rfl rfl
  | begin phase => exact h.concat rfl rfl
  | readOn phase look => exact h.concat rfl rfl
  | readEnd phase look => exact h.concat rfl rfl
  | storeValue phase => exact h.concat rfl (hresult _)
  | storeFailure phase => exact h.concat rfl (hresult _)
  | send phase => exact h.concat rfl rfl
  | next reported => exact h.concat rfl rfl

/-- The reports in their order: those taken, those not taken, and the one that is still to be
made. -/
def State.reports (reload : Reload World Reader Notice Failure Value Update)
    (s : State World Reader Notice Failure Value Update) : List Update :=
  s.taken ++ s.updates ++ s.phase.pending reload

theorem State.reports_eq {phase : Phase Reader Failure Value} (h : s.phase = phase)
    (hpending : phase.pending reload = []) : s.reports reload = s.taken ++ s.updates := by
  rw [State.reports, h, hpending, List.append_nil]

/-- What there is to report grows, and the reports grow by as much. -/
theorem reports_of_effect (heffect : Effect reload s e s') :
    ∃ added, s'.produced = s.produced ++ added ∧
      s'.reports reload = s.reports reload ++ added.filterMap reload.report := by
  have hstay : ∀ {s'' : State World Reader Notice Failure Value Update},
      s''.produced = s.produced → s''.reports reload = s.reports reload →
        ∃ added, s''.produced = s.produced ++ added ∧
          s''.reports reload = s.reports reload ++ added.filterMap reload.report :=
    fun hproduced hreports ↦ ⟨[], by rw [hproduced, List.append_nil],
      by rw [hreports, List.filterMap_nil, List.append_nil]⟩
  -- An error is reported at once, whatever the state of the reload.
  have hforward : ∀ {queue : List (Except Notice Unit)} {notice : Notice},
      s.phase.pending reload = [] → ({ s with queue }.forward reload notice).reports reload =
        s.reports reload ++ [Sum.inl notice].filterMap reload.report := by
    intro queue notice hpending
    have hbefore : s.reports reload = s.taken ++ s.updates := State.reports_eq rfl hpending
    rw [hbefore, List.append_assoc]
    exact State.reports_eq rfl hpending
  cases heffect with
  | change world => exact hstay rfl rfl
  | notify notice => exact hstay rfl rfl
  | recvChange phase received =>
    exact hstay rfl ((State.reports_eq rfl rfl).trans (State.reports_eq phase rfl).symm)
  | recvError phase received => exact ⟨_, rfl, hforward (phase ▸ rfl)⟩
  | wake phase =>
    exact hstay rfl ((State.reports_eq rfl rfl).trans (State.reports_eq phase rfl).symm)
  | drainChange phase received => exact hstay rfl rfl
  | drainError phase received => exact ⟨_, rfl, hforward (phase ▸ rfl)⟩
  | drained phase empty =>
    exact hstay rfl ((State.reports_eq rfl rfl).trans (State.reports_eq phase rfl).symm)
  | begin phase =>
    exact hstay rfl ((State.reports_eq rfl rfl).trans (State.reports_eq phase rfl).symm)
  | readOn phase look =>
    exact hstay rfl ((State.reports_eq rfl rfl).trans (State.reports_eq phase rfl).symm)
  | readEnd phase look =>
    exact hstay rfl ((State.reports_eq rfl rfl).trans (State.reports_eq phase rfl).symm)
  | storeValue phase => exact ⟨_, rfl, State.reports_eq phase rfl ▸ rfl⟩
  | storeFailure phase => exact ⟨_, rfl, State.reports_eq phase rfl ▸ rfl⟩
  | send phase =>
    refine hstay rfl ?_
    rw [State.reports_eq rfl rfl, State.reports, phase, List.append_assoc]
    rfl
  | next reported =>
    refine hstay rfl ?_
    rw [State.reports, State.reports, reported]
    simp only [List.append_assoc, List.cons_append, List.nil_append]

/-! ### Runs -/

variable {world : World} {initial : Value} {es : List (Event World Notice)}

theorem follows_of_run (h : (system reload world initial).run es = some s) :
    Follows reload initial (trail reload world es) s := by
  have hinit : Follows reload initial (trail reload world []) (system reload world initial).init :=
    ⟨rfl, nofun, nofun, rfl, rfl⟩
  refine Transition.run_induction (P := fun es s ↦ Follows reload initial (trail reload world es) s)
    hinit (fun es s e s' _ ih hstep ↦ ?_) h
  rw [trail_concat]
  exact follows_of_effect ih (effect_of_step hstep)

variable (reload world initial) in
/-- What is active is what was active when the reload began. -/
def ActiveKept (es : List (Event World Notice))
    (s : State World Reader Notice Failure Value Update) : Prop :=
  ∀ before during s₀, es = before ++ .begin :: during → .begin ∉ during →
    (system reload world initial).run before = some s₀ → s.active = s₀.active

/-- A reload keeps what is active until it stores a value. -/
theorem activeKept_of_run (h : (system reload world initial).run es = some s) :
    s.phase.unstored → ActiveKept reload world initial es s := by
  refine Transition.run_induction
    (P := fun es s ↦ s.phase.unstored → ActiveKept reload world initial es s)
    (fun hunstored ↦ hunstored.elim)
    (fun es s e s' hrun ih hstep hunstored before during s₀ hes hduring hbefore ↦ ?_) h
  obtain ⟨hactive, hcontinues⟩ := active_eq_of_effect (effect_of_step hstep) hunstored
  rcases concat_eq_append_cons hes with ⟨rfl, -, -⟩ | ⟨during, rfl, hprevious⟩
  · rw [hactive, Option.some.inj (hrun.symm.trans hbefore)]
  · rw [List.mem_append, not_or] at hduring
    have hunstored : s.phase.unstored :=
      hcontinues.resolve_left fun he ↦ hduring.2 (he ▸ List.mem_cons_self)
    rw [hactive]
    exact ih hunstored before during s₀ hprevious hduring.1 hbefore

/-- **No change is missed**, and what is active is what was loaded last. Draining the queue is
harmless because it is done before the first look of the reload, not after it. -/
theorem upToDate_of_run (h : (system reload world initial).run es = some s) :
    UpToDate reload world initial es s where
  answered hphase hqueue := by
    have howed : Owed es s := by
      refine Transition.run_induction (P := Owed) (.inr (.inr ?_))
        (fun _ _ _ _ _ ih hstep ↦ owed_of_effect ih (effect_of_step hstep)) h
      exact fun before after hes ↦ absurd hes.symm (by simp)
    rcases howed with hdue | hmem | hanswered
    · exact (hphase ▸ hdue : Phase.due .waiting).elim
    · exact absurd (hqueue ▸ hmem) List.not_mem_nil
    · exact hanswered
  failed failure hphase := activeKept_of_run h (hphase ▸ trivial)
  active := (follows_of_run h).active

/-- **Every error and every result is reported, in order and once.** What was reported and what is
still to be reported are together what came up so far, at every moment of a run. -/
theorem reported_of_run (h : (system reload world initial).run es = some s) :
    Reported reload world es s where
  errors := by
    have hinit : ErrorsKept [] (system reload world initial).init := rfl
    exact Transition.run_induction hinit
      (fun _ _ _ _ _ ih hstep ↦ errorsKept_of_effect ih (effect_of_step hstep)) h
  results := (follows_of_run h).results
  reports := by
    refine Transition.run_induction
      (P := fun _ s ↦ s.reports reload = s.produced.filterMap reload.report) rfl
      (fun _ s _ s' _ ih hstep ↦ ?_) h
    obtain ⟨added, hproduced, hreports⟩ := reports_of_effect (effect_of_step hstep)
    rw [hproduced, hreports, List.filterMap_append, ih]

/-! ### A world that stays -/

theorem after_append_of_eq_inr {looks : List World} {result : Except Failure Value}
    (h : reload.after looks = .inr result) (more : List World) :
    reload.after (looks ++ more) = .inr result := by
  rw [Reload.after, List.foldl_append]
  exact (congrArg (more.foldl reload.look) h).trans (reload.foldl_look_inr more result)

/-- However often a task looks at one world, it loads the same. -/
theorem eq_of_after_replicate {m n : ℕ} {result result' : Except Failure Value}
    (h : reload.after (List.replicate m world) = .inr result)
    (h' : reload.after (List.replicate n world) = .inr result') : result = result' := by
  have hmore : reload.after (List.replicate (m + n) world) = .inr result := by
    rw [← List.replicate_append_replicate]
    exact after_append_of_eq_inr h _
  have hmore' : reload.after (List.replicate (m + n) world) = .inr result' := by
    rw [Nat.add_comm, ← List.replicate_append_replicate]
    exact after_append_of_eq_inr h' _
  exact Sum.inr.inj (hmore.symm.trans hmore')

variable (reload world) in
/-- While the world stays, a reload looks at one world. -/
theorem looks_eq_replicate {before during : List (Event World Notice)} (hbegin : .begin ∉ during)
    (hstays : ∀ world', .change world' ∉ during) :
    ∃ n, (trail reload world (before ++ .begin :: during)).looks =
      List.replicate n (trail reload world (before ++ .begin :: during)).world := by
  induction during using List.reverseRecOn with
  | nil =>
    rw [trail_concat]
    exact ⟨0, rfl⟩
  | append_singleton during e ih =>
    have hmem : ∀ {e'}, e' ∉ during ++ [e] → e' ∉ during :=
      fun hnot hin ↦ hnot (List.mem_append_left _ hin)
    obtain ⟨n, hlooks⟩ := ih (hmem hbegin) fun world' ↦ hmem (hstays world')
    rw [← List.cons_append, ← List.append_assoc, trail_concat]
    cases e with
    | change world' => exact absurd (List.mem_append_right _ List.mem_cons_self) (hstays world')
    | begin => exact absurd (List.mem_append_right _ List.mem_cons_self) hbegin
    | read =>
      refine ⟨n + 1, ?_⟩
      rw [List.replicate_succ']
      exact congrArg (· ++ [_]) hlooks
    | notify | recv | wake | tryRecv | store | send | next => exact ⟨n, hlooks⟩

/-- **A reload during which the world stays loads what that world has**, where `n` looks at one
world are enough to load it. -/
theorem loadsAnew_of_run {es : List (Event World Notice)} {load : World → Except Failure Value}
    {n : ℕ} (hload : ∀ world, reload.after (List.replicate n world) = .inr (load world))
    (h : (system reload world initial).run es = some s) : LoadsAnew load es s := by
  rintro before during result rfl hphase hbegin hstays
  have hfollows := follows_of_run h
  obtain ⟨m, hlooks⟩ := looks_eq_replicate reload world hbegin hstays
  have hloaded := hfollows.loaded result hphase
  rw [hlooks, ← hfollows.world] at hloaded
  exact eq_of_after_replicate hloaded (hload s.world)

end Debounce
