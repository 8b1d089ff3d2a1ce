import Mathlib.Data.List.Induction

/-!
# Transition systems

A system starts in a state, and an event takes it from one state to the next; an event that is not
possible in a state leads nowhere. A run is a list of events. What is said about a run may look at
its history, that is at the events so far, as well as at the state.

Two rules carry everything that is proved about runs:

* `run_induction`: what holds at the start and is kept by every event holds after every run;
* `throughout_iff_each`: if an event keeps a property exactly when it meets a condition, a run has
  the property throughout exactly when each of its events meets the condition.

The second is the form in which a system that breaks its promise is described. The condition is one
on an event and the state it finds, so it can be checked before the event happens, and the
equivalence says that nothing else goes wrong. An invariant that is needed for it is had by the
first rule and may be assumed at every event.

A run grows at its end. Histories are lists with the last event last, so one more event is an
append, and the lemmas about a property of histories are about `h ++ [e]` throughout.
-/

/-- A system: its first state, and where an event leads from a state. -/
structure Transition (σ ε : Type*) where
  init : σ
  step : σ → ε → Option σ

namespace Transition

variable {σ ε : Type*} (m : Transition σ ε)

/-- The state after a list of events, each of them possible. -/
def run (es : List ε) : Option σ :=
  es.foldlM m.step m.init

variable {m}

/-- The last event acts on the state the others led to. -/
theorem run_concat_eq_some_iff {es : List ε} {e : ε} {s' : σ} :
    m.run (es ++ [e]) = some s' ↔ ∃ s, m.run es = some s ∧ m.step s e = some s' := by
  rw [run, List.foldlM_append, run]
  show (es.foldlM m.step m.init).bind (fun s ↦ (m.step s e).bind some) = some s' ↔ _
  simp only [Option.bind_eq_some_iff, Option.some.injEq, exists_eq_right]

/-- **What the start satisfies and every event keeps holds after every run.** The step may use the
history it extends, so a property can compare the state with what has happened. -/
theorem run_induction {P : List ε → σ → Prop} (init : P [] m.init)
    (step : ∀ es s e s', m.run es = some s → P es s → m.step s e = some s' → P (es ++ [e]) s')
    {es : List ε} {s : σ} (h : m.run es = some s) : P es s := by
  induction es using List.reverseRecOn generalizing s with
  | nil =>
    obtain rfl := Option.some.inj h
    exact init
  | append_singleton es e ih =>
    obtain ⟨s₀, hs₀, hstep⟩ := run_concat_eq_some_iff.1 h
    exact step es s₀ e s hs₀ (ih hs₀) hstep

variable (m) in
/-- A property of history and state holds in every state the run goes through. -/
def Throughout (P : List ε → σ → Prop) (es : List ε) : Prop :=
  ∀ p s, p <+: es → m.run p = some s → P p s

variable (m) in
/-- Each event of the run meets a condition on the history and the state in which it happens. -/
def Each (C : List ε → σ → ε → Prop) (es : List ε) : Prop :=
  ∀ p e s, p ++ [e] <+: es → m.run p = some s → C p s e

theorem throughout_nil {P : List ε → σ → Prop} (init : P [] m.init) : m.Throughout P [] := by
  intro p s hp hs
  obtain rfl := List.prefix_nil.1 hp
  obtain rfl := Option.some.inj hs
  exact init

theorem throughout_concat_iff {P : List ε → σ → Prop} {es : List ε} {e : ε} {s' : σ}
    (h : m.run (es ++ [e]) = some s') :
    m.Throughout P (es ++ [e]) ↔ m.Throughout P es ∧ P (es ++ [e]) s' := by
  refine ⟨fun hP ↦ ⟨fun p s hp hs ↦ hP p s (hp.trans (List.prefix_append _ _)) hs,
    hP _ s' List.prefix_rfl h⟩, fun ⟨hP, hlast⟩ p s hp hs ↦ ?_⟩
  rcases List.prefix_concat_iff.1 hp with rfl | hp
  · obtain rfl := Option.some.inj (h.symm.trans hs)
    exact hlast
  · exact hP p s hp hs

theorem each_nil {C : List ε → σ → ε → Prop} : m.Each C [] :=
  fun _ _ _ hp ↦ absurd hp (by simp)

/-- One event more, if it meets the condition wherever it is possible. -/
theorem Each.concat {C : List ε → σ → ε → Prop} {es : List ε} {e : ε} (hes : m.Each C es)
    (h : ∀ s, m.run es = some s → C es s e) : m.Each C (es ++ [e]) := by
  intro p e' s hp hs
  rcases List.prefix_concat_iff.1 hp with heq | hp
  · obtain ⟨rfl, rfl⟩ := List.concat_inj.1 (by simpa using heq)
    exact h s hs
  · exact hes p e' s hp hs

theorem each_concat_iff {C : List ε → σ → ε → Prop} {es : List ε} {e : ε} {s : σ}
    (h : m.run es = some s) : m.Each C (es ++ [e]) ↔ m.Each C es ∧ C es s e := by
  refine ⟨fun hC ↦ ⟨fun p e' s' hp hs ↦ hC p e' s' (hp.trans (List.prefix_append _ _)) hs,
    hC es e s List.prefix_rfl h⟩, fun ⟨hC, hlast⟩ ↦ hC.concat fun s' hs ↦ ?_⟩
  obtain rfl := Option.some.inj (h.symm.trans hs)
  exact hlast

/-- **A run has a property throughout exactly when each event meets the condition** under which
it keeps the property. -/
theorem throughout_iff_each {P : List ε → σ → Prop} {C : List ε → σ → ε → Prop}
    (init : P [] m.init)
    (step : ∀ es s e s', m.run es = some s → P es s → m.step s e = some s' →
      (P (es ++ [e]) s' ↔ C es s e)) {es : List ε} {s : σ} (h : m.run es = some s) :
    m.Throughout P es ↔ m.Each C es := by
  induction es using List.reverseRecOn generalizing s with
  | nil => exact iff_of_true (throughout_nil init) each_nil
  | append_singleton es e ih =>
    obtain ⟨s₀, hs₀, hstep⟩ := run_concat_eq_some_iff.1 h
    rw [throughout_concat_iff h, each_concat_iff hs₀, ← ih hs₀]
    exact and_congr_right fun hP ↦ step es s₀ e s hs₀ (hP es s₀ List.prefix_rfl hs₀) hstep

end Transition
