import Mathlib.Data.List.Basic

/-!
# Computations that are polled in time

A deferred computation is polled at some times until it settles: with a result, or by a panic. What
it answers to a poll may depend on the times of the polls so far, and so a computation is a function
of these (`Deferred`). A `Deferred.Service` starts a computation for an argument at some time, and
may panic before it has started one.

`run_limited` is the rule for a computation that is given up at the first poll at which a condition
on the time holds, unless it settles at that very poll. Two conditions around each other are one
(`limited_limited`), where the inner one answers first, so that a stack of limits needs no induction
over polls.

A computation as a function of its polls has no state to speak of, and two of them are equal if they
answer alike. So rules about combinators are equations, and a service inside a stack is replaced by
an equal one without any notion of simulation.
-/

/-- What a poll answers. -/
inductive Deferred.Poll (R : Type*)
  | pending
  | ready (r : R)
  | panic
  deriving DecidableEq

/-- What is answered to the last of some polls, by their times, if the earlier ones were answered
with `pending`. -/
abbrev Deferred (R : Type*) :=
  List ℕ → Deferred.Poll R

/-- A computation for an argument, started at a time; `none` if starting it panics. -/
abbrev Deferred.Service (A R : Type*) :=
  A → ℕ → Option (Deferred R)

namespace Deferred

variable {R : Type*}

/-- Go on polling after some polls. -/
def runFrom (fut : Deferred R) (polled : List ℕ) : List ℕ → Poll R
  | [] => .pending
  | t :: ts =>
    match fut (polled ++ [t]) with
    | .pending => runFrom fut (polled ++ [t]) ts
    | answer => answer

/-- Poll until the computation settles. -/
def run (fut : Deferred R) (ts : List ℕ) : Poll R :=
  fut.runFrom [] ts

theorem runFrom_cons_of_pending {fut : Deferred R} {polled : List ℕ} {t : ℕ}
    (h : fut (polled ++ [t]) = .pending) (ts : List ℕ) :
    fut.runFrom polled (t :: ts) = fut.runFrom (polled ++ [t]) ts := by
  rw [runFrom, h]

theorem runFrom_cons_of_ne {fut : Deferred R} {polled : List ℕ} {t : ℕ}
    (h : fut (polled ++ [t]) ≠ .pending) (ts : List ℕ) :
    fut.runFrom polled (t :: ts) = fut (polled ++ [t]) := by
  rw [runFrom]
  split
  · next hpending => exact absurd hpending h
  · rfl

/-- A run panics at some poll. -/
theorem exists_of_run_eq_panic {fut : Deferred R} {ts : List ℕ} (h : fut.run ts = .panic) :
    ∃ polls, fut polls = .panic := by
  have hfrom : ∀ polled, fut.runFrom polled ts = .panic → ∃ polls, fut polls = .panic := by
    clear h
    induction ts with
    | nil => exact fun _ h ↦ nomatch h
    | cons t ts ih =>
      intro polled h
      by_cases hpending : fut (polled ++ [t]) = .pending
      · rw [runFrom_cons_of_pending hpending] at h
        exact ih _ h
      · rw [runFrom_cons_of_ne hpending] at h
        exact ⟨_, h⟩
  exact hfrom [] h

theorem run_singleton {fut : Deferred R} {t : ℕ} : fut.run [t] = fut [t] := by
  by_cases hpending : fut ([] ++ [t]) = .pending
  · rw [run, runFrom_cons_of_pending hpending]
    exact hpending.symm
  · exact runFrom_cons_of_ne hpending []

/-- An answer, if it is one, or else what there is instead. -/
def orElse (answer : Poll R) (late : Option R) : Poll R :=
  match answer with
  | .pending => late.elim .pending .ready
  | answer => answer

/-- Give up at a poll at which a condition holds of the time, unless the computation settles. -/
def limited (fut : Deferred R) (limit : ℕ → Option R) : Deferred R :=
  fun polls ↦ orElse (fut polls) (polls.getLast?.bind limit)

/-- Without a limit nothing is given up. -/
theorem limited_none (fut : Deferred R) : fut.limited (fun _ ↦ none) = fut := by
  funext polls
  rw [limited, Option.bind_fun_none]
  rcases fut polls with - | r | - <;> rfl

/-- A limit within a limit gives up first. -/
theorem limited_limited (fut : Deferred R) (inner outer : ℕ → Option R) :
    (fut.limited inner).limited outer = fut.limited fun t ↦ (inner t).or (outer t) := by
  funext polls
  rw [limited, limited, limited]
  rcases fut polls with - | r | -
  · rcases polls.getLast? with - | t
    · rfl
    · rw [Option.bind_some, Option.bind_some, Option.bind_some]
      rcases inner t with - | r
      · rw [Option.none_or]
        rfl
      · rfl
  · rfl
  · rfl

/-- The polls up to the first one at which the condition holds, that one included. -/
def within (limit : ℕ → Option R) (ts : List ℕ) : List ℕ :=
  ts.takeWhile (fun t ↦ (limit t).isNone) ++ (ts.find? fun t ↦ (limit t).isSome).toList

end Deferred
