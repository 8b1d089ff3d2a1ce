import Mathlib.Data.Sum.Basic
import Mathlib.Data.List.Basic

/-!
# Tasks driven by events

A task is a step function on unfinished states: an event either leads to another unfinished state or
finishes the task with a result. A finished task ignores every further event, which is what makes a
run of events a fold, and lets a run be extended at its end without asking whether the task is still
there (`run_concat`).

`interruptible` is the one combinator needed around a task: an extra event that ends it from the
outside, if armed. A timeout is an interruption by its timer; an abort is one by its owner. The
events of the outside are a type of their own around those of the task, so what is proved about a
task holds of it inside as well, and the two are kept apart by their types.
-/

/-- A task: what an event does in an unfinished state. -/
structure Machine (ε σ ο : Type*) where
  step : σ → ε → σ ⊕ ο

namespace Machine

variable {ε σ ο : Type*} (m : Machine ε σ ο)

/-- One event. -/
def next : σ ⊕ ο → ε → σ ⊕ ο
  | .inl s, e => m.step s e
  | .inr r, _ => .inr r

/-- A run of events. -/
def run (x : σ ⊕ ο) (es : List ε) : σ ⊕ ο :=
  es.foldl m.next x

/-- The last event of a run acts on the state the earlier ones led to. -/
theorem run_concat (x : σ ⊕ ο) (es : List ε) (e : ε) :
    m.run x (es ++ [e]) = m.next (m.run x es) e :=
  List.foldl_concat _ _ _ _

/-- The task that an extra event ends from the outside, if armed. Unarmed, the event is ignored. -/
def interruptible (armed : Bool) : Machine (Option ε) σ (Option ο) where
  step s
    | some e => (m.step s e).map id some
    | none => if armed then .inr none else .inl s

end Machine
