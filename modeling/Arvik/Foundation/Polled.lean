import Mathlib.Data.List.Basic

/-!
# Sources that are polled

A source answers polls: every poll yields an item or reports the end, and moves the source on. What
a reader meets is a function of the number of polls (`Polled.answer`), and a reader who takes
everything polls until the end (`Polled.drain`).

`Polled.Follows` is the one fact a client proves about a single poll: there is a queue of items
still to come, a poll yields its head and leaves its tail. From it the answer to every poll and the
result of a draining reader are read off the queue of the state the reader started from.

The state of a source may be anything, layers of wrappers with counters included; the queue is a
function of it, and a wrapper that keeps the queue of what it wraps is invisible to a reader. A
source that never ends has no queue that is a list, and the bound on polls that draining takes is
then its whole specification.
-/

/-- A source: what a poll answers, and the state it leaves. -/
structure Polled (σ α : Type*) where
  poll : σ → Option α × σ

namespace Polled

variable {σ α : Type*} (m : Polled σ α)

/-- The state after a number of polls. -/
def after : ℕ → σ → σ
  | 0, s => s
  | n + 1, s => after n (m.poll s).2

/-- The answer to the poll made after `n` polls. -/
def answer (n : ℕ) (s : σ) : Option α :=
  (m.poll (m.after n s)).1

/-- Poll until the end and keep the items; `none` if the end is not met within `fuel` polls. -/
def drain : ℕ → σ → Option (List α)
  | 0, _ => none
  | fuel + 1, s =>
    match m.poll s with
    | (none, _) => some []
    | (some a, s') => (drain fuel s').map (a :: ·)

/-- What every poll preserves holds after any number of polls. -/
theorem after_induction {P : σ → Prop} (hpoll : ∀ s, P s → P (m.poll s).2) {s : σ} (hs : P s)
    (n : ℕ) : P (m.after n s) := by
  induction n generalizing s with
  | zero => exact hs
  | succ n ih => exact ih (hpoll s hs)

/-! ### Sources that follow a queue -/

/-- A poll yields the head of the queue and leaves its tail. -/
structure Follows (queue : σ → List α) : Prop where
  head : ∀ s, (m.poll s).1 = (queue s).head?
  tail : ∀ s, queue (m.poll s).2 = (queue s).tail

namespace Follows

variable {m} {queue : σ → List α} (h : m.Follows queue)

include h

/-- What is still to come after some polls. -/
theorem queue_after (n : ℕ) (s : σ) : queue (m.after n s) = (queue s).drop n := by
  induction n generalizing s with
  | zero => rfl
  | succ n ih =>
    show queue (m.after n (m.poll s).2) = _
    rw [ih, h.tail, List.drop_tail]

/-- **The answers are the items of the queue in order**, and then the end. By induction on the
number of polls, each of which takes the head of the queue. -/
theorem answer_eq (n : ℕ) (s : σ) : m.answer n s = (queue s)[n]? := by
  rw [answer, h.head, h.queue_after, List.head?_drop]

/-- **A reader who drains a source gets its queue**, and meets the end. -/
theorem drain_eq {fuel : ℕ} {s : σ} (hfuel : (queue s).length < fuel) :
    m.drain fuel s = some (queue s) := by
  induction fuel generalizing s with
  | zero => exact absurd hfuel (Nat.not_lt_zero _)
  | succ fuel ih =>
    have hhead := h.head s
    have htail := h.tail s
    rw [drain]
    rcases hpoll : m.poll s with ⟨answer, s'⟩
    rw [hpoll] at hhead htail
    rcases hqueue : queue s with - | ⟨a, rest⟩
    · rw [hqueue] at hhead
      obtain rfl : answer = none := hhead
      rfl
    · rw [hqueue] at hhead htail hfuel
      obtain rfl : answer = some a := hhead
      have hrest : queue s' = rest := htail
      show (m.drain fuel s').map (a :: ·) = _
      rw [ih (by rw [hrest]; exact Nat.lt_of_succ_lt_succ hfuel), hrest]
      rfl

end Follows

end Polled
