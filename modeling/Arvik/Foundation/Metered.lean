import Mathlib.Algebra.Order.Field.Basic
import Mathlib.Data.List.Pairwise
import Mathlib.Tactic.Linarith
import Mathlib.Tactic.Ring

/-!
# Metered runs

The budget argument behind a token bucket, for any state machine whose calls carry a time. A state
has a *level* at every time from its own on; the level refills at a constant rate up to a cap
(`refill`), and every call pays for what it spends out of the level at its time (`Meter.step`).

Nothing is said about how a state holds its level. In particular the level may refill early, as long
as no call ends with more than it started from: that is the one obligation a machine which drops or
recreates its buckets has to meet. It is asked only of calls satisfying `Ok`, so a machine that
meets it on some runs gets the bound on those.

`Meter.spentIn_le` is the result: over any interval of length `d`, a run spends at most `cap + rate
* d`. The level at the first call of the interval is at most the cap, what is refilled until the
last one is at most `rate * d`, and the level is never negative. The induction is on the calls, with
the level at the time of the next call in place of the budget that is left (`spentIn_le_level`),
which is monotone in the level, so that an early refill can only make the bound loose.
-/

variable {𝕜 : Type*} [Field 𝕜] [LinearOrder 𝕜] [IsStrictOrderedRing 𝕜]

/-- A level after some time: refilled at a rate, up to a cap. -/
def refill (cap rate level dt : 𝕜) : 𝕜 :=
  min cap (level + rate * dt)

section Refill

variable {cap rate : 𝕜}

omit [IsStrictOrderedRing 𝕜] in
theorem refill_le_add (level dt : 𝕜) : refill cap rate level dt ≤ level + rate * dt :=
  min_le_right _ _

theorem refill_mono {level level' : 𝕜} (h : level ≤ level') (dt : 𝕜) :
    refill cap rate level dt ≤ refill cap rate level' dt :=
  min_le_min_left _ (by linarith)

omit [IsStrictOrderedRing 𝕜] in
theorem refill_zero {level : 𝕜} (h : level ≤ cap) : refill cap rate level 0 = level := by
  rw [refill, mul_zero, add_zero, min_eq_right h]

/-- A full level stays full. -/
theorem refill_cap {dt : 𝕜} (h : 0 ≤ rate * dt) : refill cap rate cap dt = cap :=
  min_eq_left (le_add_of_nonneg_right h)

/-- Refilling twice is refilling for the total time. -/
theorem refill_refill (hrate : 0 ≤ rate) (level : 𝕜) {s t : 𝕜} (ht : 0 ≤ t) :
    refill cap rate (refill cap rate level s) t = refill cap rate level (s + t) := by
  have hcap : cap ≤ cap + rate * t := le_add_of_nonneg_right (mul_nonneg hrate ht)
  calc min cap (min cap (level + rate * s) + rate * t)
      = min cap (min (cap + rate * t) (level + rate * s + rate * t)) := by
        rw [min_add_add_right]
    _ = min cap (level + rate * s + rate * t) := by rw [← min_assoc, min_eq_left hcap]
    _ = min cap (level + rate * (s + t)) := by rw [mul_add, add_assoc]

end Refill

/-- A metered machine: states, timed calls and what a call spends, together with the level that
pays for it. -/
structure Meter (𝕜 S C : Type*) [Field 𝕜] [LinearOrder 𝕜] where
  cap : 𝕜
  rate : 𝕜
  next : S → C → S
  time : C → 𝕜
  /-- What a call spends in a state. -/
  spent : S → C → 𝕜
  /-- The level of a state at a time. -/
  level : S → 𝕜 → 𝕜
  /-- The states that occur by a time. -/
  Inv : S → 𝕜 → Prop
  /-- The calls that are paid for. -/
  Ok : S → C → Prop
  rate_nonneg : 0 ≤ rate
  spent_nonneg : ∀ s c, 0 ≤ spent s c
  level_nonneg : ∀ s t, Inv s t → 0 ≤ level s t
  level_le_cap : ∀ s t, level s t ≤ cap
  level_refill : ∀ s {t t'}, Inv s t → t ≤ t' → level s t' = refill cap rate (level s t) (t' - t)
  step : ∀ s c {t}, Inv s t → t ≤ time c → Ok s c →
    Inv (next s c) (time c) ∧ level (next s c) (time c) + spent s c ≤ level s (time c)

namespace Meter

variable {S C : Type*} (m : Meter 𝕜 S C)

/-- What a run spends in the calls from `lo` to `hi`. -/
def spentIn (lo hi : 𝕜) : S → List C → 𝕜
  | _, [] => 0
  | s, c :: cs =>
    (if lo ≤ m.time c ∧ m.time c ≤ hi then m.spent s c else 0) + spentIn lo hi (m.next s c) cs

/-- Every call of a run is paid for. -/
def AllOk : S → List C → Prop
  | _, [] => True
  | s, c :: cs => m.Ok s c ∧ AllOk (m.next s c) cs

/-! ### The level between calls -/

section Level

variable {s s' : S} {t u v : 𝕜}

theorem level_nonneg_of_le (hinv : m.Inv s t) (h : t ≤ u) : 0 ≤ m.level s u := by
  have hlevel := m.level_nonneg s t hinv
  rw [m.level_refill s hinv h]
  refine le_min (hlevel.trans (m.level_le_cap s t)) ?_
  exact add_nonneg hlevel (mul_nonneg m.rate_nonneg (sub_nonneg.2 h))

/-- Levels refill at the rate, from any time on. -/
theorem level_eq_refill (hinv : m.Inv s t) (htu : t ≤ u) (huv : u ≤ v) :
    m.level s v = refill m.cap m.rate (m.level s u) (v - u) := by
  rw [m.level_refill s hinv (htu.trans huv), m.level_refill s hinv htu,
    refill_refill m.rate_nonneg _ (sub_nonneg.2 huv)]
  congr 1
  ring

theorem level_le_add (hinv : m.Inv s t) (htu : t ≤ u) (huv : u ≤ v) :
    m.level s v ≤ m.level s u + m.rate * (v - u) :=
  (m.level_eq_refill hinv htu huv).le.trans (refill_le_add _ _)

/-- A state below another at some time stays below it. -/
theorem level_le_level (hinv : m.Inv s t) (hinv' : m.Inv s' u) (htu : t ≤ u) (huv : u ≤ v)
    (h : m.level s' u ≤ m.level s u) : m.level s' v ≤ m.level s v := by
  rw [m.level_eq_refill hinv htu huv, m.level_refill s' hinv' huv]
  exact refill_mono h _

end Level

/-! ### The bound -/

omit [IsStrictOrderedRing 𝕜] in
/-- Calls after the interval do not count. -/
theorem spentIn_eq_zero {lo hi : 𝕜} (s : S) {cs : List C} (h : ∀ c ∈ cs, hi < m.time c) :
    m.spentIn lo hi s cs = 0 := by
  induction cs generalizing s with
  | nil => rfl
  | cons c cs ih =>
    obtain ⟨hc, hcs⟩ := List.forall_mem_cons.1 h
    rw [spentIn, if_neg fun h ↦ not_lt.2 h.2 hc, ih _ hcs, add_zero]

/-- A run from a time on spends, up to `hi`, no more than the level at the start of the interval
and its refill until `hi`. -/
theorem spentIn_le_level {lo hi t : 𝕜} {s : S} {cs : List C} (hinv : m.Inv s t)
    (hsorted : cs.Pairwise fun c d ↦ m.time c ≤ m.time d) (hlate : ∀ c ∈ cs, t ≤ m.time c)
    (hok : m.AllOk s cs) (hstart : max t lo ≤ hi) :
    m.spentIn lo hi s cs ≤ m.level s (max t lo) + m.rate * (hi - max t lo) := by
  have hbudget : ∀ {s : S} {t : 𝕜}, m.Inv s t → max t lo ≤ hi →
      0 ≤ m.level s (max t lo) + m.rate * (hi - max t lo) := fun hinv hstart ↦
    add_nonneg (m.level_nonneg_of_le hinv (le_max_left _ _))
      (mul_nonneg m.rate_nonneg (sub_nonneg.2 hstart))
  induction cs generalizing s t with
  | nil => exact hbudget hinv hstart
  | cons c cs ih =>
    obtain ⟨hc, hcs⟩ := List.pairwise_cons.1 hsorted
    obtain ⟨hokc, hokcs⟩ := hok
    have htc : t ≤ m.time c := hlate c List.mem_cons_self
    obtain ⟨hinv', hpay⟩ := m.step s c hinv htc hokc
    have hspent := m.spent_nonneg s c
    rcases lt_or_ge hi (m.time c) with hpast | hin
    · -- The interval is over: neither this call nor a later one counts.
      rw [m.spentIn_eq_zero s (List.forall_mem_cons.2 ⟨hpast, fun d hd ↦ hpast.trans_le (hc d hd)⟩)]
      exact hbudget hinv hstart
    · have hrest := ih hinv' hcs hc hokcs (max_le hin ((le_max_right _ _).trans hstart))
      rw [spentIn]
      rcases lt_or_ge (m.time c) lo with hbefore | hfrom
      · -- Before the interval: the call can only lower the level at its start.
        rw [if_neg fun h ↦ not_lt.2 h.1 hbefore, zero_add]
        rw [max_eq_right hbefore.le] at hrest
        rw [max_eq_right (htc.trans hbefore.le)]
        have hlower := m.level_le_level hinv hinv' htc hbefore.le (by linarith)
        linarith
      · -- Inside the interval: the call is paid for out of the level at its time.
        rw [if_pos ⟨hfrom, hin⟩]
        rw [max_eq_left hfrom] at hrest
        have hreach := m.level_le_add hinv (le_max_left t lo) (max_le htc hfrom)
        have hring : m.rate * (hi - max t lo) =
            m.rate * (m.time c - max t lo) + m.rate * (hi - m.time c) := by ring
        linarith

/-- A run of paid calls spends at most `cap + rate * d` in any interval of length `d`. -/
theorem spentIn_le {lo d t : 𝕜} (hd : 0 ≤ d) {s : S} {cs : List C} (hinv : m.Inv s t)
    (hsorted : cs.Pairwise fun c d ↦ m.time c ≤ m.time d) (hlate : ∀ c ∈ cs, t ≤ m.time c)
    (hok : m.AllOk s cs) (ht : t ≤ lo) :
    m.spentIn lo (lo + d) s cs ≤ m.cap + m.rate * d := by
  have hmax : max t lo = lo := max_eq_right ht
  have hstart : max t lo ≤ lo + d := by
    rw [hmax]
    exact le_add_of_nonneg_right hd
  have h := m.spentIn_le_level hinv hsorted hlate hok hstart
  rw [hmax, add_sub_cancel_left] at h
  have hcap := m.level_le_cap s lo
  linarith

end Meter
