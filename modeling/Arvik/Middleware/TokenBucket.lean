import Arvik.Middleware.RateLimit
import Mathlib.Algebra.Order.Floor.Semiring
import Mathlib.Data.Rat.Floor

/-!
# The law of a token bucket

A bucket that is called at times that do not decrease never holds a negative number of tokens nor
more than its capacity, and a call is allowed exactly if the refilled level is at least one. After a
call that is denied the next one is allowed exactly from the moment on that the hint of the denied
call names (`tryConsume_after_denied`), so the hint rounded up is never too early
(`tokenBucket_law`).

The numbers are rational, and the law is that of the algorithm: the source computes in floating
point, where the level carries a rounding error that the law does not speak of.

`bucketOk_run` is the invariant, by induction on the calls from the last one backwards: the level is
between zero and the capacity, the rate is that of the limiter, and the last refill was at the last
call. A denied call leaves the refilled level behind, so what the next call finds is that level and
what has been refilled since, and the hint is the time in which the missing part of a token is
refilled.
-/

namespace RateLimit

/-- The bucket after calls at some times. -/
def Bucket.run (self : Bucket) (times : List ℚ) : Bucket :=
  times.foldl (fun bucket now ↦ (bucket.tryConsume now).1) self

/-- The seconds that are sent with a denied request: a cast to 64 bits saturates. -/
def retrySecsCeil (retrySecs : ℚ) : ℕ :=
  min ⌈retrySecs⌉₊ (2 ^ 64 - 1)

theorem Bucket.run_concat (self : Bucket) (times : List ℚ) (now : ℚ) :
    self.run (times ++ [now]) = ((self.run times).tryConsume now).1 :=
  List.foldl_concat _ _ _ _

theorem Bucket.lastRefill_tryConsume (self : Bucket) (now : ℚ) :
    (self.tryConsume now).1.lastRefill = now := by
  rw [Bucket.tryConsume]
  split
  · rfl
  · rfl

/-- A call is allowed exactly if there is a token. -/
theorem Bucket.tryConsume_eq_none_iff (self : Bucket) (now : ℚ) :
    (self.tryConsume now).2 = none ↔ 1 ≤ self.refilled now := by
  rw [Bucket.tryConsume]
  split
  · next h => exact iff_of_true rfl h
  · next h => exact iff_of_false (Option.some_ne_none _) h

/-- A denied call leaves the refilled tokens, and its hint is the time one token takes. -/
theorem Bucket.tryConsume_eq_some {self : Bucket} {now retrySecs : ℚ}
    (h : (self.tryConsume now).2 = some retrySecs) :
    self.refilled now < 1 ∧ retrySecs = (1 - self.refilled now) / self.refillRate ∧
      (self.tryConsume now).1.tokens = self.refilled now := by
  rw [Bucket.tryConsume] at h ⊢
  split at h
  · cases h
  · next hlow =>
    rw [if_neg hlow]
    exact ⟨not_le.1 hlow, (Option.some.inj h).symm, rfl⟩

section Law

variable {capacity : ℕ} {window : ℚ} {bucket : Bucket} {now : ℚ}

/-- The level a call finds. -/
theorem BucketOk.refilled_eq_min (h : BucketOk capacity window bucket now) :
    bucket.refilled now =
      min (bucket.tokens + (now - bucket.lastRefill) * (capacity / window)) capacity := by
  rw [Bucket.refilled, elapsedSince_of_le h.lastRefill_le, h.rate_eq, h.capacity_eq]

/-- The bucket of a run is in order, and was refilled at the last call. -/
theorem bucketOk_run (capacity : ℕ) (hwindow : 0 < window) {start : ℚ} {times : List ℚ}
    (htimes : (start :: times).Pairwise (· ≤ ·)) :
    BucketOk capacity window ((Bucket.new capacity window start).run times)
        (times.getLastD start) ∧
      ((Bucket.new capacity window start).run times).lastRefill = times.getLastD start := by
  induction times using List.reverseRecOn with
  | nil => exact ⟨.new start, rfl⟩
  | append_singleton times now ih =>
    rw [← List.cons_append, List.pairwise_append] at htimes
    -- The calls before the last one came no later than it.
    obtain ⟨hbefore, -, hlast⟩ := htimes
    obtain ⟨hok, -⟩ := ih hbefore
    have hle : times.getLastD start ≤ now :=
      hlast _ List.getLastD_mem_cons now (List.mem_singleton_self now)
    rw [Bucket.run_concat, List.getLastD_concat]
    exact ⟨((hok.mono hle).tryConsume hwindow).1, Bucket.lastRefill_tryConsume _ _⟩

theorem rate_pos (hcapacity : 1 ≤ capacity) (hwindow : 0 < window) :
    0 < (capacity : ℚ) / window :=
  div_pos (Nat.cast_pos.2 hcapacity) hwindow

/-- **After a denied call** the next one is allowed exactly when the hint is over. The denied call
spends nothing, so the level goes on rising from where it was. -/
theorem tryConsume_after_denied (hcapacity : 1 ≤ capacity) (hwindow : 0 < window)
    (h : BucketOk capacity window bucket now) {retrySecs : ℚ}
    (hdenied : (bucket.tryConsume now).2 = some retrySecs) {later : ℚ} (hlater : now ≤ later) :
    ((bucket.tryConsume now).1.tryConsume later).2 = none ↔ now + retrySecs ≤ later := by
  obtain ⟨-, hretry, htokens⟩ := Bucket.tryConsume_eq_some hdenied
  have hok := ((h.tryConsume hwindow).1).mono hlater
  have hcapacity' : (1 : ℚ) ≤ capacity := Nat.one_le_cast.2 hcapacity
  -- The level rises at the rate of the bucket, and one token is never cut off.
  rw [Bucket.tryConsume_eq_none_iff, hok.refilled_eq_min, Bucket.lastRefill_tryConsume, htokens,
    le_min_iff, and_iff_left hcapacity', hretry, h.rate_eq, ← sub_le_iff_le_add',
    ← div_le_iff₀ (rate_pos hcapacity hwindow), le_sub_iff_add_le']

/-- The hint is not longer than the window. -/
theorem retrySecs_le_window (hcapacity : 1 ≤ capacity) (hwindow : 0 < window)
    (h : BucketOk capacity window bucket now) {retrySecs : ℚ}
    (hdenied : (bucket.tryConsume now).2 = some retrySecs) : retrySecs ≤ window := by
  obtain ⟨-, hretry, htokens⟩ := Bucket.tryConsume_eq_some hdenied
  have hnonneg : 0 ≤ bucket.refilled now := htokens ▸ (h.tryConsume hwindow).1.tokens_nonneg
  have hcapacity' : (1 : ℚ) ≤ capacity := Nat.one_le_cast.2 hcapacity
  rw [hretry, h.rate_eq, div_le_iff₀ (rate_pos hcapacity hwindow), mul_div_cancel₀ _ hwindow.ne']
  linarith

/-- **Token bucket law**. After any calls at times that do not decrease the tokens are within the
bounds, and a next call is allowed exactly when the refilled level is at least one. When that call
is denied, a call that waits for the hint in whole seconds is allowed and a call before the exact
hint is denied; the cast of the hint to 64 bits loses nothing for a window that fits. -/
theorem tokenBucket_law (hcapacity : 1 ≤ capacity) (hwindow : 0 < window) {start : ℚ}
    {times : List ℚ} (htimes : (start :: times).Pairwise (· ≤ ·)) :
    0 ≤ ((Bucket.new capacity window start).run times).tokens ∧
      ((Bucket.new capacity window start).run times).tokens ≤ capacity ∧
      ∀ now, times.getLastD start ≤ now →
        ((((Bucket.new capacity window start).run times).tryConsume now).2 = none ↔
          1 ≤ min (((Bucket.new capacity window start).run times).tokens +
            (now - times.getLastD start) * (capacity / window)) capacity) ∧
        ∀ retrySecs,
          (((Bucket.new capacity window start).run times).tryConsume now).2 = some retrySecs →
            (window ≤ 2 ^ 64 - 1 → retrySecsCeil retrySecs = ⌈retrySecs⌉₊) ∧
            (∀ later, now + ⌈retrySecs⌉₊ ≤ later →
              ((((Bucket.new capacity window start).run times).tryConsume now).1.tryConsume
                later).2 = none) ∧
            ∀ later, now ≤ later → later < now + retrySecs →
              ((((Bucket.new capacity window start).run times).tryConsume now).1.tryConsume
                later).2 ≠ none := by
  obtain ⟨hok, hlast⟩ := bucketOk_run capacity hwindow htimes
  -- The calls matter only through the bucket they leave.
  generalize (Bucket.new capacity window start).run times = bucket at hok hlast ⊢
  refine ⟨hok.tokens_nonneg, hok.tokens_le, fun now hnow ↦ ?_⟩
  have hnowOk := hok.mono hnow
  refine ⟨?_, fun retrySecs hdenied ↦ ⟨fun hsmall ↦ ?_, fun later hlater ↦ ?_,
    fun later hlater hearly ↦ ?_⟩⟩
  · rw [bucket.tryConsume_eq_none_iff, hnowOk.refilled_eq_min, hlast]
  · have hle := retrySecs_le_window hcapacity hwindow hnowOk hdenied
    refine min_eq_left (Nat.ceil_le.2 ?_)
    push_cast
    linarith
  · have hceil := Nat.le_ceil retrySecs
    have hstart : now ≤ later := by
      have hnonneg : (0 : ℚ) ≤ ⌈retrySecs⌉₊ := Nat.cast_nonneg _
      linarith
    exact (tryConsume_after_denied hcapacity hwindow hnowOk hdenied hstart).2 (by linarith)
  · rw [Ne, tryConsume_after_denied hcapacity hwindow hnowOk hdenied hlater]
    exact not_le.2 hearly

/-- Two requests in a window of seven seconds: the third call comes two thirds of a second after
the first and is denied. -/
theorem tokenBucket_law_third_call :
    let bucket := (Bucket.new 2 7 5).run [5, 16 / 3]
    let now : ℚ := 17 / 3
    (bucket.tryConsume now).2 = some (17 / 6) ∧
      (∀ later, now + 3 ≤ later → ((bucket.tryConsume now).1.tryConsume later).2 = none) ∧
      ∀ later, now ≤ later → later < now + 17 / 6 →
        ((bucket.tryConsume now).1.tryConsume later).2 ≠ none := by
  have hdenied :
      ((((Bucket.new 2 7 5).run [5, 16 / 3]).tryConsume (17 / 3)).2) = some (17 / 6) := by
    decide +kernel
  have hcapacity : 1 ≤ 2 := by decide
  have hwindow : (0 : ℚ) < 7 := by norm_num
  have htimes : [(5 : ℚ), 5, 16 / 3].Pairwise (· ≤ ·) := by decide +kernel
  obtain ⟨-, -, hlaw⟩ := tokenBucket_law hcapacity hwindow htimes
  obtain ⟨-, hhint⟩ := hlaw (17 / 3) (by decide +kernel)
  obtain ⟨-, hlate, hearly⟩ := hhint _ hdenied
  have hceil : ⌈(17 / 6 : ℚ)⌉₊ = 3 := by rw [Nat.ceil_eq_iff (by decide)]; norm_num
  rw [hceil] at hlate
  exact ⟨hdenied, hlate, hearly⟩

end Law

end RateLimit
