import Arvik.Foundation.Metered
import Arvik.Foundation.Text
import Mathlib.Algebra.Order.Field.Rat

/-!
# The rate limiter's bucket store

Token buckets, one per key, in independently locked shards. A call first sweeps its shard, once
every `sweepEvery` calls of that shard, and then takes a token from the bucket of its key, created
full on first sight. Times are seconds and tokens are exact rationals.

The bound to be had from a token bucket is `capacity + capacity * d / window` allowed calls in any
interval of length `d`. Sweeping endangers it, because a swept bucket comes back full: the sweep
drops a bucket after `idleTtl` idle seconds, while a bucket needs `window` seconds to refill. The
store is made an instance of `Meter` (`meter`), with an absent bucket counted as a full one; a call
is paid for unless it sweeps the metered bucket before its window is over (`EvictsEarly`). What goes
wrong otherwise is `allowedIn_twoBursts`: a burst, the sweep, and a second full burst.

The budget argument is in the foundations and knows nothing of buckets. What is shown here is one
step: a call for another key leaves the level of the metered bucket as it is, a call for the key
itself pays for its token, and a sweep that is not early drops a bucket that is full anyway
(`BucketOk.bucketLevel_eq_capacity`).
-/

namespace RateLimit

/-- Number of independently locked bucket shards. -/
def shardCount : ℕ := 32

/-- A shard sweeps once per this many calls. -/
def sweepEvery : ℕ := 4096

/-- Buckets idle for this many seconds are swept. -/
def idleTtl : ℚ := 300

/-! ### Buckets -/

/-- A token bucket. -/
structure Bucket where
  tokens : ℚ
  capacity : ℚ
  /-- Tokens per second. -/
  refillRate : ℚ
  lastRefill : ℚ
  lastSeen : ℚ

/-- The time between two instants, zero if the second is the earlier one. -/
def elapsedSince (start now : ℚ) : ℚ :=
  max 0 (now - start)

theorem elapsedSince_of_le {start now : ℚ} (h : start ≤ now) :
    elapsedSince start now = now - start :=
  max_eq_right (sub_nonneg.2 h)

namespace Bucket

/-- A full bucket. -/
def new (capacity : ℕ) (window now : ℚ) : Bucket where
  tokens := capacity
  capacity := capacity
  refillRate := capacity / window
  lastRefill := now
  lastSeen := now

/-- The tokens of a bucket, refilled. -/
def refilled (b : Bucket) (now : ℚ) : ℚ :=
  min (b.tokens + elapsedSince b.lastRefill now * b.refillRate) b.capacity

/-- Take one token. The second component is `none` if the call is allowed, and the seconds to wait
for the next token otherwise. -/
def tryConsume (b : Bucket) (now : ℚ) : Bucket × Option ℚ :=
  let tokens := b.refilled now
  if 1 ≤ tokens then
    ({ b with tokens := tokens - 1, lastRefill := now, lastSeen := now }, none)
  else
    ({ b with tokens := tokens, lastRefill := now, lastSeen := now },
      some ((1 - tokens) / b.refillRate))

end Bucket

/-! ### The store -/

/-- A shard: its buckets and the number of calls it has seen, a 64-bit counter. -/
structure Shard where
  buckets : Str → Option Bucket
  calls : ℕ

/-- The buckets of a shard after the sweep, if this call is due to sweep. -/
def Shard.swept (shard : Shard) (now : ℚ) : Str → Option Bucket :=
  if shard.calls % sweepEvery = 0 then
    fun key ↦ (shard.buckets key).filter fun b ↦ elapsedSince b.lastSeen now < idleTtl
  else
    shard.buckets

/-- A call served by a shard: the sweep, then one token from the bucket of the key, which is
created on first sight. -/
def Shard.tryConsume (shard : Shard) (key : Str) (capacity : ℕ) (window now : ℚ) :
    Shard × Option ℚ :=
  let buckets := shard.swept now
  let (bucket, outcome) := ((buckets key).getD (Bucket.new capacity window now)).tryConsume now
  (⟨Function.update buckets key (some bucket), (shard.calls + 1) % 2 ^ 64⟩, outcome)

/-- The sharded store. -/
structure BucketStore where
  shards : Fin 32 → Shard
  /-- The hash of a key. -/
  hashOne : Str → ℕ

namespace BucketStore

/-- The store without buckets; the window is not looked at. -/
def new (_window : ℚ) (hashOne : Str → ℕ) : BucketStore where
  shards _ := ⟨fun _ ↦ none, 0⟩
  hashOne := hashOne

/-- The shard of a key. -/
def shardIndex (store : BucketStore) (key : Str) : Fin 32 :=
  ⟨store.hashOne key % shardCount, Nat.mod_lt _ (by decide)⟩

/-- Take one token for a key, in the shard of the key. -/
def tryConsume (store : BucketStore) (key : Str) (capacity : ℕ) (window now : ℚ) :
    BucketStore × Option ℚ :=
  let index := store.shardIndex key
  let (shard, outcome) := (store.shards index).tryConsume key capacity window now
  ({ store with shards := Function.update store.shards index shard }, outcome)

end BucketStore

/-! ### Runs -/

/-- One call of the store. -/
structure Call where
  key : Str
  now : ℚ

section Runs

variable (capacity : ℕ) (window : ℚ)

/-- The store after a call. -/
def next (store : BucketStore) (c : Call) : BucketStore :=
  (store.tryConsume c.key capacity window c.now).1

/-- The call is allowed. -/
def allows (store : BucketStore) (c : Call) : Bool :=
  (store.tryConsume c.key capacity window c.now).2.isNone

/-- The number of calls for a key, from `lo` to `hi`, that a run allows. -/
def allowedIn (key : Str) (lo hi : ℚ) : BucketStore → List Call → ℕ
  | _, [] => 0
  | store, c :: cs =>
    (if c.key = key ∧ allows capacity window store c ∧ lo ≤ c.now ∧ c.now ≤ hi then 1 else 0) +
      allowedIn key lo hi (next capacity window store c) cs

/-- The call sweeps the bucket of a key although its window is not over. -/
def EvictsEarly (key : Str) (store : BucketStore) (c : Call) : Prop :=
  store.shardIndex c.key = store.shardIndex key ∧
    ∃ b, (store.shards (store.shardIndex key)).buckets key = some b ∧
      (store.shards (store.shardIndex key)).swept c.now key = none ∧ c.now < b.lastSeen + window

/-- No call of a run sweeps the bucket of a key before its window is over. A bucket that is swept
later than that would be full anyway. -/
def NoEarlyEviction (key : Str) : BucketStore → List Call → Prop
  | _, [] => True
  | store, c :: cs =>
    ¬ EvictsEarly window key store c ∧ NoEarlyEviction key (next capacity window store c) cs

end Runs

/-! ### What one call does to one bucket -/

/-- The bucket of a key. -/
def BucketStore.bucket (store : BucketStore) (key : Str) : Option Bucket :=
  (store.shards (store.shardIndex key)).buckets key

/-- The bucket of a key after the sweep of a call. -/
def sweptBucket (store : BucketStore) (c : Call) (key : Str) : Option Bucket :=
  if store.shardIndex c.key = store.shardIndex key then
    (store.shards (store.shardIndex key)).swept c.now key
  else
    store.bucket key

section OneCall

variable {capacity : ℕ} {window : ℚ} (store : BucketStore) (c : Call)

theorem shardIndex_next (key : Str) :
    (next capacity window store c).shardIndex key = store.shardIndex key :=
  (rfl)

/-- The call takes its token from what the sweep left of its bucket. -/
theorem allows_eq : allows capacity window store c =
    (((sweptBucket store c c.key).getD (.new capacity window c.now)).tryConsume
      c.now).2.isNone := by
  rw [sweptBucket, if_pos rfl]
  rfl

/-- Only the shard of the call's key changes. -/
theorem shards_next : (next capacity window store c).shards =
    Function.update store.shards (store.shardIndex c.key)
      ((store.shards (store.shardIndex c.key)).tryConsume c.key capacity window c.now).1 :=
  (rfl)

/-- The bucket of the call's key after the call. -/
theorem bucket_next_self : (next capacity window store c).bucket c.key =
    some (((sweptBucket store c c.key).getD (.new capacity window c.now)).tryConsume c.now).1 := by
  rw [sweptBucket, if_pos rfl, BucketStore.bucket, shardIndex_next, shards_next,
    Function.update_self]
  exact Function.update_self _ _ _

/-- Any other bucket is at most swept. -/
theorem bucket_next_of_ne {key : Str} (h : key ≠ c.key) :
    (next capacity window store c).bucket key = sweptBucket store c key := by
  rw [sweptBucket, BucketStore.bucket, shardIndex_next, shards_next]
  by_cases hidx : store.shardIndex c.key = store.shardIndex key
  · rw [if_pos hidx, hidx, Function.update_self]
    exact Function.update_of_ne h _ _
  · rw [if_neg hidx, Function.update_of_ne (Ne.symm hidx)]
    rfl

/-- The call counter of the call's shard advances. -/
theorem calls_next_self :
    ((next capacity window store c).shards (store.shardIndex c.key)).calls =
      ((store.shards (store.shardIndex c.key)).calls + 1) % 2 ^ 64 := by
  rw [shards_next, Function.update_self]
  rfl

/-- A sweep leaves a bucket alone, or drops one that was idle for the time to live. -/
theorem sweptBucket_cases (key : Str) :
    sweptBucket store c key = store.bucket key ∨
      ∃ b, store.bucket key = some b ∧ sweptBucket store c key = none ∧
        store.shardIndex c.key = store.shardIndex key ∧
        idleTtl ≤ elapsedSince b.lastSeen c.now := by
  rw [sweptBucket]
  split
  case isFalse => exact .inl rfl
  case isTrue hidx =>
    rw [Shard.swept]
    split
    case isFalse => exact .inl rfl
    case isTrue =>
      cases hb : store.bucket key with
      | none =>
        left
        show (store.bucket key).filter _ = none
        rw [hb]
        rfl
      | some b =>
        have hfilter : (store.bucket key).filter
            (fun b ↦ decide (elapsedSince b.lastSeen c.now < idleTtl)) =
              if elapsedSince b.lastSeen c.now < idleTtl then some b else none := by
          rw [hb, Option.filter_some]
          simp only [decide_eq_true_eq]
        by_cases hidle : elapsedSince b.lastSeen c.now < idleTtl
        · exact .inl (hfilter.trans (if_pos hidle))
        · exact .inr ⟨b, rfl, hfilter.trans (if_neg hidle), hidx, not_lt.1 hidle⟩

end OneCall

/-! ### The store is metered -/

/-- A bucket created with a capacity and a window, last touched by a time. -/
structure BucketOk (capacity : ℕ) (window : ℚ) (b : Bucket) (t : ℚ) : Prop where
  capacity_eq : b.capacity = capacity
  rate_eq : b.refillRate = capacity / window
  tokens_nonneg : 0 ≤ b.tokens
  tokens_le : b.tokens ≤ capacity
  lastSeen_eq : b.lastSeen = b.lastRefill
  lastRefill_le : b.lastRefill ≤ t

/-- The level of a bucket at a time; an absent bucket counts as a full one. -/
def bucketLevel (capacity : ℕ) (window : ℚ) (bucket : Option Bucket) (t : ℚ) : ℚ :=
  bucket.elim capacity fun b ↦ refill capacity (capacity / window) b.tokens (t - b.lastRefill)

section Metered

variable {capacity : ℕ} {window : ℚ}

theorem rate_nonneg (hwindow : 0 < window) : 0 ≤ (capacity : ℚ) / window :=
  div_nonneg (Nat.cast_nonneg _) hwindow.le

theorem BucketOk.new (now : ℚ) : BucketOk capacity window (.new capacity window now) now where
  capacity_eq := rfl
  rate_eq := rfl
  tokens_nonneg := Nat.cast_nonneg _
  tokens_le := le_refl _
  lastSeen_eq := rfl
  lastRefill_le := le_refl _

theorem BucketOk.mono {b : Bucket} {t t' : ℚ} (h : BucketOk capacity window b t) (ht : t ≤ t') :
    BucketOk capacity window b t' :=
  { h with lastRefill_le := h.lastRefill_le.trans ht }

/-- A call finds its bucket at its level. -/
theorem BucketOk.refilled_eq {b : Bucket} {t : ℚ} (h : BucketOk capacity window b t) :
    b.refilled t = bucketLevel capacity window (some b) t := by
  rw [Bucket.refilled, elapsedSince_of_le h.lastRefill_le, h.rate_eq, h.capacity_eq, min_comm,
    mul_comm]
  rfl

/-- Taking a token keeps the bucket well-formed, and what is left of the level together with the
token taken is the level before. -/
theorem BucketOk.tryConsume {b : Bucket} {t : ℚ} (hwindow : 0 < window)
    (h : BucketOk capacity window b t) :
    BucketOk capacity window (b.tryConsume t).1 t ∧
      bucketLevel capacity window (some (b.tryConsume t).1) t +
        (if (b.tryConsume t).2.isNone then 1 else 0) = bucketLevel capacity window (some b) t := by
  have hcap : b.refilled t ≤ capacity := by
    rw [h.refilled_eq]
    exact min_le_left _ _
  have hnonneg : 0 ≤ b.refilled t := by
    rw [h.refilled_eq]
    refine le_min (Nat.cast_nonneg _) (add_nonneg h.tokens_nonneg ?_)
    exact mul_nonneg (rate_nonneg hwindow) (sub_nonneg.2 h.lastRefill_le)
  rw [← h.refilled_eq, Bucket.tryConsume]
  by_cases hfull : 1 ≤ b.refilled t
  · simp only [if_pos hfull, Option.isNone_none, if_true]
    refine ⟨⟨h.capacity_eq, h.rate_eq, sub_nonneg.2 hfull, ?_, rfl, le_refl _⟩, ?_⟩
    · show b.refilled t - 1 ≤ capacity
      linarith
    · show refill _ _ (b.refilled t - 1) (t - t) + 1 = b.refilled t
      rw [sub_self, refill_zero (by linarith)]
      ring
  · simp only [if_neg hfull, Option.isNone_some, Bool.false_eq_true, if_false, add_zero]
    refine ⟨⟨h.capacity_eq, h.rate_eq, hnonneg, hcap, rfl, le_refl _⟩, ?_⟩
    show refill _ _ (b.refilled t) (t - t) = b.refilled t
    rw [sub_self, refill_zero hcap]

theorem bucketLevel_le_capacity (bucket : Option Bucket) (t : ℚ) :
    bucketLevel capacity window bucket t ≤ capacity := by
  cases bucket with
  | none => exact le_refl _
  | some b => exact min_le_left _ _

/-- A bucket idle for its whole window is full. -/
theorem BucketOk.bucketLevel_eq_capacity {b : Bucket} {t now : ℚ} (hwindow : 0 < window)
    (h : BucketOk capacity window b t) (hidle : b.lastSeen + window ≤ now) :
    bucketLevel capacity window (some b) now = capacity := by
  refine min_eq_left ?_
  have hrefilled : (capacity : ℚ) / window * window ≤
      (capacity : ℚ) / window * (now - b.lastRefill) :=
    mul_le_mul_of_nonneg_left (by rw [← h.lastSeen_eq]; linarith) (rate_nonneg hwindow)
  rw [div_mul_cancel₀ _ hwindow.ne'] at hrefilled
  have := h.tokens_nonneg
  linarith

/-- A sweep that is not early changes no level. -/
theorem bucketLevel_sweptBucket {key : Str} {store : BucketStore} {c : Call} {t : ℚ}
    (hwindow : 0 < window)
    (hinv : ∀ b, store.bucket key = some b → BucketOk capacity window b t)
    (hok : ¬ EvictsEarly window key store c) :
    bucketLevel capacity window (sweptBucket store c key) c.now =
      bucketLevel capacity window (store.bucket key) c.now := by
  rcases sweptBucket_cases store c key with heq | ⟨b, hb, hnone, hidx, -⟩
  · rw [heq]
  · have hidle : b.lastSeen + window ≤ c.now := by
      by_contra hearly
      refine hok ⟨hidx, b, hb, ?_, not_le.1 hearly⟩
      rwa [sweptBucket, if_pos hidx] at hnone
    rw [hnone, hb, (hinv b hb).bucketLevel_eq_capacity hwindow hidle]
    rfl

/-- What the sweep leaves is well-formed. -/
theorem bucketOk_of_sweptBucket {key : Str} {store : BucketStore} {c : Call} {t : ℚ}
    (hinv : ∀ b, store.bucket key = some b → BucketOk capacity window b t) (ht : t ≤ c.now)
    {b : Bucket} (hb : sweptBucket store c key = some b) : BucketOk capacity window b c.now := by
  rcases sweptBucket_cases store c key with heq | ⟨-, -, hnone, -⟩
  · exact (hinv b (heq ▸ hb)).mono ht
  · rw [hnone] at hb
    cases hb

/-- The bucket a call takes its token from is well-formed, and holds the level. -/
theorem bucketOk_getD {bucket : Option Bucket} {now : ℚ}
    (h : ∀ b, bucket = some b → BucketOk capacity window b now) :
    BucketOk capacity window (bucket.getD (.new capacity window now)) now ∧
      bucketLevel capacity window (some (bucket.getD (.new capacity window now))) now =
        bucketLevel capacity window bucket now := by
  cases bucket with
  | none =>
    refine ⟨BucketOk.new now, ?_⟩
    show refill _ _ (capacity : ℚ) (now - now) = capacity
    rw [sub_self, refill_zero (le_refl _)]
  | some b => exact ⟨h b rfl, rfl⟩

/-- One call at or after a time, for any key: the metered bucket stays well-formed and pays for
what the call takes. -/
theorem meter_step (hwindow : 0 < window) {key : Str} {store : BucketStore} {c : Call} {t : ℚ}
    (hinv : ∀ b, store.bucket key = some b → BucketOk capacity window b t) (ht : t ≤ c.now)
    (hok : ¬ EvictsEarly window key store c) :
    (∀ b, (next capacity window store c).bucket key = some b →
      BucketOk capacity window b c.now) ∧
    bucketLevel capacity window ((next capacity window store c).bucket key) c.now +
        (if c.key = key ∧ allows capacity window store c then 1 else 0) =
      bucketLevel capacity window (store.bucket key) c.now := by
  rw [← bucketLevel_sweptBucket hwindow hinv hok]
  have hswept := fun b ↦ bucketOk_of_sweptBucket (b := b) hinv ht
  by_cases hkey : c.key = key
  · subst hkey
    obtain ⟨hbucket, hlevel⟩ := bucketOk_getD hswept
    obtain ⟨hafter, hpay⟩ := hbucket.tryConsume hwindow
    rw [bucket_next_self, allows_eq, ← hlevel, ← hpay]
    refine ⟨fun b hb ↦ Option.some.inj hb ▸ hafter, ?_⟩
    simp only [true_and]
  · rw [bucket_next_of_ne store c (Ne.symm hkey)]
    refine ⟨hswept, ?_⟩
    rw [if_neg fun h ↦ hkey h.1, add_zero]

/-- The store, metered at one key. -/
def meter (capacity : ℕ) (window : ℚ) (hwindow : 0 < window) (key : Str) :
    Meter ℚ BucketStore Call where
  cap := capacity
  rate := capacity / window
  next := next capacity window
  time := Call.now
  spent store c := if c.key = key ∧ allows capacity window store c then 1 else 0
  level store t := bucketLevel capacity window (store.bucket key) t
  Inv store t := ∀ b, store.bucket key = some b → BucketOk capacity window b t
  Ok store c := ¬ EvictsEarly window key store c
  rate_nonneg := rate_nonneg hwindow
  spent_nonneg store c := by
    split
    · exact zero_le_one
    · exact le_refl _
  level_nonneg store t hinv := by
    cases hb : store.bucket key with
    | none => exact Nat.cast_nonneg _
    | some b =>
      have hok := hinv b hb
      refine le_min (Nat.cast_nonneg _) (add_nonneg hok.tokens_nonneg ?_)
      exact mul_nonneg (rate_nonneg hwindow) (sub_nonneg.2 hok.lastRefill_le)
  level_le_cap store t := bucketLevel_le_capacity _ t
  level_refill store t t' hinv htt := by
    have hrate : 0 ≤ (capacity : ℚ) / window := rate_nonneg hwindow
    cases hb : store.bucket key with
    | none => exact (refill_cap (mul_nonneg hrate (sub_nonneg.2 htt))).symm
    | some b =>
      show refill _ _ _ _ = refill _ _ (refill _ _ _ _) _
      rw [refill_refill hrate _ (sub_nonneg.2 htt)]
      congr 1
      ring
  step store c t hinv ht hok := (meter_step hwindow hinv ht hok).imp_right le_of_eq

end Metered

/-! ### Two bursts around a sweep -/

section Bursts

variable {capacity : ℕ} {window : ℚ}

/-- The store after a run. -/
def after (capacity : ℕ) (window : ℚ) (store : BucketStore) (cs : List Call) : BucketStore :=
  cs.foldl (next capacity window) store

theorem allowedIn_append (key : Str) (lo hi : ℚ) (store : BucketStore) (cs ds : List Call) :
    allowedIn capacity window key lo hi store (cs ++ ds) =
      allowedIn capacity window key lo hi store cs +
        allowedIn capacity window key lo hi (after capacity window store cs) ds := by
  induction cs generalizing store with
  | nil => simp [allowedIn, after]
  | cons c cs ih =>
    rw [List.cons_append, allowedIn, allowedIn, ih, add_assoc]
    rfl

/-- A call at the time its bucket was last touched finds the bucket. -/
theorem sweptBucket_of_lastSeen {store : BucketStore} {key : Str} {b : Bucket} {t : ℚ}
    (hb : store.bucket key = some b) (hseen : b.lastSeen = t) :
    sweptBucket store ⟨key, t⟩ key = some b := by
  rcases sweptBucket_cases store ⟨key, t⟩ key with heq | ⟨b', hb', -, -, hidle⟩
  · rw [heq, hb]
  · have hbb : b = b' := Option.some.inj (hb.symm.trans hb')
    subst hbb
    rw [hseen, elapsedSince_of_le (le_refl t), sub_self] at hidle
    exact absurd hidle (by decide)

/-- A bucket without tokens gives none away. -/
theorem tryConsume_of_refilled_zero {b : Bucket} {t : ℚ} (h : b.refilled t = (0 : ℕ)) :
    b.tryConsume t = ({ b with tokens := (0 : ℕ), lastRefill := t, lastSeen := t },
      some ((1 - ((0 : ℕ) : ℚ)) / b.refillRate)) := by
  have hempty : ¬ (1 : ℚ) ≤ ((0 : ℕ) : ℚ) := by norm_num
  rw [Bucket.tryConsume, h]
  exact if_neg hempty

/-- A bucket with whole tokens gives one away. -/
theorem tryConsume_of_refilled_succ {b : Bucket} {t : ℚ} {m : ℕ}
    (h : b.refilled t = (m + 1 : ℕ)) :
    b.tryConsume t = ({ b with tokens := (m : ℕ), lastRefill := t, lastSeen := t }, none) := by
  have hfull : (1 : ℚ) ≤ ((m + 1 : ℕ) : ℚ) := Nat.one_le_cast.2 (Nat.succ_pos m)
  have hsub : ((m + 1 : ℕ) : ℚ) - 1 = m := by
    rw [Nat.cast_succ, add_sub_cancel_right]
  rw [Bucket.tryConsume, h]
  simp only [if_pos hfull, hsub]

variable (capacity window) in
/-- The first of several calls at one time. -/
theorem burst_succ {key : Str} {lo hi t : ℚ} (ht : lo ≤ t ∧ t ≤ hi) (n : ℕ) {store : BucketStore}
    {b : Bucket} (hb : (sweptBucket store ⟨key, t⟩ key).getD (.new capacity window t) = b) :
    (next capacity window store ⟨key, t⟩).bucket key = some (b.tryConsume t).1 ∧
      allowedIn capacity window key lo hi store (List.replicate (n + 1) ⟨key, t⟩) =
        (if (b.tryConsume t).2.isNone then 1 else 0) +
          allowedIn capacity window key lo hi (next capacity window store ⟨key, t⟩)
            (List.replicate n ⟨key, t⟩) := by
  have hallows : allows capacity window store ⟨key, t⟩ = (b.tryConsume t).2.isNone := by
    rw [allows_eq, hb]
  refine ⟨?_, ?_⟩
  · rw [← hb]
    exact bucket_next_self store ⟨key, t⟩
  · rw [List.replicate_succ, allowedIn, hallows]
    simp only [ht.1, ht.2, and_true, true_and]

/-- Calls at one time take whole tokens until none is left. -/
theorem burst_of_bucket {key : Str} {lo hi t : ℚ} (ht : lo ≤ t ∧ t ≤ hi) (n : ℕ) {m : ℕ}
    {store : BucketStore} {b : Bucket} (hb : store.bucket key = some b)
    (hok : BucketOk capacity window b t) (hrefill : b.lastRefill = t) (htokens : b.tokens = m) :
    allowedIn capacity window key lo hi store (List.replicate n ⟨key, t⟩) = min n m ∧
      ∃ b', (after capacity window store (List.replicate n ⟨key, t⟩)).bucket key = some b' ∧
        b'.lastSeen = t := by
  induction n generalizing m store b with
  | zero => exact ⟨(Nat.zero_min m).symm, b, hb, hok.lastSeen_eq.trans hrefill⟩
  | succ n ih =>
    have hswept := sweptBucket_of_lastSeen hb (hok.lastSeen_eq.trans hrefill)
    have hrefilled : b.refilled t = m := by
      have hcap := hok.tokens_le
      rw [Bucket.refilled, elapsedSince_of_le hrefill.le, hrefill, sub_self, zero_mul, add_zero,
        hok.capacity_eq, min_eq_left hcap, htokens]
    obtain ⟨hnext, hcount⟩ :=
      burst_succ capacity window ht n (b := b) (by rw [hswept]; rfl)
    have hcapacity := hok.tokens_le
    rw [htokens] at hcapacity
    cases m with
    | zero =>
      rw [tryConsume_of_refilled_zero hrefilled] at hnext hcount
      obtain ⟨hrest, hafter⟩ := ih hnext
        ⟨hok.capacity_eq, hok.rate_eq, le_refl _, hcapacity, rfl, le_refl _⟩ rfl rfl
      rw [hcount, hrest]
      exact ⟨by simp, hafter⟩
    | succ m =>
      rw [tryConsume_of_refilled_succ hrefilled] at hnext hcount
      have hle : (m : ℚ) ≤ capacity := (Nat.cast_le.2 (Nat.le_succ m)).trans hcapacity
      obtain ⟨hrest, hafter⟩ := ih hnext
        ⟨hok.capacity_eq, hok.rate_eq, Nat.cast_nonneg m, hle, rfl, le_refl _⟩ rfl rfl
      rw [hcount, hrest]
      refine ⟨?_, hafter⟩
      simp only [Option.isNone_none, if_true]
      omega

/-- Calls at one time for a key without a bucket take the whole capacity. -/
theorem burst_of_sweptBucket_eq_none {key : Str} {lo hi t : ℚ} (ht : lo ≤ t ∧ t ≤ hi) (n : ℕ)
    (hcapacity : 1 ≤ capacity) {store : BucketStore}
    (hnone : sweptBucket store ⟨key, t⟩ key = none) :
    allowedIn capacity window key lo hi store (List.replicate (n + 1) ⟨key, t⟩) =
        min (n + 1) capacity ∧
      ∃ b', (after capacity window store (List.replicate (n + 1) ⟨key, t⟩)).bucket key = some b' ∧
        b'.lastSeen = t := by
  obtain ⟨m, rfl⟩ := Nat.exists_eq_add_of_le' hcapacity
  have hrefilled : (Bucket.new (m + 1) window t).refilled t = (m + 1 : ℕ) := by
    rw [(BucketOk.new t).refilled_eq]
    show refill _ _ ((m + 1 : ℕ) : ℚ) (t - t) = (m + 1 : ℕ)
    rw [sub_self, refill_zero (le_refl _)]
  obtain ⟨hnext, hcount⟩ := burst_succ (m + 1) window ht n (b := .new (m + 1) window t)
    (by rw [hnone]; rfl)
  rw [tryConsume_of_refilled_succ hrefilled] at hnext hcount
  have hle : (m : ℚ) ≤ (m + 1 : ℕ) := Nat.cast_le.2 (Nat.le_succ m)
  obtain ⟨hrest, hafter⟩ := burst_of_bucket ht n hnext
    ⟨rfl, rfl, Nat.cast_nonneg m, hle, rfl, le_refl _⟩ rfl rfl
  refine ⟨?_, hafter⟩
  rw [hcount, hrest]
  simp only [Option.isNone_none, if_true]
  omega

theorem shardIndex_after (key : Str) (store : BucketStore) (cs : List Call) :
    (after capacity window store cs).shardIndex key = store.shardIndex key := by
  induction cs generalizing store with
  | nil => rfl
  | cons c cs ih => exact (ih _).trans (shardIndex_next store c key)

/-- The call counter of a shard after a run of calls for one of its keys. -/
theorem calls_after_replicate (key : Str) (t : ℚ) (n k : ℕ) {store : BucketStore}
    (h : (store.shards (store.shardIndex key)).calls = k % 2 ^ 64) :
    ((after capacity window store (List.replicate n ⟨key, t⟩)).shards
      (store.shardIndex key)).calls = (k + n) % 2 ^ 64 := by
  induction n generalizing k store with
  | zero => exact h
  | succ n ih =>
    have hcalls : ((next capacity window store ⟨key, t⟩).shards (store.shardIndex key)).calls =
        ((store.shards (store.shardIndex key)).calls + 1) % 2 ^ 64 :=
      calls_next_self store ⟨key, t⟩
    rw [h, Nat.mod_add_mod] at hcalls
    rw [List.replicate_succ, ← Nat.add_assoc, Nat.add_right_comm]
    exact ih (k + 1) hcalls

/-- The run with two bursts: calls at time zero until the shard is due to sweep again, and a burst
when the time to live is over. -/
def twoBursts (capacity : ℕ) (key : Str) : List Call :=
  List.replicate (sweepEvery * capacity) ⟨key, 0⟩ ++ List.replicate capacity ⟨key, idleTtl⟩

theorem pairwise_twoBursts (capacity : ℕ) (key : Str) :
    (twoBursts capacity key).Pairwise fun c d ↦ c.now ≤ d.now := by
  refine List.pairwise_append.2 ⟨?_, ?_, ?_⟩
  · exact List.pairwise_replicate.2 (.inr (le_refl _))
  · exact List.pairwise_replicate.2 (.inr (le_refl _))
  · intro c hc d hd
    rw [List.eq_of_mem_replicate hc, List.eq_of_mem_replicate hd]
    show (0 : ℚ) ≤ idleTtl
    decide

/-- Both bursts are allowed in full, whatever the window. -/
theorem allowedIn_twoBursts (hashOne : Str → ℕ) (hcapacity : 1 ≤ capacity) (key : Str) :
    allowedIn capacity window key 0 idleTtl (.new window hashOne) (twoBursts capacity key) =
      capacity + capacity := by
  let store := BucketStore.new window hashOne
  have hin : (0 : ℚ) ≤ 0 ∧ (0 : ℚ) ≤ idleTtl := by decide
  have hin' : (0 : ℚ) ≤ idleTtl ∧ idleTtl ≤ idleTtl := by decide
  -- The first burst: the store is empty, so the bucket is created full.
  obtain ⟨n, hn⟩ : ∃ n, sweepEvery * capacity = n + 1 :=
    ⟨sweepEvery * capacity - 1, by rw [sweepEvery]; omega⟩
  have hnone : sweptBucket store ⟨key, 0⟩ key = none := by
    rcases sweptBucket_cases store ⟨key, 0⟩ key with heq | ⟨b, hb, -⟩
    · exact heq
    · cases hb
  obtain ⟨hfirst, b, hb, hseen⟩ := burst_of_sweptBucket_eq_none hin n hcapacity hnone
  rw [← hn] at hfirst hb
  -- The second burst: its first call is due to sweep, and the bucket has been idle long enough.
  let store' := after capacity window store (List.replicate (sweepEvery * capacity) ⟨key, 0⟩)
  have hcalls : (store'.shards (store'.shardIndex key)).calls % sweepEvery = 0 := by
    rw [show store'.shardIndex key = store.shardIndex key from shardIndex_after key store _,
      show (store'.shards (store.shardIndex key)).calls = (0 + sweepEvery * capacity) % 2 ^ 64 from
        calls_after_replicate key 0 _ 0 rfl,
      Nat.zero_add, Nat.mod_mod_of_dvd _ (by decide), Nat.mul_mod_right]
  have hnone' : sweptBucket store' ⟨key, idleTtl⟩ key = none := by
    rw [sweptBucket, if_pos rfl, Shard.swept, if_pos hcalls]
    show (store'.bucket key).filter _ = none
    rw [show store'.bucket key = some b from hb]
    refine Option.filter_some_neg (decide_eq_false ?_)
    rw [hseen]
    show ¬ elapsedSince 0 idleTtl < idleTtl
    rw [elapsedSince_of_le hin.2, sub_zero]
    exact lt_irrefl _
  obtain ⟨m, hm⟩ : ∃ m, capacity = m + 1 := ⟨capacity - 1, by omega⟩
  obtain ⟨hsecond, -⟩ := burst_of_sweptBucket_eq_none hin' m hcapacity hnone'
  rw [← hm] at hsecond
  rw [twoBursts, allowedIn_append, hfirst, hsecond, Nat.min_self, Nat.min_eq_right]
  rw [sweepEvery]
  omega

end Bursts

/-! ### The rate bound -/

section Bound

variable {capacity : ℕ} {window : ℚ} {key : Str}

/-- The metered spending counts the allowed calls. -/
theorem spentIn_meter (hwindow : 0 < window) (lo hi : ℚ) (store : BucketStore) (cs : List Call) :
    (meter capacity window hwindow key).spentIn lo hi store cs =
      (allowedIn capacity window key lo hi store cs : ℚ) := by
  induction cs generalizing store with
  | nil => exact Nat.cast_zero.symm
  | cons c cs ih =>
    rw [Meter.spentIn, ih, allowedIn]
    push_cast
    congr 1
    show (if lo ≤ c.now ∧ c.now ≤ hi then
      (if c.key = key ∧ allows capacity window store c then (1 : ℚ) else 0) else 0) = _
    rw [← ite_and]
    exact if_congr (by tauto) rfl rfl

theorem allOk_meter (hwindow : 0 < window) {store : BucketStore} {cs : List Call}
    (h : NoEarlyEviction capacity window key store cs) :
    (meter capacity window hwindow key).AllOk store cs := by
  induction cs generalizing store with
  | nil => trivial
  | cons c cs ih => exact ⟨h.1, ih h.2⟩

/-- A run whose sweeps of the key are not early respects the rate bound. -/
theorem allowedIn_le (hwindow : 0 < window) (hashOne : Str → ℕ) {cs : List Call} {lo d : ℚ}
    (hsorted : cs.Pairwise fun c d ↦ c.now ≤ d.now) (hd : 0 ≤ d)
    (hok : NoEarlyEviction capacity window key (.new window hashOne) cs) :
    (allowedIn capacity window key lo (lo + d) (.new window hashOne) cs : ℚ) ≤
      capacity + capacity * d / window := by
  -- The run starts no later than its first call and than the interval.
  obtain ⟨t, ht, hlate⟩ : ∃ t ≤ lo, ∀ c ∈ cs, t ≤ c.now := by
    cases cs with
    | nil => exact ⟨lo, le_refl _, nofun⟩
    | cons c cs =>
      refine ⟨min lo c.now, min_le_left _ _,
        List.forall_mem_cons.2 ⟨min_le_right _ _, fun e he ↦ ?_⟩⟩
      exact (min_le_right _ _).trans ((List.pairwise_cons.1 hsorted).1 e he)
  have hinv : (meter capacity window hwindow key).Inv (.new window hashOne) t := nofun
  have h := (meter capacity window hwindow key).spentIn_le hd hinv hsorted hlate
    (allOk_meter hwindow hok) ht
  rw [spentIn_meter] at h
  rwa [mul_div_right_comm]

/-- A window no longer than the time to live makes no sweep early. -/
theorem noEarlyEviction_of_window_le (hwindow : 0 < window) (hle : window ≤ idleTtl)
    {store : BucketStore} {cs : List Call} {t : ℚ}
    (hinv : ∀ b, store.bucket key = some b → BucketOk capacity window b t)
    (hsorted : cs.Pairwise fun c d ↦ c.now ≤ d.now) (hlate : ∀ c ∈ cs, t ≤ c.now) :
    NoEarlyEviction capacity window key store cs := by
  induction cs generalizing store t with
  | nil => trivial
  | cons c cs ih =>
    obtain ⟨hc, hcs⟩ := List.pairwise_cons.1 hsorted
    have ht : t ≤ c.now := hlate c List.mem_cons_self
    have hok : ¬ EvictsEarly window key store c := by
      rintro ⟨hidx, b, hb, hnone, hearly⟩
      rcases sweptBucket_cases store c key with heq | ⟨b', hb', -, -, hidle⟩
      · rw [sweptBucket, if_pos hidx, hnone] at heq
        cases heq.trans hb
      · have hbb : b = b' := Option.some.inj (hb.symm.trans hb')
        subst hbb
        have hseen := (hinv b hb).lastSeen_eq.le.trans ((hinv b hb).lastRefill_le.trans ht)
        rw [elapsedSince_of_le hseen] at hidle
        linarith
    exact ⟨hok, ih (meter_step hwindow hinv ht hok).1 hcs hc⟩

/-- Every run without an early sweep of the key respects the rate bound, and all runs do exactly
when the window is no longer than the time to live of an idle bucket. -/
theorem allowedIn_le_iff (hcapacity : 1 ≤ capacity) (hwindow : 0 < window) (hashOne : Str → ℕ) :
    (∀ (key : Str) (cs : List Call) (lo d : ℚ), (cs.Pairwise fun c d ↦ c.now ≤ d.now) → 0 ≤ d →
      NoEarlyEviction capacity window key (.new window hashOne) cs →
      (allowedIn capacity window key lo (lo + d) (.new window hashOne) cs : ℚ) ≤
        capacity + capacity * d / window) ∧
    ((∀ (key : Str) (cs : List Call) (lo d : ℚ), (cs.Pairwise fun c d ↦ c.now ≤ d.now) → 0 ≤ d →
      (allowedIn capacity window key lo (lo + d) (.new window hashOne) cs : ℚ) ≤
        capacity + capacity * d / window) ↔ window ≤ idleTtl) := by
  refine ⟨fun key cs lo d hsorted hd hok ↦ allowedIn_le hwindow hashOne hsorted hd hok,
    fun hall ↦ ?_, fun hle key cs lo d hsorted hd ↦ ?_⟩
  · have h := hall [] (twoBursts capacity []) 0 idleTtl (pairwise_twoBursts capacity [])
      (by decide)
    rw [zero_add, allowedIn_twoBursts hashOne hcapacity, Nat.cast_add] at h
    have hcap : (0 : ℚ) < capacity := Nat.cast_pos.2 hcapacity
    have hdiv : (capacity : ℚ) ≤ capacity * idleTtl / window := by linarith
    rw [le_div_iff₀ hwindow] at hdiv
    exact le_of_mul_le_mul_left hdiv hcap
  · refine allowedIn_le hwindow hashOne hsorted hd ?_
    cases cs with
    | nil => trivial
    | cons c cs =>
      have hlate : ∀ e ∈ c :: cs, c.now ≤ e.now :=
        List.forall_mem_cons.2 ⟨le_refl _, (List.pairwise_cons.1 hsorted).1⟩
      exact noEarlyEviction_of_window_le hwindow hle nofun hsorted hlate

/-- Three calls within half a minute, at five per minute. -/
theorem allowedIn_le_iff_five_per_minute :
    (allowedIn 5 60 [] 0 (0 + 30) (.new 60 List.length) [⟨[], 0⟩, ⟨[], 10⟩, ⟨[], 20⟩] : ℚ) ≤
      (5 : ℕ) + (5 : ℕ) * 30 / 60 :=
  (allowedIn_le_iff (by decide) (by decide) List.length).2.2 (by decide) [] _ 0 30
    (by decide) (by decide)

/-- One call every ten minutes, and two are allowed within five. -/
theorem two_allowed_within_one_window :
    ¬ (allowedIn 1 600 [] 0 (0 + idleTtl) (.new 600 List.length) (twoBursts 1 []) : ℚ) ≤
      (1 : ℕ) + (1 : ℕ) * idleTtl / 600 := by
  rw [zero_add, allowedIn_twoBursts List.length (le_refl 1), idleTtl]
  norm_num

end Bound

-- From here on the store is used through the lemmas above only.
attribute [irreducible] BucketStore.tryConsume

end RateLimit
