import Arvik.Foundation.Sweeping
import Arvik.Middleware.RateLimit

/-!
# Which buckets the rate limiter holds

A client can send as many keys as it likes, and each of them gets a bucket; the sweep is there so
that the store does not grow without bound. Every shard of the store is a swept store in the sense
of `Sweeping`, whose stamps are those its buckets were last seen with (`Tracks`), whatever the
buckets do with their tokens.

So which buckets are held can be told from the calls (`map_bucket_after_eq_some_iff`). A shard holds
at most `sweepEvery` buckets more than the calls it gets within `idleTtl` seconds
(`ncard_buckets_after_le`); how many keys were sent before does not matter.

A call touches the key it is for, in the shard of that key, and leaves the other shards as they are.
`Tracks` is therefore kept by a call in two cases only, and after any calls the stamps of a shard
are those of the swept store after the touches that fell into it (`tracks_after`); the two results
are those of the swept store from there. The counter of a shard is a machine word that wraps, and
since the interval between sweeps divides its range, a wrap does not move the sweeps.
-/

namespace RateLimit

/-- How a shard is swept. -/
def sweeping : Sweeping ℚ where
  every := sweepEvery
  stale stamp now := idleTtl ≤ elapsedSince stamp now

theorem not_stale (stamp now : ℚ) :
    (!sweeping.stale stamp now) = decide (elapsedSince stamp now < idleTtl) := by
  show (!decide (idleTtl ≤ elapsedSince stamp now)) = _
  rw [← decide_not, decide_eq_decide, not_le]

/-- The calls of a shard, as touches of its keys. -/
def touches (store : BucketStore) (index : Fin 32) (cs : List Call) : List (Str × ℚ) :=
  (cs.filter fun c ↦ store.shardIndex c.key = index).map fun c ↦ (c.key, c.now)

theorem touches_concat (store : BucketStore) (index : Fin 32) (cs : List Call) (c : Call) :
    touches store index (cs ++ [c]) = touches store index cs ++
      if store.shardIndex c.key = index then [(c.key, c.now)] else [] := by
  rw [touches, List.filter_append, List.map_append, touches]
  congr 1
  by_cases h : store.shardIndex c.key = index
  · simp [h]
  · simp [h]

/-! ### A shard is a swept store -/

/-- A shard holds the keys that a swept store holds, each with its stamp. The calls are counted
with 64 bits. -/
structure Tracks (shard : Shard) (s : Sweeping.State Str ℚ) : Prop where
  stamps : ∀ key, (shard.buckets key).map Bucket.lastSeen = s.stamps key
  calls : shard.calls = s.touches % 2 ^ 64

theorem Bucket.lastSeen_tryConsume (b : Bucket) (now : ℚ) :
    (b.tryConsume now).1.lastSeen = now := by
  rw [Bucket.tryConsume]
  split
  · rfl
  · rfl

/-- The sweep leaves the keys that the sweep of the other store leaves. -/
theorem Tracks.map_swept {shard : Shard} {s : Sweeping.State Str ℚ} (h : Tracks shard s) (now : ℚ)
    (key : Str) :
    (shard.swept now key).map Bucket.lastSeen = sweeping.swept s now key := by
  -- the counter wraps around at a multiple of what it is taken modulo
  have hcalls : shard.calls % sweepEvery = s.touches % sweepEvery := by
    rw [h.calls, Nat.mod_mod_of_dvd]
    exact ⟨2 ^ 52, rfl⟩
  rw [Shard.swept, Sweeping.swept, hcalls]
  show Option.map _ ((if s.touches % sweepEvery = 0 then _ else shard.buckets : Str → _) key) =
    (if s.touches % sweepEvery = 0 then _ else s.stamps : Str → _) key
  split
  · show ((shard.buckets key).filter _).map _ = (s.stamps key).filter _
    rw [← h.stamps]
    rcases shard.buckets key with - | b
    · rfl
    · rw [Option.map_some, Option.filter_some, Option.filter_some, Option.map_if]
      rw [not_stale]
  · exact h.stamps key

/-- A call touches its key. -/
theorem Tracks.tryConsume {shard : Shard} {s : Sweeping.State Str ℚ} (h : Tracks shard s)
    (key : Str) (capacity : ℕ) (window now : ℚ) :
    Tracks (shard.tryConsume key capacity window now).1 (sweeping.touch s (key, now)) where
  stamps k := by
    let bucket := (shard.swept now key).getD (.new capacity window now)
    show (Function.update (shard.swept now) key (some (bucket.tryConsume now).1) k).map _ =
      Function.update (sweeping.swept s now) key (some now) k
    by_cases hk : k = key
    · rw [hk, Function.update_self, Function.update_self, Option.map_some,
        Bucket.lastSeen_tryConsume]
    · rw [Function.update_of_ne hk, Function.update_of_ne hk, h.map_swept]
  calls := by
    show (shard.calls + 1) % 2 ^ 64 = (s.touches + 1) % 2 ^ 64
    rw [h.calls, Nat.mod_add_mod]

section Runs

variable (capacity : ℕ) (window : ℚ)

/-- Every shard tracks the swept store that its calls touch. -/
theorem tracks_after (hashOne : Str → ℕ) (cs : List Call) (index : Fin 32) :
    Tracks ((after capacity window (.new window hashOne) cs).shards index)
      (sweeping.run (touches (.new window hashOne) index cs)) := by
  induction cs using List.reverseRecOn with
  | nil => exact ⟨fun _ ↦ rfl, rfl⟩
  | append_singleton cs c ih =>
    rw [after, List.foldl_concat, ← after, shards_next, shardIndex_after, touches_concat]
    split
    · next hindex =>
      subst hindex
      rw [Sweeping.run_concat, Function.update_self]
      exact ih.tryConsume _ _ _ _
    · next hindex =>
      rw [List.append_nil, Function.update_of_ne (Ne.symm hindex)]
      exact ih

/-! ### What is held -/

/-- **A bucket is held from the last call of its key on** until a sweep of its shard finds it idle
for the time to live, and it was last seen at that call. -/
theorem map_bucket_after_eq_some_iff (hashOne : Str → ℕ) (cs : List Call) (key : Str) (t : ℚ) :
    ((after capacity window (.new window hashOne) cs).bucket key).map Bucket.lastSeen = some t ↔
      sweeping.Kept
        (touches (.new window hashOne) ((BucketStore.new window hashOne).shardIndex key) cs) key
        t := by
  rw [BucketStore.bucket, shardIndex_after, (tracks_after capacity window hashOne cs _).stamps,
    Sweeping.stamps_run_eq_some_iff]

/-- The calls of a shard in the time to live up to some moment. -/
def callsWithin (store : BucketStore) (index : Fin 32) (t : ℚ) (cs : List Call) : ℕ :=
  cs.countP fun c ↦ store.shardIndex c.key = index ∧ t - idleTtl < c.now ∧ c.now ≤ t

/-- In the order of time, what a sweep finds fresh are calls of the time to live before it. -/
theorem exists_length_fresh_le {store : BucketStore} {index : Fin 32} {cs : List Call}
    (hsorted : cs.Pairwise fun c d ↦ c.now ≤ d.now) :
    ∃ t, (sweeping.fresh (touches store index cs)).length ≤ callsWithin store index t cs := by
  have htouches : (touches store index cs).Pairwise fun c d ↦ c.2 ≤ d.2 :=
    List.pairwise_map.2 (hsorted.filter _)
  have hcount : ∀ t, callsWithin store index t cs =
      (touches store index cs).countP fun c ↦ t - idleTtl < c.2 ∧ c.2 ≤ t := by
    intro t
    rw [touches, List.countP_map, List.countP_filter]
    refine List.countP_congr fun c _ ↦ ?_
    simp only [Function.comp_apply, decide_eq_true_eq, Bool.and_eq_true]
    exact and_comm
  generalize touches store index cs = ts at htouches hcount
  rcases hsweep : ts[sweeping.lastSweep ts]? with - | ⟨key, now⟩
  · -- no call at all, so that nothing was swept
    have hnil : ts.length ≤ sweeping.lastSweep ts := List.getElem?_eq_none_iff.1 hsweep
    rw [Sweeping.lastSweep] at hnil
    have hle := Nat.div_mul_le_self (ts.length - 1) sweeping.every
    have hts : ts = [] := List.eq_nil_of_length_eq_zero (by omega)
    exact ⟨0, hts ▸ Nat.zero_le _⟩
  · refine ⟨now, ?_⟩
    rw [hcount, Sweeping.fresh, hsweep, ← List.countP_eq_length_filter]
    refine le_trans (List.countP_mono_left fun c hc hfresh ↦ ?_)
      (List.take_sublist (sweeping.lastSweep ts) ts).countP_le
    -- a touch before the sweep is none of a later time
    obtain ⟨hlt, hget⟩ := List.getElem?_eq_some_iff.1 hsweep
    have hmem : (key, now) ∈ ts.drop (sweeping.lastSweep ts) := by
      rw [List.drop_eq_getElem_cons hlt, hget]
      exact List.mem_cons_self
    have hle : c.2 ≤ now := (List.pairwise_append.1
      ((List.take_append_drop (sweeping.lastSweep ts) ts).symm ▸ htouches)).2.2 c hc (key, now) hmem
    have hidle : elapsedSince c.2 now < idleTtl := by
      rw [Option.all_some, not_stale] at hfresh
      exact of_decide_eq_true hfresh
    rw [elapsedSince_of_le hle] at hidle
    exact decide_eq_true ⟨by linarith, hle⟩

/-- **A shard holds at most `sweepEvery` buckets more than the calls it gets within the time to
live**, however many keys it has seen. -/
theorem ncard_buckets_after_le (hashOne : Str → ℕ) {cs : List Call} {index : Fin 32} {most : ℕ}
    (hsorted : cs.Pairwise fun c d ↦ c.now ≤ d.now)
    (hmost : ∀ t, callsWithin (.new window hashOne) index t cs ≤ most) :
    {key | (((after capacity window (.new window hashOne) cs).shards index).buckets
      key).isSome}.ncard ≤ sweepEvery + most := by
  have htracks := tracks_after capacity window hashOne cs index
  have hheld : {key | (((after capacity window (.new window hashOne) cs).shards index).buckets
      key).isSome} = sweeping.held (touches (.new window hashOne) index cs) := by
    ext key
    show Option.isSome _ = true ↔ Option.isSome _ = true
    rw [← htracks.stamps, Option.isSome_map]
  obtain ⟨t, ht⟩ : ∃ t, (sweeping.fresh (touches (.new window hashOne) index cs)).length ≤
      callsWithin (.new window hashOne) index t cs := exists_length_fresh_le hsorted
  rw [hheld]
  exact (Sweeping.ncard_held_le (by decide) _).trans
    (Nat.add_le_add_left (ht.trans (hmost t)) _)

/-- Two calls for one key. -/
theorem ncard_buckets_after_two_calls :
    {key | (((after 5 60 (.new 60 List.length) [⟨[], 0⟩, ⟨[], 10⟩]).shards 0).buckets
      key).isSome}.ncard ≤ sweepEvery + 2 :=
  ncard_buckets_after_le 5 60 List.length (by decide) fun _ ↦ List.countP_le_length

end Runs

end RateLimit
