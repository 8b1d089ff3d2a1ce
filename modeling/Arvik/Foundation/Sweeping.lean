import Mathlib.Data.List.Induction
import Mathlib.Data.List.TakeDrop
import Mathlib.Data.Set.Card

/-!
# Stores that are swept

A store keeps a stamp for each key, that of its last touch. One in so many touches begins with a
sweep, which drops the keys whose stamps are stale by then; between the sweeps nothing is dropped.

What is kept can be told from the touches alone: `stamps_run_eq_some_iff`. So the store does not
grow with the number of keys it has ever seen. It keeps no more keys than there were touches since
the last sweep, and touches before it that were still fresh then (`ncard_held_le`).

Which touches begin with a sweep, and which stamps are stale, are parameters; a run is a list of
touches, and the induction is on its end. A key is kept (`Kept`) if it was touched and no sweep
since its last touch found it stale, which is a statement about the list in which the store does not
occur. The bound on their number counts touches and not keys, so it holds whoever chooses the keys.
-/

/-- How often a store is swept, and which stamps are stale at a time. -/
structure Sweeping (T : Type*) where
  every : ℕ
  stale : T → T → Bool

namespace Sweeping

/-- A store: the stamps it keeps, and how often it was touched. -/
structure State (K T : Type*) where
  stamps : K → Option T
  touches : ℕ

variable {K T : Type*} [DecidableEq K] (m : Sweeping T)

/-- The stamps that a touch at a time finds: those left by the sweep, if one is due. -/
def swept (s : State K T) (now : T) : K → Option T :=
  if s.touches % m.every = 0 then fun k ↦ (s.stamps k).filter fun stamp ↦ !m.stale stamp now
  else s.stamps

/-- A touch of a key at a time. -/
def touch (s : State K T) (c : K × T) : State K T where
  stamps := Function.update (m.swept s c.2) c.1 (some c.2)
  touches := s.touches + 1

/-- The store after a list of touches. -/
def run (cs : List (K × T)) : State K T :=
  cs.foldl m.touch ⟨fun _ ↦ none, 0⟩

theorem run_concat (cs : List (K × T)) (c : K × T) : m.run (cs ++ [c]) = m.touch (m.run cs) c :=
  List.foldl_concat _ _ _ _

theorem touches_run (cs : List (K × T)) : (m.run cs).touches = cs.length := by
  induction cs using List.reverseRecOn with
  | nil => rfl
  | append_singleton cs c ih =>
    rw [run_concat, List.length_append, List.length_singleton, ← ih]
    rfl

/-! ### What is kept -/

/-- A touch is the last one of its key, and no sweep since has found it stale. -/
def Kept (cs : List (K × T)) (k : K) (stamp : T) : Prop :=
  ∃ before after, cs = before ++ (k, stamp) :: after ∧ (∀ c ∈ after, c.1 ≠ k) ∧
    ∀ i c, after[i]? = some c → (before.length + 1 + i) % m.every = 0 → m.stale stamp c.2 = false

variable {m}

omit [DecidableEq K] in
/-- A touch is kept from the start, and from one touch to the next unless that is one of the same
key or finds it stale. -/
theorem kept_concat_iff {cs : List (K × T)} {c : K × T} {k : K} {stamp : T} :
    m.Kept (cs ++ [c]) k stamp ↔ c = (k, stamp) ∨
      c.1 ≠ k ∧ m.Kept cs k stamp ∧ (cs.length % m.every = 0 → m.stale stamp c.2 = false) := by
  constructor
  · rintro ⟨before, after, hcs, hlast, hfresh⟩
    rcases List.eq_nil_or_concat' after with rfl | ⟨after, d, rfl⟩
    · exact .inl (List.cons_eq_cons.1 (List.append_inj' hcs rfl).2).1
    · have hcs : cs ++ [c] = (before ++ (k, stamp) :: after) ++ [d] := by
        rw [hcs, List.append_assoc, List.cons_append]
      obtain ⟨rfl, hd⟩ := List.append_inj' hcs rfl
      obtain rfl := List.cons_eq_cons.1 hd |>.1
      refine .inr ⟨hlast c (by simp), ⟨before, after, rfl, fun e he ↦ hlast e ?_, ?_⟩, ?_⟩
      · exact List.mem_append_left _ he
      · intro i e he
        exact hfresh i e (List.getElem?_append_left (List.getElem?_eq_some_iff.1 he).1 ▸ he)
      · intro hdue
        refine hfresh after.length c List.getElem?_concat_length ?_
        rw [List.length_append, List.length_cons] at hdue
        rwa [Nat.add_assoc, Nat.add_comm 1]
  · rintro (rfl | ⟨hne, ⟨before, after, rfl, hlast, hfresh⟩, hnow⟩)
    · exact ⟨cs, [], rfl, fun e he ↦ absurd he List.not_mem_nil, fun i e he ↦ nomatch he⟩
    · refine ⟨before, after ++ [c], by rw [List.append_assoc, List.cons_append], ?_, ?_⟩
      · intro e he
        rcases List.mem_append.1 he with he | he
        · exact hlast e he
        · exact List.mem_singleton.1 he ▸ hne
      · intro i e he hdue
        rcases Nat.lt_or_ge i after.length with hi | hi
        · exact hfresh i e (List.getElem?_append_left hi ▸ he) hdue
        · -- the last touch, which comes when as many have been counted as there are before it
          rw [List.getElem?_append_right hi, List.getElem?_singleton,
            Option.ite_none_right_eq_some] at he
          obtain ⟨hi', hce⟩ := he
          obtain rfl := Option.some.inj hce
          refine hnow ?_
          rw [List.length_append, List.length_cons]
          rwa [show before.length + (after.length + 1) = before.length + 1 + i by omega]

variable (m) in
/-- **A key is held with the stamp of its last touch** exactly if no sweep since has found that
stale. -/
theorem stamps_run_eq_some_iff {cs : List (K × T)} {k : K} {stamp : T} :
    (m.run cs).stamps k = some stamp ↔ m.Kept cs k stamp := by
  induction cs using List.reverseRecOn with
  | nil => exact iff_of_false (fun h ↦ nomatch h) fun ⟨before, after, h, _⟩ ↦ by simp at h
  | append_singleton cs c ih =>
    obtain ⟨key, now⟩ := c
    rw [run_concat, kept_concat_iff, ← ih, touch]
    show Function.update (m.swept (m.run cs) now) key (some now) k = some stamp ↔ _
    by_cases hk : k = key
    · rw [hk, Function.update_self, Option.some_inj, Prod.mk.injEq, and_iff_right rfl]
      exact (or_iff_left fun h ↦ h.1 rfl).symm
    · rw [Function.update_of_ne hk, swept, touches_run,
        or_iff_right fun h ↦ hk (Prod.mk.inj h).1.symm, and_iff_right (Ne.symm hk)]
      split
      · next hdue =>
        rw [Option.filter_eq_some_iff, Bool.not_eq_true']
        exact and_congr_right fun _ ↦ ⟨fun h _ ↦ h, fun h ↦ h hdue⟩
      · next hdue =>
        rw [and_iff_left fun h ↦ absurd h hdue]

/-! ### How much is kept -/

variable (m)

/-- The position of the last touch that began with a sweep. -/
def lastSweep (cs : List (K × T)) : ℕ :=
  (cs.length - 1) / m.every * m.every

/-- The touches before the last sweep which that found fresh. -/
def fresh (cs : List (K × T)) : List (K × T) :=
  (cs.take (m.lastSweep cs)).filter fun c ↦ cs[m.lastSweep cs]?.all fun d ↦ !m.stale c.2 d.2

/-- The keys a store holds. -/
def held (cs : List (K × T)) : Set K :=
  {k | ((m.run cs).stamps k).isSome}

variable {m}

/-- What a store holds was touched since the last sweep, or was fresh then. -/
theorem held_subset (cs : List (K × T)) :
    m.held cs ⊆ {k | k ∈ (m.fresh cs ++ cs.drop (m.lastSweep cs)).map Prod.fst} := by
  intro k hk
  obtain ⟨stamp, hstamp⟩ := Option.isSome_iff_exists.1 hk
  obtain ⟨before, after, hcs, -, hfresh⟩ := (m.stamps_run_eq_some_iff).1 hstamp
  refine List.mem_map.2 ⟨(k, stamp), ?_, rfl⟩
  have htouch : cs[before.length]? = some (k, stamp) := by
    rw [hcs, List.getElem?_append_right le_rfl, Nat.sub_self]
    rfl
  rcases Nat.lt_or_ge before.length (m.lastSweep cs) with hlt | hge
  · refine List.mem_append_left _ (List.mem_filter.2 ⟨?_, ?_⟩)
    · exact List.mem_of_getElem? ((List.getElem?_take_of_lt hlt).trans htouch)
    · -- the last sweep came after the touch, and did not find it stale
      rw [Option.all_eq_true]
      intro d hd
      obtain ⟨i, hi⟩ := Nat.exists_eq_add_of_lt hlt
      have hafter : after[i]? = some d := by
        rw [hi, hcs, List.getElem?_append_right (by omega)] at hd
        rwa [show before.length + i + 1 - before.length = i + 1 by omega,
          List.getElem?_cons_succ] at hd
      rw [hfresh i d hafter (by
        rw [show before.length + 1 + i = m.lastSweep cs by omega]
        exact Nat.mul_mod_left _ _)]
      rfl
  · refine List.mem_append_right _ (List.mem_of_getElem? (i := before.length - m.lastSweep cs) ?_)
    rw [List.getElem?_drop, Nat.add_sub_cancel' hge, htouch]

omit [DecidableEq K] in
/-- A sweep comes at the latest after so many touches. -/
theorem length_drop_lastSweep_le (hevery : 0 < m.every) (cs : List (K × T)) :
    (cs.drop (m.lastSweep cs)).length ≤ m.every := by
  rw [List.length_drop, lastSweep]
  have hmod := Nat.div_add_mod' (cs.length - 1) m.every
  have hlt := Nat.mod_lt (cs.length - 1) hevery
  omega

/-- **A store holds no more keys than there are touches from one sweep to the next**, and touches
that were fresh when it was last swept. -/
theorem ncard_held_le (hevery : 0 < m.every) (cs : List (K × T)) :
    (m.held cs).ncard ≤ m.every + (m.fresh cs).length := by
  let keys := (m.fresh cs ++ cs.drop (m.lastSweep cs)).map Prod.fst
  have hkeys : {k | k ∈ keys} = (keys.toFinset : Set K) := by
    ext k
    exact List.mem_toFinset.symm
  calc (m.held cs).ncard
      ≤ (keys.toFinset : Set K).ncard :=
        Set.ncard_le_ncard (hkeys ▸ held_subset cs) (Finset.finite_toSet _)
    _ = keys.toFinset.card := Set.ncard_coe_finset _
    _ ≤ keys.length := List.toFinset_card_le _
    _ = (m.fresh cs).length + (cs.drop (m.lastSweep cs)).length := by
        rw [List.length_map, List.length_append]
    _ ≤ m.every + (m.fresh cs).length := by
        have hdrop := length_drop_lastSweep_le hevery cs
        omega

end Sweeping
