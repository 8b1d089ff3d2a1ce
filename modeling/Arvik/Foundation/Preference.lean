import Mathlib.Data.List.Basic
import Mathlib.Data.List.Induction

/-!
# Weighted preferences

A list of entries gives weights to keys. Of several entries for one key the last one counts, and a
key without an entry takes the weight of a wildcard. Among the keys that are offered, in order of
preference, the first one is selected whose weight is accepted.

Entries that are added behind the others can overrule what the others say about a key (`Overrules`).
Whether the selection changes depends on the keys that are overruled and on where they stand among
the offered ones (`find?_accepts_append_iff`).

The last part is a fact about searches: two of them through one list find the same element exactly
if every element about which they differ comes behind one that both accept (`find?_eq_find?_iff`).
The weights are of any type with a test, since a negotiation compares them with zero and not with
each other.
-/

namespace Preference

/-! ### Entries behind the others -/

/-- Whatever is accepted, the first accepted of the keys is among the first ones, if these hold all
keys there are. -/
theorem find?_append_iff {κ : Type*} [BEq κ] [LawfulBEq κ] {xs ys : List κ} :
    (∀ accepted : List κ, xs.find? (· ∈ accepted) = (xs ++ ys).find? (· ∈ accepted)) ↔
      ∀ key ∈ xs ++ ys, key ∈ xs := by
  constructor
  · intro h key hkey
    by_contra hxs
    have hnone : xs.find? (· ∈ [key]) = none := by
      refine List.find?_eq_none.2 fun x hx hmem ↦ hxs ?_
      rwa [← List.mem_singleton.1 (of_decide_eq_true hmem)]
    rw [h] at hnone
    exact List.find?_eq_none.1 hnone key hkey (decide_eq_true List.mem_cons_self)
  · intro h accepted
    rw [List.find?_append]
    rcases hxs : xs.find? (· ∈ accepted) with - | key
    · -- what no key of the first ones is, no later key is either
      have hys : ys.find? (· ∈ accepted) = none :=
        List.find?_eq_none.2 fun y hy ↦
          List.find?_eq_none.1 hxs y (h y (List.mem_append_right xs hy))
      rw [hys]
      rfl
    · rfl

variable {κ ω : Type*} [DecidableEq κ]

/-! ### The last entry for a key -/

/-- What the last entry for a key says. -/
def lastFor (entries : List (κ × ω)) (key : κ) : Option ω :=
  (entries.reverse.find? fun entry ↦ entry.1 = key).map Prod.snd

@[simp]
theorem lastFor_nil (key : κ) : lastFor ([] : List (κ × ω)) key = none :=
  rfl

theorem lastFor_append (xs ys : List (κ × ω)) (key : κ) :
    lastFor (xs ++ ys) key = (lastFor ys key).or (lastFor xs key) := by
  rw [lastFor, List.reverse_append, List.find?_append, lastFor, lastFor]
  cases ys.reverse.find? fun entry ↦ entry.1 = key <;> rfl

theorem lastFor_concat (xs : List (κ × ω)) (entry : κ × ω) (key : κ) :
    lastFor (xs ++ [entry]) key = if entry.1 = key then some entry.2 else lastFor xs key := by
  rw [lastFor_append]
  by_cases h : entry.1 = key
  · simp [lastFor, h]
  · simp [lastFor, h]

/-- Entries for another key do not count. -/
theorem lastFor_filter_ne {key other : κ} (h : key ≠ other) (xs : List (κ × ω)) :
    lastFor (xs.filter fun entry ↦ entry.1 ≠ other) key = lastFor xs key := by
  induction xs using List.reverseRecOn with
  | nil => rfl
  | append_singleton xs entry ih =>
    rw [List.filter_append, lastFor_concat]
    by_cases hother : entry.1 = other
    · have hdrop : [entry].filter (fun entry ↦ entry.1 ≠ other) = [] := by simp [hother]
      rw [hdrop, List.append_nil, ih, if_neg (hother ▸ h.symm)]
    · have hkeep : [entry].filter (fun entry ↦ entry.1 ≠ other) = [entry] := by simp [hother]
      rw [hkeep, lastFor_concat, ih]

/-- Where no two entries are for one key, an entry says what it says. -/
theorem lastFor_eq_some_iff {xs : List (κ × ω)} (h : xs.Pairwise fun a b ↦ a.1 ≠ b.1) {key : κ}
    {weight : ω} : lastFor xs key = some weight ↔ (key, weight) ∈ xs := by
  induction xs using List.reverseRecOn with
  | nil => simp
  | append_singleton xs entry ih =>
    obtain ⟨hxs, -, happart⟩ := List.pairwise_append.1 h
    rw [lastFor_concat, List.mem_append, List.mem_singleton]
    by_cases hkey : entry.1 = key
    · rw [if_pos hkey]
      constructor
      · rintro hweight
        exact .inr (Prod.ext hkey.symm (Option.some.inj hweight).symm)
      · rintro (hmem | hmem)
        · exact absurd hkey.symm (happart _ hmem _ List.mem_cons_self)
        · rw [← hmem]
    · rw [if_neg hkey, ih hxs]
      exact ⟨.inl, fun hmem ↦ hmem.resolve_right fun heq ↦ hkey (heq ▸ rfl)⟩

/-- Where no two entries are for one key, their order does not matter. -/
theorem lastFor_perm {xs ys : List (κ × ω)} (hperm : xs.Perm ys)
    (h : xs.Pairwise fun a b ↦ a.1 ≠ b.1) (key : κ) : lastFor xs key = lastFor ys key := by
  have hys : ys.Pairwise fun a b ↦ a.1 ≠ b.1 := (hperm.pairwise_iff fun hne ↦ hne.symm).1 h
  ext weight
  rw [lastFor_eq_some_iff h, lastFor_eq_some_iff hys, hperm.mem_iff]

/-! ### Weights and selection -/

/-- The weight of a key: of its own last entry if there is one, else of the wildcard's. -/
def weight (wildcard : κ) (entries : List (κ × ω)) (key : κ) : Option ω :=
  (lastFor entries key).or (lastFor entries wildcard)

/-- The key has a weight, and it is positive. -/
def accepts (positive : ω → Bool) (wildcard : κ) (entries : List (κ × ω)) (key : κ) : Bool :=
  (weight wildcard entries key).any positive

variable {positive : ω → Bool} {wildcard : κ}

theorem accepts_congr {xs ys : List (κ × ω)} {key : κ} (hkey : lastFor xs key = lastFor ys key)
    (hwildcard : lastFor xs wildcard = lastFor ys wildcard) :
    accepts positive wildcard xs key = accepts positive wildcard ys key := by
  rw [accepts, weight, hkey, hwildcard, accepts, weight]

theorem accepts_perm {xs ys : List (κ × ω)} (hperm : xs.Perm ys)
    (h : xs.Pairwise fun a b ↦ a.1 ≠ b.1) (key : κ) :
    accepts positive wildcard xs key = accepts positive wildcard ys key :=
  accepts_congr (lastFor_perm hperm h key) (lastFor_perm hperm h wildcard)

/-! ### Later entries -/

/-- What entries decide about a key that come behind others: they name it, or hold the wildcard
where none of the others names it. -/
def decidedLater (wildcard : κ) (first later : List (κ × ω)) (key : κ) : Option ω :=
  (lastFor later key).or (if (lastFor first key).isSome then none else lastFor later wildcard)

/-- The later entries decide about the key, and not as the first ones do. -/
def Overrules (positive : ω → Bool) (wildcard : κ) (first later : List (κ × ω)) (key : κ) :
    Prop :=
  ∃ w, decidedLater wildcard first later key = some w ∧
    positive w ≠ accepts positive wildcard first key

theorem weight_append (first later : List (κ × ω)) (key : κ) :
    weight wildcard (first ++ later) key =
      (decidedLater wildcard first later key).or (weight wildcard first key) := by
  rw [weight, lastFor_append, lastFor_append, decidedLater, weight]
  cases lastFor later key <;> cases lastFor first key <;> cases lastFor later wildcard <;> rfl

theorem accepts_append_eq_iff {first later : List (κ × ω)} {key : κ} :
    accepts positive wildcard first key = accepts positive wildcard (first ++ later) key ↔
      ¬Overrules positive wildcard first later key := by
  rw [accepts.eq_def positive wildcard (first ++ later), weight_append, Overrules]
  cases decidedLater wildcard first later key with
  | none => simp [accepts]
  | some w => simp [eq_comm]

/-! ### Two searches -/

/-- What `find?_eq_find?_iff` asks of a list with one more element in front. -/
private theorem forall_splits_cons {α : Type*} {p q : α → Bool} {a : α} {xs : List α} :
    (∀ before x after, a :: xs = before ++ x :: after → p x ≠ q x → ∃ y ∈ before, p y ∧ q y) ↔
      p a = q a ∧ (p a ∧ q a ∨
        ∀ before x after, xs = before ++ x :: after → p x ≠ q x → ∃ y ∈ before, p y ∧ q y) := by
  constructor
  · intro h
    refine ⟨?_, ?_⟩
    · by_contra hne
      obtain ⟨y, hy, -⟩ := h [] a xs rfl hne
      exact List.not_mem_nil hy
    · by_cases hboth : p a ∧ q a
      · exact .inl hboth
      · refine .inr fun before x after hxs hne ↦ ?_
        obtain ⟨y, hy, hpq⟩ := h (a :: before) x after (congrArg _ hxs) hne
        rcases List.mem_cons.1 hy with rfl | hy
        · exact absurd hpq hboth
        · exact ⟨y, hy, hpq⟩
  · rintro ⟨ha, h⟩ before x after hxs hne
    cases before with
    | nil =>
      obtain rfl : a = x := (List.cons.inj hxs).1
      exact absurd ha hne
    | cons b before =>
      obtain ⟨rfl, htail⟩ := List.cons.inj hxs
      rcases h with hboth | h
      · exact ⟨a, List.mem_cons_self, hboth⟩
      · obtain ⟨y, hy, hpq⟩ := h before x after htail hne
        exact ⟨y, List.mem_cons_of_mem a hy, hpq⟩

/-- Two searches through a list find the same element: wherever the two conditions differ, an
earlier element meets both. -/
theorem find?_eq_find?_iff {α : Type*} {p q : α → Bool} {xs : List α} :
    xs.find? p = xs.find? q ↔
      ∀ before x after, xs = before ++ x :: after → p x ≠ q x → ∃ y ∈ before, p y ∧ q y := by
  induction xs with
  | nil => simp
  | cons a xs ih =>
    rw [forall_splits_cons, ← ih]
    rcases hp : p a <;> rcases hq : q a
    · simp [hp, hq]
    · simp only [List.find?_cons, hp, hq]
      refine iff_of_false (fun h ↦ ?_) (by simp)
      have ha := List.find?_some h
      rw [hp] at ha
      cases ha
    · simp only [List.find?_cons, hp, hq]
      refine iff_of_false (fun h ↦ ?_) (by simp)
      have ha := List.find?_some h.symm
      rw [hq] at ha
      cases ha
    · simp [hp, hq]

/-- **The selection is the one the first entries make** unless the later ones overrule them about a
key before which no key is left that both accept. -/
theorem find?_accepts_append_iff {α : Type*} (key : α → κ) {offered : List α}
    {first later : List (κ × ω)} :
    (offered.find? fun x ↦ accepts positive wildcard first (key x)) =
        (offered.find? fun x ↦ accepts positive wildcard (first ++ later) (key x)) ↔
      ∀ before x after, offered = before ++ x :: after →
        Overrules positive wildcard first later (key x) →
        ∃ y ∈ before, accepts positive wildcard first (key y) ∧
          ¬Overrules positive wildcard first later (key y) := by
  rw [find?_eq_find?_iff]
  simp only [ne_eq, accepts_append_eq_iff, not_not]
  refine forall_congr' fun before ↦ forall_congr' fun x ↦ forall_congr' fun after ↦
    imp_congr_right fun _ ↦ imp_congr_right fun _ ↦ exists_congr fun y ↦ and_congr_right fun _ ↦
      and_congr_right fun hy ↦ ?_
  rw [← accepts_append_eq_iff, hy]
  exact eq_comm

end Preference
