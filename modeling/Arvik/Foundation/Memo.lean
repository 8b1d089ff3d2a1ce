import Mathlib.Data.List.Basic
import Mathlib.Logic.Function.Basic

/-!
# Memo tables

A memo table keeps the first value computed for each key and answers every later request for that
key from the table. Computing may fail for good, by a panic under the table's lock: the table is
then poisoned, and nothing is answered any more.

`results_eq_map_iff` is the whole theory: a table started empty answers every request of a history
with the value computed for that very request exactly if each value can be computed, and requests
with equal keys have equal values.

The converse holds because the history is whatever it is: the first request for a key puts its value
in, and a later one with another value would be answered wrongly. The induction therefore needs a
table that is not empty any more, and `Agrees` is what such a table has to do with the requests to
come: under the key of a request there is nothing, or its value (`results_eq_map_iff_of_agrees`).
-/

/-- A memo table. -/
structure Memo (K V : Type*) where
  entries : K → Option V
  poisoned : Bool

namespace Memo

variable {A K V : Type*} [DecidableEq K]

/-- The table without entries. -/
def new : Memo K V where
  entries _ := none
  poisoned := false

/-- Add an entry. -/
def insert (self : Memo K V) (k : K) (v : V) : Memo K V where
  entries := Function.update self.entries k (some v)
  poisoned := self.poisoned

variable (key : A → K) (compute : A → Option V)

/-- One request: answered from the table, or else computed and kept. -/
def request (self : Memo K V) (a : A) : Option V × Memo K V :=
  if self.poisoned then (none, self)
  else match self.entries (key a) with
    | some v => (some v, self)
    | none => match compute a with
      | some v => (some v, self.insert (key a) v)
      | none => (none, { self with poisoned := true })

/-- The answers to a history of requests. -/
def results : Memo K V → List A → List (Option V)
  | _, [] => []
  | self, a :: history =>
    (self.request key compute a).1 :: results (self.request key compute a).2 history

variable {key compute} {self : Memo K V} {a b : A} {v : V}

theorem request_of_hit (hp : self.poisoned = false) (h : self.entries (key a) = some v) :
    self.request key compute a = (some v, self) := by
  rw [request, if_neg (by simp [hp]), h]

theorem request_of_miss (hp : self.poisoned = false) (h : self.entries (key a) = none)
    (hv : compute a = some v) :
    self.request key compute a = (some v, self.insert (key a) v) := by
  rw [request, if_neg (by simp [hp]), h, hv]

/-- The table answers a request with the value computed for it. -/
def Agrees (key : A → K) (compute : A → Option V) (self : Memo K V) (a : A) : Prop :=
  ∀ v, self.entries (key a) = some v → compute a = some v

/-- A request the table agrees with is answered with the value computed for it, and the value is in
the table afterwards. -/
theorem request_of_agrees (hp : self.poisoned = false) (hv : compute a = some v)
    (h : self.Agrees key compute a) :
    (self.request key compute a).1 = some v ∧
      (self.request key compute a).2.poisoned = false ∧
      (self.request key compute a).2.entries =
        Function.update self.entries (key a) (some v) := by
  rcases he : self.entries (key a) with - | w
  · rw [request_of_miss hp he hv]
    exact ⟨rfl, hp, rfl⟩
  · obtain rfl : w = v := Option.some.inj ((h w he).symm.trans hv)
    rw [request_of_hit hp he]
    exact ⟨rfl, hp, (Function.update_eq_self_iff.2 he.symm).symm⟩

/-- The table agrees with every request it answers with the value computed for it. -/
theorem agrees_of_request_eq (hp : self.poisoned = false)
    (h : (self.request key compute a).1 = compute a) : self.Agrees key compute a := by
  intro v hv
  rw [request_of_hit hp hv] at h
  exact h.symm

/-- A table answers a history correctly exactly if it agrees with every request of it and the
requests agree with each other. -/
theorem results_eq_map_iff_of_agrees {history : List A} (hp : self.poisoned = false)
    (hsome : ∀ a ∈ history, (compute a).isSome) :
    self.results key compute history = history.map compute ↔
      (∀ a ∈ history, self.Agrees key compute a) ∧
        ∀ a ∈ history, ∀ b ∈ history, key a = key b → compute a = compute b := by
  induction history generalizing self with
  | nil => simp [results]
  | cons a history ih =>
    obtain ⟨ha, hsome⟩ := List.forall_mem_cons.1 hsome
    obtain ⟨v, hv⟩ := Option.isSome_iff_exists.1 ha
    rw [results, List.map_cons, List.cons.injEq]
    -- what the table agrees with after the request
    have hafter : self.Agrees key compute a →
        ((self.request key compute a).2.results key compute history = history.map compute ↔
          (∀ b ∈ history, self.Agrees key compute b ∧ (key b = key a → compute b = compute a)) ∧
            ∀ b ∈ history, ∀ c ∈ history, key b = key c → compute b = compute c) := by
      intro hagrees
      obtain ⟨-, hp', hentries⟩ := request_of_agrees hp hv hagrees
      rw [ih hp' hsome]
      refine and_congr_left fun _ ↦ forall₂_congr fun b _ ↦ ?_
      rw [Agrees, hentries]
      by_cases hkey : key b = key a
      · have hval : Function.update self.entries (key a) (some v) (key b) = some v := by
          rw [hkey, Function.update_self]
        rw [hval]
        refine ⟨fun h ↦ ⟨fun w hw ↦ ?_, fun _ ↦ (h v rfl).trans hv.symm⟩, fun h w hw ↦ ?_⟩
        · rw [h v rfl, ← hagrees w (hkey ▸ hw), hv]
        · rw [h.2 hkey, hv, hw]
      · rw [Function.update_of_ne hkey]
        exact ⟨fun h ↦ ⟨h, fun h' ↦ absurd h' hkey⟩, And.left⟩
    constructor
    · rintro ⟨hhead, htail⟩
      have hagrees := agrees_of_request_eq hp hhead
      obtain ⟨hrest, hpairs⟩ := (hafter hagrees).1 htail
      refine ⟨List.forall_mem_cons.2 ⟨hagrees, fun b hb ↦ (hrest b hb).1⟩,
        List.forall_mem_cons.2 ⟨List.forall_mem_cons.2 ⟨fun _ ↦ rfl, fun b hb hkey ↦ ?_⟩,
          fun b hb ↦ List.forall_mem_cons.2 ⟨fun hkey ↦ (hrest b hb).2 hkey, hpairs b hb⟩⟩⟩
      exact ((hrest b hb).2 hkey.symm).symm
    · rintro ⟨hall, hpairs⟩
      obtain ⟨hagrees, hrest⟩ := List.forall_mem_cons.1 hall
      refine ⟨(request_of_agrees hp hv hagrees).1.trans hv.symm, (hafter hagrees).2 ⟨?_, ?_⟩⟩
      · intro b hb
        exact ⟨hrest b hb, hpairs b (List.mem_cons_of_mem _ hb) a List.mem_cons_self⟩
      · intro b hb c hc
        exact hpairs b (List.mem_cons_of_mem _ hb) c (List.mem_cons_of_mem _ hc)

/-- A table started empty answers every request of a history with the value computed for it exactly
if every value can be computed, and requests with equal keys have equal values. -/
theorem results_eq_map_iff {history : List A} :
    ((new : Memo K V).results key compute history = history.map compute ∧
        ∀ a ∈ history, (compute a).isSome) ↔
      (∀ a ∈ history, ∀ b ∈ history, key a = key b → compute a = compute b) ∧
        ∀ a ∈ history, (compute a).isSome := by
  refine and_congr_left fun hsome ↦ (results_eq_map_iff_of_agrees rfl hsome).trans ?_
  exact and_iff_right fun a _ v hv ↦ nomatch hv

end Memo
