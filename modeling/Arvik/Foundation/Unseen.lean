import Mathlib.Data.List.Basic

/-!
# Effects that cannot be seen

Computations that read a state and may change it, for example to remember what they found. A veil
says which states look alike and which are in order. A computation is *steady* if its changes cannot
be seen: it leaves the state in order and looking as before, and its result is the same at states
that look alike.

So it does not matter in which state a steady computation finds things: whatever is blind to such
changes may as well be done before it (`Steady.after`), and steady computations one after another
find what each would have found at first (`Steady.fst_bind`).

Both conditions of a veil are needed for a cache. An empty cache and one that was filled look alike,
but a cache with a wrong entry looks the same until somebody reads it, and is therefore not in
order. Steady computations are closed under the operations of the monad, so a program made of them
is steady by its shape.
-/

universe u v w

/-- Which states look alike, and which are in order. -/
structure Veil (σ : Type u) where
  Alike : σ → σ → Prop
  Fit : σ → Prop
  refl : ∀ s, Alike s s
  trans : ∀ {s t r}, Alike s t → Alike t r → Alike s r

namespace Veil

variable {σ : Type u} {α : Type v} {β : Type w} (F : Veil σ)

/-- A reading that is the same at states that look alike. -/
def Blind (read : σ → α) : Prop :=
  ∀ s t, F.Fit s → F.Fit t → F.Alike s t → read s = read t

/-- A computation whose changes cannot be seen. -/
structure Steady (run : σ → α × σ) : Prop where
  fit : ∀ s, F.Fit s → F.Fit (run s).2
  alike : ∀ s, F.Fit s → F.Alike s (run s).2
  blind : F.Blind fun s ↦ (run s).1

variable {F} {read : σ → β} {run : σ → α × σ}

/-- A reading may as well be done before a steady computation. -/
theorem Steady.after (h : F.Steady run) (hread : F.Blind read) {s : σ} (hs : F.Fit s) :
    read (run s).2 = read s :=
  (hread s (run s).2 hs (h.fit s hs) (h.alike s hs)).symm

/-- A reading that changes nothing. -/
theorem Blind.steady (h : F.Blind read) : F.Steady fun s ↦ (read s, s) where
  fit _ hs := hs
  alike s _ := F.refl s
  blind := h

/-- A result that does not depend on the state. -/
theorem steady_pure (a : α) : F.Steady fun s ↦ (a, s) where
  fit _ hs := hs
  alike s _ := F.refl s
  blind _ _ _ _ _ := rfl

theorem Blind.map {γ : Type*} (f : β → γ) (h : F.Blind read) : F.Blind fun s ↦ f (read s) :=
  fun s t hs ht hst ↦ congrArg f (h s t hs ht hst)

theorem Steady.map (f : α → β) (h : F.Steady run) : F.Steady fun s ↦ (f (run s).1, (run s).2) where
  fit := h.fit
  alike := h.alike
  blind := h.blind.map f

section Bind

variable {next : α → σ → β × σ}

/-- The second computation finds what it would have found at first. -/
theorem Steady.fst_bind (h : F.Steady run) (hnext : ∀ a, F.Steady (next a)) {s : σ}
    (hs : F.Fit s) : (next (run s).1 (run s).2).1 = (next (run s).1 s).1 :=
  h.after (hnext (run s).1).blind hs

/-- One steady computation after another. -/
theorem Steady.bind (h : F.Steady run) (hnext : ∀ a, F.Steady (next a)) :
    F.Steady fun s ↦ next (run s).1 (run s).2 where
  fit s hs := (hnext _).fit _ (h.fit s hs)
  alike s hs := F.trans (h.alike s hs) ((hnext _).alike _ (h.fit s hs))
  blind s t hs ht hst := by
    have hrun : (run s).1 = (run t).1 := h.blind s t hs ht hst
    show (next (run s).1 (run s).2).1 = (next (run t).1 (run t).2).1
    rw [h.fst_bind hnext hs, h.fst_bind hnext ht, hrun]
    exact (hnext (run t).1).blind s t hs ht hst

end Bind

end Veil
