import Mathlib.Data.List.Induction

/-!
# Admission one by one

Items are admitted one after the other, and the run stops at the first item that is refused. What
the run decides is said of the list of items alone: it is accepted in a state, or it is refused.

The induction is on the end of the list, since it is the last item that is decided on, with all
items before it admitted. A list that is refused stays refused whatever comes after it, so two facts
are enough: what becomes of one more item of an accepted list, and that refusal is final
(`decides_foldlM`).

The run is a fold in a monad of failures, as it stands in a program that returns at the first error.
Whoever uses the rule gives a specification of lists, by no means a recursive one, and gets that the
program computes it; for the routes of a router the specification is that no two of them are in each
other's way.
-/

namespace Admission

variable {σ α : Type*}

/-- What a run says of the items: they are accepted in a state, or refused. -/
def Decides (accepted : σ → List α → Prop) (refused : List α → Prop) (items : List α) :
    Option σ → Prop
  | some s => accepted s items
  | none => refused items

variable {step : σ → α → Option σ} {accepted : σ → List α → Prop} {refused : List α → Prop}
  (hstep : ∀ s items a, accepted s items → Decides accepted refused (items ++ [a]) (step s a))
  (hfinal : ∀ items a, refused items → refused (items ++ [a]))

include hstep hfinal

/-- **Every run decides its items**, if every step decides on one more. The induction takes the last
item away: the items before it are accepted in some state, or refused for good. -/
theorem decides_foldlM {s : σ} (h : accepted s []) (items : List α) :
    Decides accepted refused items (items.foldlM step s) := by
  induction items using List.reverseRecOn with
  | nil => exact h
  | append_singleton items a ih =>
    rw [List.foldlM_append]
    rcases hrun : items.foldlM step s with - | s'
    · rw [hrun] at ih
      exact hfinal items a ih
    · rw [hrun] at ih
      have hnext := hstep s' items a ih
      have hfold : [a].foldlM step s' = step s' a := by
        rw [List.foldlM_cons]
        exact bind_pure _
      rwa [Option.bind_eq_bind, Option.bind_some, hfold]

end Admission
