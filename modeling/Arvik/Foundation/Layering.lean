import Mathlib.Data.List.Basic

/-!
# Layers around a function

A layer turns a function into a function of the same type, and a list of layers is applied from the
inside out. A layer may do anything with the function it is given; one that asks it only for
arguments with the same key as its own argument *keeps* that key. Under layers that keep a key, a
function matters only at the arguments with one key (`applyAll_congr`).

The stack of a server, the layers a router has recorded and those of a single route are all
instances, with services or handlers for the functions. What is proved about one layer is carried
through a stack by `applyAll_induction`, and the order of two lists by `applyAll_append`; no module
above unfolds the fold.
-/

namespace Layering

variable {L A B K : Type*}

/-- A function inside all the layers of a list, the first one innermost. -/
def applyAll (wrap : L → (A → B) → A → B) (base : A → B) (layers : List L) : A → B :=
  layers.foldl (fun f layer ↦ wrap layer f) base

variable {wrap : L → (A → B) → A → B}

theorem applyAll_cons (base : A → B) (layer : L) (layers : List L) :
    applyAll wrap base (layer :: layers) = applyAll wrap (wrap layer base) layers :=
  rfl

theorem applyAll_append (base : A → B) (layers outer : List L) :
    applyAll wrap base (layers ++ outer) = applyAll wrap (applyAll wrap base layers) outer :=
  List.foldl_append

/-- **What the function inside satisfies and every layer keeps holds inside all layers.** Nothing is
asked of the property, so it may speak of how the function is used as well as of its values. -/
theorem applyAll_induction {P : (A → B) → Prop} {base : A → B} {layers : List L} (hbase : P base)
    (hlayers : ∀ layer ∈ layers, ∀ f, P f → P (wrap layer f)) : P (applyAll wrap base layers) := by
  induction layers generalizing base with
  | nil => exact hbase
  | cons layer layers ih =>
    obtain ⟨hlayer, hlayers⟩ := List.forall_mem_cons.1 hlayers
    exact ih (hlayer base hbase) hlayers

/-- A layer that asks the function inside for arguments with one key only. -/
def Keeps (key : A → K) (layer : (A → B) → A → B) : Prop :=
  ∀ f g a, (∀ a', key a' = key a → f a' = g a') → layer f a = layer g a

/-- **Two functions that agree at one key agree there inside layers that keep the key.** From one
layer to the next the agreement stays one at the key, which is what a layer asks of its inside. -/
theorem applyAll_congr {key : A → K} {layers : List L}
    (hlayers : ∀ layer ∈ layers, Keeps key (wrap layer)) {f g : A → B} {a : A}
    (h : ∀ a', key a' = key a → f a' = g a') :
    applyAll wrap f layers a = applyAll wrap g layers a := by
  induction layers generalizing f g with
  | nil => exact h a rfl
  | cons layer layers ih =>
    obtain ⟨hlayer, hlayers⟩ := List.forall_mem_cons.1 hlayers
    rw [applyAll_cons, applyAll_cons]
    exact ih hlayers fun a' ha' ↦ hlayer f g a' fun a'' ha'' ↦ h a'' (ha''.trans ha')

end Layering
