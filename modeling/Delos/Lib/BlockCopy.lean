import Mathlib.Data.List.Range
import Mathlib.Logic.Function.Basic

/-!
# Copies inside one memory

A copy goes through its indices in some order and stores what it reads at that moment. As
long as no cell is read or stored to after an earlier index has stored to it, the result is
the copy of what the memory held before, whatever the two ranges have in common.
-/
namespace Delos.Lib

section
variable {α β ι κ : Type*} [DecidableEq α]

/-- The cell `source i` to the cell `target i`, index by index. -/
def copyInOrder (target source : ι → α) : List ι → (α → β) → α → β
  | [], m => m
  | i :: rest, m => copyInOrder target source rest (Function.update m (target i) (m (source i)))

/-- The old contents at the targets, and nothing else. -/
structure CopiedFrom (target source : ι → α) (indices : List ι) (m m' : α → β) : Prop where
  copied : ∀ i ∈ indices, m' (target i) = m (source i)
  frame : ∀ a, (∀ i ∈ indices, a ≠ target i) → m' a = m a

variable {target source : ι → α} {order : List ι} {m : α → β}

theorem copyInOrder_map (f : κ → ι) (order : List κ) (m : α → β) :
    copyInOrder target source (order.map f) m = copyInOrder (fun i => target (f i)) (fun i => source (f i)) order m := by
  induction order generalizing m with
  | nil => rfl
  | cons i rest ih => exact ih _

/-- The order in which the indices come is free, apart from what it reads. -/
theorem copyInOrder_copied (untouched : order.Pairwise fun i j => target i ≠ target j ∧ target i ≠ source j) :
    CopiedFrom target source order m (copyInOrder target source order m) := by
  induction order generalizing m with
  | nil => exact ⟨fun i inside => absurd inside List.not_mem_nil, fun _ _ => rfl⟩
  | cons i rest ih =>
    obtain ⟨first, later⟩ := List.pairwise_cons.mp untouched
    have rest_copied := ih (m := Function.update m (target i) (m (source i))) later
    constructor
    · intro j inside
      rw [copyInOrder]
      rcases List.mem_cons.mp inside with rfl | inside
      · rw [rest_copied.frame _ fun k among => (first k among).1, Function.update_self]
      · rw [rest_copied.copied j inside, Function.update_of_ne (first j inside).2.symm]
    · intro a outside
      rw [copyInOrder, rest_copied.frame a fun j inside => outside j (List.mem_cons_of_mem i inside)]
      exact Function.update_of_ne (outside i List.mem_cons_self) _ _

end

end Delos.Lib
