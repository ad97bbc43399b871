/-!
# A flag and its owner

`Guards flag owns` says of a flag that it is set while somebody owns it, and that nobody
else does then. Ownership is taken while the flag is clear and given back by its owner.
-/
namespace Delos.Lib

section
variable {ι : Type} {flag flag' : Prop} {owns owns' : ι → Prop} {i : ι}

structure Guards (flag : Prop) (owns : ι → Prop) : Prop where
  unique : ∀ i j, owns i → owns j → i = j
  set : flag ↔ ∃ i, owns i

theorem guards_free (clear : ¬ flag) (none : ∀ i, ¬ owns i) : Guards flag owns where
  unique i _ here _ := absurd here (none i)
  set := ⟨fun set => absurd set clear, fun ⟨i, here⟩ => absurd here (none i)⟩

/-- Neither the flag nor the owner changes. -/
theorem Guards.keep (guards : Guards flag owns) (same : flag' ↔ flag) (sameOwner : ∀ i, owns' i ↔ owns i) :
    Guards flag' owns' := by
  constructor
  · intro i j here there
    exact guards.unique i j ((sameOwner i).mp here) ((sameOwner j).mp there)
  · rw [same, guards.set]
    simp [sameOwner]

/-- Whoever finds the flag clear and sets it is the only owner. -/
theorem Guards.take (guards : Guards flag owns) (clear : ¬ flag) (set : flag')
    (now : ∀ j, owns' j ↔ j = i ∨ owns j) : Guards flag' owns' := by
  have none : ∀ j, ¬ owns j := fun j here => clear (guards.set.mpr ⟨j, here⟩)
  have only : ∀ j, owns' j ↔ j = i := by simp [now, none]
  constructor
  · intro j k here there
    exact ((only j).mp here).trans ((only k).mp there).symm
  · exact ⟨fun _ => ⟨i, (only i).mpr rfl⟩, fun _ => set⟩

theorem Guards.give (guards : Guards flag owns) (owner : owns i) (clear : ¬ flag')
    (now : ∀ j, owns' j → j ≠ i ∧ owns j) : Guards flag' owns' := by
  apply guards_free clear
  intro j here
  obtain ⟨other, there⟩ := now j here
  exact other (guards.unique j i there owner)

end

end Delos.Lib
