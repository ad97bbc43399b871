/-!
# Waiting in line

`ahead p l` is what stands before `p` in a list. `Behind p` relates two states of a
list between which nobody has got in front of `p`.
-/
namespace Delos.Lib

section
variable {α : Type} [DecidableEq α] {p q : α} {l l' l'' rest : List α}

def ahead (p : α) (l : List α) : List α := l.takeWhile fun q => q ≠ p

/-- If `p` is still there, it was there before, and nobody new is ahead of it. -/
def Behind (p : α) (l l' : List α) : Prop := p ∈ l' → p ∈ l ∧ (ahead p l').Sublist (ahead p l)

theorem ahead_sublist : (ahead p l).Sublist l := List.takeWhile_sublist _

theorem behind_refl : Behind p l l := fun inside => ⟨inside, List.Sublist.refl _⟩

theorem Behind.trans (first : Behind p l l') (second : Behind p l' l'') : Behind p l l'' := by
  intro inside
  obtain ⟨middle, fewer⟩ := second inside
  obtain ⟨before, fewest⟩ := first middle
  exact ⟨before, fewer.trans fewest⟩

@[simp] theorem ahead_cons_self : ahead p (p :: l) = [] := by simp [ahead]

theorem ahead_cons_other (other : q ≠ p) : ahead p (q :: l) = q :: ahead p l := by simp [ahead, other]

theorem ahead_append (inside : p ∈ l) : ahead p (l ++ l') = ahead p l := by
  induction l with
  | nil => exact absurd inside List.not_mem_nil
  | cons a l ih =>
    by_cases here : a = p
    · rw [here, List.cons_append, ahead_cons_self, ahead_cons_self]
    · have later := (List.mem_cons.mp inside).resolve_left fun same => here same.symm
      rw [List.cons_append, ahead_cons_other here, ahead_cons_other here, ih later]

/-- Whoever is appended is last. -/
theorem behind_append (other : q ≠ p) : Behind p l (l ++ [q]) := by
  intro inside
  have before : p ∈ l := by
    rcases List.mem_append.mp inside with before | last
    · exact before
    · exact absurd (List.mem_singleton.mp last).symm other
  rw [ahead_append before]
  exact ⟨before, List.Sublist.refl _⟩

theorem ahead_erase (other : q ≠ p) : (ahead p (l.erase q)).Sublist (ahead p l) := by
  induction l with
  | nil => exact List.Sublist.refl _
  | cons a l ih =>
    by_cases here : a = q
    · rw [here, List.erase_cons_head, ahead_cons_other other]
      exact List.sublist_cons_self _ _
    · rw [List.erase_cons_tail (by simpa using here)]
      by_cases self : a = p
      · rw [self, ahead_cons_self]
        exact List.nil_sublist _
      · rw [ahead_cons_other self, ahead_cons_other self]
        exact ih.cons_cons a

/-- Others may leave; whoever leaves is not there any more. -/
theorem behind_erase (nodup : l.Nodup) : Behind p l (l.erase q) := by
  intro inside
  have other : q ≠ p := by
    rintro rfl
    exact nodup.not_mem_erase inside
  exact ⟨List.mem_of_mem_erase inside, ahead_erase other⟩

/-- The first in line is served, behind some that are passed over. -/
theorem served_ahead {skipped : List α} (nodup : (skipped ++ q :: rest).Nodup) (inside : p ∈ rest) :
    (q :: ahead p rest).Sublist (ahead p (skipped ++ q :: rest)) := by
  induction skipped with
  | nil =>
    have other : q ≠ p := by
      rintro rfl
      exact (List.nodup_cons.mp nodup).1 inside
    have same : ahead p ([] ++ q :: rest) = q :: ahead p rest := ahead_cons_other other
    exact same ▸ List.Sublist.refl _
  | cons a skipped ih =>
    rw [List.cons_append] at nodup ⊢
    obtain ⟨fresh, nodup⟩ := List.nodup_cons.mp nodup
    have other : a ≠ p := by
      rintro rfl
      exact fresh (List.mem_append_right _ (List.mem_cons_of_mem _ inside))
    rw [ahead_cons_other other]
    exact (ih nodup).cons a

/-- Two periods of waiting make one. -/
theorem served_trans {served served' : List α} (first : (served ++ ahead p l').Sublist (ahead p l))
    (second : (served' ++ ahead p l'').Sublist (ahead p l')) :
    ((served ++ served') ++ ahead p l'').Sublist (ahead p l) := by
  rw [List.append_assoc]
  exact ((List.Sublist.refl served).append second).trans first

end

end Delos.Lib
