import Mathlib.Data.List.Infix
import Delos.Lib.Program

/-!
# Runs that are watched after every step

A program is run for each element of a list. When the steps that fit keep an invariant and a step
that does not fit can be seen at once, then a run shows what it should after each of its steps exactly
if all of its steps fit.
-/
namespace Delos.Lib

section
variable {σ ε ι : Type} {step : ι → Program σ ε Unit} {s s0 : σ} {done is : List ι} {i : ι}
  {inv shown : List ι → σ → Prop} {fits : List ι → σ → ι → Prop}

def runEach (step : ι → Program σ ε Unit) : List ι → Program σ ε Unit
  | [] => pure ()
  | i :: rest => do
    step i
    runEach step rest

theorem runEach_snoc (done : List ι) (i : ι) :
    runEach step (done ++ [i]) = (do runEach step done; step i : Program σ ε Unit) := by
  induction done with
  | nil => simp [runEach]
  | cons first done ih => simp [runEach, ih]

/-- `shown` after every part of the run. -/
def AlwaysShown (step : ι → Program σ ε Unit) (s0 : σ) (shown : List ι → σ → Prop) (is : List ι) : Prop :=
  ∀ done, done <+: is → ∃ s, runEach step done s0 = .ok ((), s) ∧ shown done s

/-- Each step fits the state that it finds. -/
def AlwaysFits (step : ι → Program σ ε Unit) (s0 : σ) (fits : List ι → σ → ι → Prop) (is : List ι) : Prop :=
  ∀ done i s, done ++ [i] <+: is → runEach step done s0 = .ok ((), s) → fits done s i

theorem last_mem (inside : done ++ [i] <+: is) : i ∈ is := inside.subset (by simp)

/-- The rule of induction over a run. -/
theorem AlwaysFits.keeps (always : AlwaysFits step s0 fits is) (init : inv [] s0)
    (keep : ∀ done s i, i ∈ is → inv done s → fits done s i → ∃ s', step i s = .ok ((), s') ∧ inv (done ++ [i]) s')
    (inside : done <+: is) : ∃ s, runEach step done s0 = .ok ((), s) ∧ inv done s := by
  induction done using List.reverseRecOn with
  | nil => exact ⟨s0, rfl, init⟩
  | append_singleton done i ih =>
    obtain ⟨s, run, holds⟩ := ih ((List.prefix_append _ _).trans inside)
    obtain ⟨s', next, holds'⟩ := keep done s i (last_mem inside) holds (always done i s inside run)
    refine ⟨s', ?_, holds'⟩
    rw [runEach_snoc, run_bind run]
    exact next

/-- As long as nothing wrong is seen, every step has been one that fits. -/
theorem AlwaysShown.fits_all (always : AlwaysShown step s0 shown is) (init : inv [] s0)
    (keep : ∀ done s i, i ∈ is → inv done s → fits done s i → ∃ s', step i s = .ok ((), s') ∧ inv (done ++ [i]) s')
    (lose : ∀ done s s' i, inv done s → ¬ fits done s i → step i s = .ok ((), s') → ¬ shown (done ++ [i]) s') :
    AlwaysFits step s0 fits is := by
  have fit : ∀ done s i, done ++ [i] <+: is → runEach step done s0 = .ok ((), s) → inv done s → fits done s i :=
    fun done s i inside run holds => by
      by_contra unfit
      obtain ⟨s', run', seen⟩ := always _ inside
      rw [runEach_snoc, run_bind run] at run'
      exact lose done s s' i holds unfit run' seen
  have reached : ∀ done, done <+: is → ∃ s, runEach step done s0 = .ok ((), s) ∧ inv done s := by
    intro done
    induction done using List.reverseRecOn with
    | nil => exact fun _ => ⟨s0, rfl, init⟩
    | append_singleton done i ih =>
      intro inside
      obtain ⟨s, run, holds⟩ := ih ((List.prefix_append _ _).trans inside)
      obtain ⟨s', next, holds'⟩ := keep done s i (last_mem inside) holds (fit done s i inside run holds)
      refine ⟨s', ?_, holds'⟩
      rw [runEach_snoc, run_bind run]
      exact next
  intro done i s inside run
  obtain ⟨t, run', holds⟩ := reached done ((List.prefix_append _ _).trans inside)
  obtain rfl : t = s := by
    rw [run] at run'
    cases run'
    rfl
  exact fit done t i inside run holds

theorem alwaysShown_iff (inv : List ι → σ → Prop) (init : inv [] s0) (shows : ∀ done s, inv done s → shown done s)
    (keep : ∀ done s i, i ∈ is → inv done s → fits done s i → ∃ s', step i s = .ok ((), s') ∧ inv (done ++ [i]) s')
    (lose : ∀ done s s' i, inv done s → ¬ fits done s i → step i s = .ok ((), s') → ¬ shown (done ++ [i]) s') :
    AlwaysShown step s0 shown is ↔ AlwaysFits step s0 fits is := by
  constructor
  · exact fun always => always.fits_all init keep lose
  · intro always done inside
    obtain ⟨s, run, holds⟩ := always.keeps init keep inside
    exact ⟨s, run, shows done s holds⟩

end

end Delos.Lib
