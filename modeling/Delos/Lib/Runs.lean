/-!
# Runs of a machine

A machine is a start condition and a labelled step relation. `Run` restricts it to
steps that are allowed in the state they are taken in.
-/
namespace Delos.Lib

section
variable {σ ε : Type} {start : σ → Prop} {allowed allowed' : σ → ε → Prop} {step : σ → ε → σ → Prop}
  {s s' : σ} {e : ε}

inductive Run (start : σ → Prop) (allowed : σ → ε → Prop) (step : σ → ε → σ → Prop) : σ → Prop
  | init {s : σ} (started : start s) : Run start allowed step s
  | step {s s' : σ} {e : ε} (before : Run start allowed step s) (ready : allowed s e)
      (next : step s e s') : Run start allowed step s'

/-- The rule of every invariant: it holds at the start and each allowed step keeps it. -/
theorem Run.invariant {inv : σ → Prop} (init : ∀ s, start s → inv s)
    (keep : ∀ s e s', inv s → allowed s e → step s e s' → inv s') (run : Run start allowed step s) :
    inv s := by
  induction run with
  | init started => exact init _ started
  | step _ ready next ih => exact keep _ _ _ ih ready next

theorem Run.weaken (weaker : ∀ s e, allowed s e → allowed' s e) (run : Run start allowed step s) :
    Run start allowed' step s := by
  induction run with
  | init started => exact .init started
  | step _ ready next ih => exact .step ih (weaker _ _ ready) next

end

end Delos.Lib
