import Delos.Invariants.TimerTicks

/-!
# A ready process does not starve

Between two ticks anything may happen. A process that stays in the ready list sees at most ten ticks for
each process ahead of it, and those up to the next switch.
-/
namespace Delos.Guarantees
open Lib Source Invariants

/-- A wait, and how many ticks there have been. -/
def WaitsTicks (i : Nat) (s : System) : System × Nat → Prop :=
  Run (fun t => t = (s, 0)) (fun _ _ => True) fun t e t' =>
    (Taken t.1 e t'.1 ∧ i ∈ t'.1.sched.lists .ready) ∧ t'.2 = t.2 + timerTicks e.2

section
variable {s s' : System} {i n : Nat}

theorem waitsTicks_run {t : System × Nat} (run : Run Started Anyhow Taken s) (user : i ≠ s.sched.idleProcess)
    (waits : i ∈ s.sched.lists .ready) (waiting : WaitsTicks i s t) :
    Waits i s t.1 ∧ t.2 + patience i t.1 ≤ patience i s := by
  induction waiting with
  | init start =>
    subst start
    exact ⟨.init rfl, by simp⟩
  | @step t t' e _ _ next ih =>
    obtain ⟨waited, bound⟩ := ih
    obtain ⟨⟨taken, inside⟩, count⟩ := next
    obtain ⟨run', waits', idle, _⟩ := waits_run run user waits waited
    have step := patience_taken run' (idle ▸ user) waits' inside taken
    exact ⟨.step waited trivial ⟨taken, inside⟩, by omega⟩

end

end Delos.Guarantees
