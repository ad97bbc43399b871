import Delos.Guarantees.SchedulerPartition
import Delos.Invariants.BlockedProcesses

/-!
# What CTRL+C acts on

The array of the processes that ran last in each terminal is kept outside the lists.
Every kill puts the idle process into the entry of the terminal, so an entry never
designates a process that has ended: as long as the idle process itself is not killed,
for the page fault of a line that is stored for another process.
-/
namespace Delos.Guarantees
open Lib Source Invariants

/-- What `abort_current_cmd` finds in the array, and what it can kill. -/
structure AbortsLive (s : System) : Prop where
  entries : ∀ i, 1 ≤ i → i ≤ numberOfTerminals →
    s.sched.latestRunning (i - 1) = s.sched.idleProcess ∨
      s.sched.latestRunning (i - 1) ∈ s.sched.lists .all ∧
        (s.sched.pcbs (s.sched.latestRunning (i - 1))).shellId = i
  reads : s.sched.getLatestRunningNonIdleProcess ∈ s.sched.lists .all
  kills : ∀ room cpu s', interrupt room (.abort cpu) s = .ok ((), s') →
    ∀ p ∈ s.sched.lists .all, p ∉ s'.sched.lists .all →
      p = s.sched.getLatestRunningNonIdleProcess ∧ (s.sched.pcbs p).shellId = s.sched.focusedTerminal

/-- The idle process is not killed. -/
def Spared (s : System) (e : Nat × Event) : Prop := ¬ KillsIdle s e.2

section
variable {s s' : System}

theorem scheduled_spared (run : Run Started Spared Taken s) : Scheduled False s.sched := by
  apply run.invariant
  · exact fun s started => scheduled_weaken (scheduled_start started).1
  · intro s e s' scheduled spared taken
    obtain ⟨_, step⟩ := taken_interrupted taken
    apply (scheduled_withRoom e.1 scheduled).step _ (happens_withRoom taken.1) _ step
    · exact fun impossible => impossible.elim
    · exact fun kills => spared (killsIdle_withRoom kills)

/-- The entry of the terminal in focus. -/
theorem focused_entry (scheduled : Scheduled False s.sched) :
    s.sched.getLatestRunningNonIdleProcess = s.sched.idleProcess ∨
      s.sched.getLatestRunningNonIdleProcess ∈ s.sched.lists .all ∧
        (s.sched.pcbs s.sched.getLatestRunningNonIdleProcess).shellId = s.sched.focusedTerminal := by
  obtain ⟨least, most⟩ := scheduled.focus
  obtain ⟨t, same⟩ := Nat.exists_eq_succ_of_ne_zero (Nat.one_le_iff_ne_zero.mp least)
  have few : t < numberOfTerminals := by omega
  unfold Sched.getLatestRunningNonIdleProcess
  rw [same, terminalIndex_succ few]
  exact scheduled.queued.latest t few

/-- The idle process has the pid 0, and a process with it is not killed. -/
theorem abort_kills {room : Nat} {cpu : Cpu} (scheduled : Scheduled False s.sched)
    (run : interrupt room (.abort cpu) s = .ok ((), s')) {p : Nat} (alive : p ∈ s.sched.lists .all)
    (dead : p ∉ s'.sched.lists .all) :
    p = s.sched.getLatestRunningNonIdleProcess ∧ (s.sched.pcbs p).shellId = s.sched.focusedTerminal := by
  obtain ⟨_, step⟩ := interrupt_run run
  rcases killed_by (scheduled_withRoom room scheduled) step alive dead with ⟨_, terminates⟩ | unknown
  · cases terminates with
    | abort later =>
      refine ⟨rfl, ?_⟩
      rcases focused_entry scheduled with idle | live
      · have later : (s.sched.pcbs s.sched.getLatestRunningNonIdleProcess).pid ∉ [0, 1, 2, 3, 4] := later
        rw [idle, scheduled.idlePid] at later
        exact absurd List.mem_cons_self later
      · exact live.2
  · exact unknown.2.elim

theorem abortsLive_scheduled (scheduled : Scheduled False s.sched) : AbortsLive s := by
  constructor
  · intro i least most
    obtain ⟨t, rfl⟩ := Nat.exists_eq_succ_of_ne_zero (Nat.one_le_iff_ne_zero.mp least)
    exact scheduled.queued.latest t most
  · rcases focused_entry scheduled with idle | live
    · rw [idle]
      exact scheduled.queued.idle
    · exact live.1
  · intro room cpu s' run p alive dead
    exact abort_kills scheduled run alive dead

end

end Delos.Guarantees
