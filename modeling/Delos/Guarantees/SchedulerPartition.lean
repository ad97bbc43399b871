import Delos.Invariants.SchedulerRuns

/-!
# Where the processes are between two interrupts

Every process but the idle one is in exactly one place. Two things are outside this
law: a node that the kernel heap has no memory for, so that the process is in no list,
and a reader whose buffer is not mapped. The page fault on delivery of the line kills
the process on the CPU, which may be the idle one, and the scheduler goes on with it.
-/
namespace Delos.Guarantees
open Lib Source Invariants

/-- How often a process is on the CPU or in a queue. -/
def places (σ : Sched) (i : Nat) : Nat := (if σ.runningProcess = i then 1 else 0) + listed σ i

structure Partitioned (σ : Sched) : Prop where
  once : ∀ i ∈ σ.lists .all, i ≠ σ.idleProcess → places σ i = 1
  running : σ.runningProcess ≠ σ.idleProcess → (σ.pcbs σ.runningProcess).state = .running
  states : ∀ q, q ≠ .all → ∀ i ∈ σ.lists q, i ≠ σ.idleProcess → (σ.pcbs i).state = queueState q
  alive : σ.runningProcess ∈ σ.lists .all ∧ ∀ q, ∀ i ∈ σ.lists q, i ∈ σ.lists .all

theorem partitioned_of_scheduled {σ : Sched} (scheduled : Scheduled True σ) : Partitioned σ := by
  obtain ⟨queued, alive, active, _, _⟩ := scheduled
  constructor
  · intro i inside user
    unfold places
    by_cases running : σ.runningProcess = i
    · have none := queued.gone i (List.mem_singleton.mpr running.symm) user
      rw [if_pos running, none]
    · have some := queued.complete trivial i inside (by simpa using Ne.symm running) user
      have once := queued.once i
      rw [if_neg running]
      omega
  · exact fun _ => active
  · exact fun q queue i inside _ => queued.states q queue i inside
  · exact ⟨alive, queued.alive⟩

def readLineAt (buffer : Nat) : Event :=
  .systemCall ⟨102, 0, 0, 0, 0, 0, 0, buffer, 0, 0⟩
    ⟨fun _ => ⟨[], plain_nil⟩, fun _ _ => [], fun _ => none, 0, 0⟩

end Delos.Guarantees
