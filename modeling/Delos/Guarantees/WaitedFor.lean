import Delos.Invariants.BlockedProcesses

/-!
# Who wakes a process that waits

The list of blocked processes does not say for whom a process waits: whoever ends wakes
the first process in it that has the pid of its parent. That is right only where the
one that ends is the one that is waited for.
-/
namespace Delos.Guarantees
open Lib Source Invariants

/-- A process that waits leaves the list with the exit code of the one it waits for. -/
def WokenByTheWaitedFor (o : System × (Nat → Option Nat)) (event : Event) (s' : System) : Prop :=
  ∀ W P, W ∈ o.1.sched.lists .blockedOnProcess → o.2 W = some P →
    W ∉ s'.sched.lists .blockedOnProcess →
    W ∉ s'.sched.lists .all ∨
      ∃ code, Terminates o.1 event P code ∧ (s'.sched.pcbs W).regs.eax = code

/-- Of the processes that wait, the first one with the pid of the parent waits for the
process that ends. -/
def ParentWaitsForIt (o : System × (Nat → Option Nat)) (event : Event) : Prop :=
  ∀ D code, Terminates o.1 event D code → ∀ W, W ≠ D →
    (o.1.sched.lists .blockedOnProcess).find?
      (fun i => (o.1.sched.pcbs i).pid = (o.1.sched.pcbs D).ppid) = some W →
    o.2 W = some D

section
variable {o o' : System × (Nat → Option Nat)} {e : Nat × Event}

end

/-- The second shell starts two programs; the three other shells read a line meanwhile. -/
def twoChildren : List Event :=
  [callWith 107 0 0, callWith 102 0 userStart, callWith 102 0 userStart, callWith 102 0 userStart,
    callWith 107 0 0, callWith 105 0 0]

end Delos.Guarantees
