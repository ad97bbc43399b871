import Mathlib.Data.Finset.Lattice.Fold
import Mathlib.Order.Lattice.Nat
import Delos.Invariants.Rescheduling
import Delos.Invariants.SchedulerSteps

/-!
# Rescheduling a terminal

With memory for a list and for a node for each process of the terminal, `reschedule_process` is a
stable partition of the list of blocked processes. It gives back all it has allocated, and the
blocks of other lists are not touched. When `kmalloc` finds no block for the node of a process, that
process stays where it is.
-/
namespace Delos.Guarantees
open Lib Source Invariants

theorem reschedule_partition (alloc : Allocator) (shellId : Nat → Nat) (pid blocked last : Nat) (as : List Nat)
    (h : ListHeap) (at_ : ListAt h blocked last as) (distinct : (as.map h.data).Nodup)
    (ample : Ample alloc (h.live.card + ((as.map h.data).filter (shellId · = pid)).length + 1)) :
    ∃ h' last' as', rescheduleList alloc shellId pid blocked h = .ok ((), h') ∧ ListAt h' blocked last' as' ∧
      as'.map h'.data = (as.map h.data).filter (shellId · = pid) ++ (as.map h.data).filter (shellId · ≠ pid) ∧
      h'.live.card = h.live.card ∧
      ∀ other lastOther bs, ListAt h other lastOther bs → (∀ b ∈ other :: bs, b ∉ blocked :: as) →
        ListAt h' other lastOther bs ∧ bs.map h'.data = bs.map h.data := by
  obtain ⟨h', last', as', run, at', sequence, count, kept⟩ := rescheduleList_run at_ distinct ample
  exact ⟨h', last', as', run, at', sequence, count, fun other lastOther bs apart_ disjoint => apart_.kept kept disjoint⟩

/-- A kernel heap with room for `n` blocks. -/
def smallHeap (n : Nat) : Allocator where
  pick h := if h.live.card < n then h.live.sup id + 1 else 0
  fresh h found inside := by
    by_cases room : h.live.card < n
    · rw [if_pos room] at inside
      exact Nat.not_succ_le_self _ (Finset.le_sup (f := id) inside)
    · rw [if_neg room] at found
      exact found rfl

/-- The processes 20 and 10 are blocked, in this order. -/
def twoBlocked : ListHeap where
  live := {1, 2, 3}
  block a := if a = 1 then .list ⟨2, 3, 2⟩ else if a = 2 then .node ⟨3, 0, 20⟩ else .node ⟨0, 2, 10⟩

theorem twoBlocked_at : ListAt twoBlocked 1 3 [2, 3] := by
  constructor
  · decide
  · decide
  · rfl
  · exact fun _ => rfl
  · intro a member
    have cases : a = 2 ∨ a = 3 := by simpa using member
    rcases cases with rfl | rfl
    · exact ⟨by decide, _, rfl⟩
    · exact ⟨by decide, _, rfl⟩
  · decide
  · decide
  · exact ⟨rfl, rfl, rfl, rfl, trivial⟩

theorem reschedule_partition_two :
    ∃ h' last' as', rescheduleList (smallHeap 5) (· / 10) 1 1 twoBlocked = .ok ((), h') ∧ ListAt h' 1 last' as' ∧
      as'.map h'.data = [10, 20] ∧ h'.live.card = 3 ∧
      ∀ other lastOther bs, ListAt twoBlocked other lastOther bs → (∀ b ∈ other :: bs, b ∉ [1, 2, 3]) →
        ListAt h' other lastOther bs ∧ bs.map h'.data = bs.map twoBlocked.data :=
  reschedule_partition (smallHeap 5) (· / 10) 1 1 3 [2, 3] twoBlocked twoBlocked_at (by decide) fun h few => by
    have room : h.live.card < 5 := few
    show (if h.live.card < 5 then h.live.sup id + 1 else 0) ≠ 0
    rw [if_pos room]
    exact Nat.succ_ne_zero _

/-- There is a block for the list but none for a node: the process 10 of terminal 1 stays behind. -/
theorem reschedule_exhausted :
    [20, 10].filter (· / 10 = 1) ++ [20, 10].filter (· / 10 ≠ 1) = [10, 20] ∧
    ∃ h', rescheduleList (smallHeap 4) (· / 10) 1 1 twoBlocked = .ok ((), h') ∧
      listGet 1 0 h' = .ok (20, h') ∧ listGet 1 1 h' = .ok (10, h') :=
  ⟨by decide, _, rfl, rfl, rfl⟩

/-- The list that the model of the scheduler has in its place. -/
theorem rescheduleList_refines {alloc : Allocator} {h : ListHeap} {blocked last pid : Nat} {as : List Nat} {σ : Sched}
    {queue : ProcessList} (at_ : ListAt h blocked last as) (distinct : (as.map h.data).Nodup)
    (same : as.map h.data = σ.lists queue)
    (ample : Ample alloc (h.live.card + ((as.map h.data).filter (fun pcb => (σ.pcbs pcb).shellId = pid)).length + 1))
    (room : ((as.map h.data).filter (fun pcb => (σ.pcbs pcb).shellId = pid)).length < σ.room) :
    ∃ h' last' as', rescheduleList alloc (fun pcb => (σ.pcbs pcb).shellId) pid blocked h = .ok ((), h') ∧ ListAt h' blocked last' as' ∧
      as'.map h'.data = (σ.rescheduleProcess pid queue).lists queue := by
  obtain ⟨h', last', as', run, at', sequence, _⟩ := rescheduleList_run at_ distinct ample
  refine ⟨h', last', as', run, at', ?_⟩
  have own : Sched.ofTerminal pid queue σ = (σ.lists queue).filter fun pcb => (σ.pcbs pcb).shellId = pid := by
    rw [Sched.ofTerminal, ← same]
    exact List.take_of_length_le (Nat.le_sub_one_of_lt room)
  rw [same] at distinct
  rw [sequence, rescheduleProcess_fields (Nat.zero_lt_of_lt room), own, same, distinct.sdiff_eq_filter]
  simp only [Function.update_self]
  congr 1
  refine List.filter_congr fun pcb member => ?_
  simp [List.mem_filter, member]

end Delos.Guarantees
