import Mathlib.Order.Lattice.Nat
import Mathlib.Data.Finset.Lattice.Fold
import Delos.Invariants.ListRuns

/-!
# Lists as sequences

After any run of calls on a new list, the nodes behind `first`, the size, `list_get` and
`list_contains` all show the sequence that the calls make of the empty one. The stale `last` of a list
that became empty is written over by the next `list_add_first` or `list_add_last` before it is read.
-/
namespace Delos.Guarantees
open Lib Source Invariants

/-- The block behind all that are in use. -/
def nextBlock : Allocator where
  pick h := h.live.sup id + 1
  fresh h _ inside := Nat.not_succ_le_self _ (Finset.le_sup (f := id) inside)

def emptyListHeap : ListHeap := { live := ∅, block := fun _ => .list ⟨0, 0, 0⟩ }

theorem list_sequence (alloc : Allocator) (h h0 : ListHeap) (list : Nat) (created : listCreate alloc h = .ok (list, h0))
    (found : list ≠ 0) (calls : List ListCall) (given : AllocationsSucceed alloc list calls h0) :
    ∃ h' record as, runEach (ListCall.perform alloc list) calls h0 = .ok ((), h') ∧ list ∈ h'.live ∧ h'.block list = .list record ∧
      Follows h'.next 0 record.first as ∧ (∀ a ∈ as, a ∈ h'.live) ∧ as.map h'.data = sequenceAfter calls [] ∧
      record.size = (sequenceAfter calls []).length ∧
      (∀ index : Int, listGet list index h' =
        .ok (if index < 0 then 0 else (sequenceAfter calls []).getD index.toNat 0, h')) ∧
      ∀ data cmp, listContains list data cmp h' = .ok ((sequenceAfter calls []).any (cmp data), h') := by
  obtain ⟨h', last, as, run, at_, sequence, _⟩ := performAll_run (listCreate_run created found) calls given
  rw [List.map_nil] at sequence
  refine ⟨h', _, as, run, at_.head, at_.record, segment_follows at_.linked at_.null, fun a member => (at_.nodes a member).1,
    sequence, ?_, fun index => ?_, fun data cmp => ?_⟩
  · rw [← sequence, List.length_map]
  · rw [listGet_run at_, sequence]
  · rw [listContains_run at_, sequence]

/-- A list that is emptied and filled again. -/
def refill : List ListCall := [.addLast 5, .removeData 5, .addLast 6, .addFirst 7]

theorem list_sequence_refilled :
    ∃ h' record as, runEach (ListCall.perform nextBlock 1) refill (emptyListHeap.allocate 1 (.list ⟨0, 0, 0⟩)) = .ok ((), h') ∧
      1 ∈ h'.live ∧ h'.block 1 = .list record ∧ Follows h'.next 0 record.first as ∧ (∀ a ∈ as, a ∈ h'.live) ∧
      as.map h'.data = [7, 6] ∧ record.size = 2 ∧
      (∀ index : Int, listGet 1 index h' = .ok (if index < 0 then 0 else [7, 6].getD index.toNat 0, h')) ∧
      ∀ data cmp, listContains 1 data cmp h' = .ok ([7, 6].any (cmp data), h') :=
  list_sequence nextBlock emptyListHeap (emptyListHeap.allocate 1 (.list ⟨0, 0, 0⟩)) 1 rfl (by decide) refill (by
    refine ⟨fun _ => Nat.succ_ne_zero _, fun h1 _ => ⟨(fun adds => by cases adds), fun h2 _ => ?_⟩⟩
    exact ⟨fun _ => Nat.succ_ne_zero _, fun h3 _ => ⟨fun _ => Nat.succ_ne_zero _, fun _ _ => trivial⟩⟩)

end Delos.Guarantees
