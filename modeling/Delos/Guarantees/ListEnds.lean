import Delos.Guarantees.ListSequence

/-!
# The ends of a list

`list_remove` leaves `last` alone when the removed node is the first one. When it is the only
node, `first` becomes NULL and `last` keeps the address of the node that `kfree` has just got.
-/
namespace Delos.Guarantees
open Lib Source Invariants

/-- Both ends are NULL, or they are the ends of one chain of nodes in use. -/
def EndsConsistent (h : ListHeap) (list : Nat) : Prop :=
  ∃ record as, h.block list = .list record ∧ Follows h.next 0 record.first as ∧
    (record.first = 0 ↔ record.last = 0) ∧ (record.last = 0 ↔ record.size = 0) ∧
    (record.size ≠ 0 → record.last = as.getLastD 0 ∧ Follows h.prev 0 record.last as.reverse) ∧
    (record.first ≠ 0 → record.first ∈ h.live) ∧ (record.last ≠ 0 → record.last ∈ h.live)

theorem backwards {h : ListHeap} {list last : Nat} {as : List Nat} (at_ : ListAt h list last as) (some : as ≠ []) :
    Follows h.prev 0 last as.reverse := by
  have walk := segment_follows (segment_reverse at_.linked) fun member => at_.null (List.mem_reverse.mp member)
  rw [at_.ends some]
  simpa [List.headD_eq_head?_getD, List.getLastD_eq_getLast?] using walk

theorem endsConsistent_iff {h : ListHeap} {list last : Nat} {as : List Nat} (at_ : ListAt h list last as) :
    EndsConsistent h list ↔ as ≠ [] ∨ (as = [] ∧ last = 0) := by
  constructor
  · intro consistent
    obtain ⟨record, _, here, _, ends, _⟩ := consistent
    obtain rfl := ListBlock.list.inj (here.symm.trans at_.record)
    by_cases empty : as = []
    · right
      exact ⟨empty, ends.mp (by rw [empty]; rfl)⟩
    · left
      exact empty
  · intro shape
    refine ⟨_, as, at_.record, segment_follows at_.linked at_.null, ?_⟩
    rcases shape with some | ⟨rfl, rfl⟩
    · have first : as.headD 0 ∈ as := by
        cases as with
        | nil => exact absurd rfl some
        | cons a rest => exact List.mem_cons_self
      have final : last ∈ as := by
        rw [at_.ends some, List.getLastD_eq_getLast?, List.getLast?_eq_getLast_of_ne_nil some]
        exact List.getLast_mem some
      have validFirst : as.headD 0 ≠ 0 := fun null => at_.null (null ▸ first)
      have validFinal : last ≠ 0 := fun null => at_.null (null ▸ final)
      refine ⟨?_, ?_, fun _ => ⟨at_.ends some, backwards at_ some⟩, fun _ => (at_.nodes _ first).1,
        fun _ => (at_.nodes _ final).1⟩
      · exact ⟨fun null => absurd null validFirst, fun null => absurd null validFinal⟩
      · simp [validFinal, some]
    · simp

theorem list_ends (alloc : Allocator) (h h0 : ListHeap) (list : Nat) (created : listCreate alloc h = .ok (list, h0))
    (found : list ≠ 0) (calls : List ListCall) (given : AllocationsSucceed alloc list calls h0) :
    ∃ h', runEach (ListCall.perform alloc list) calls h0 = .ok ((), h') ∧
      (EndsConsistent h' list ↔ sequenceAfter calls [] ≠ [] ∨ ∀ call ∈ calls, call.adds = false) := by
  obtain ⟨h', last, as, run, at_, sequence, clean⟩ := performAll_run (listCreate_run created found) calls given
  refine ⟨h', run, ?_⟩
  rw [List.map_nil] at sequence
  rw [endsConsistent_iff at_, clean, ← sequence]
  simp

theorem list_ends_added :
    ∃ h', runEach (ListCall.perform nextBlock 1) [.addLast 5] (emptyListHeap.allocate 1 (.list ⟨0, 0, 0⟩)) = .ok ((), h') ∧
      (EndsConsistent h' 1 ↔ [5] ≠ [] ∨ ∀ call ∈ [ListCall.addLast 5], call.adds = false) :=
  list_ends nextBlock emptyListHeap (emptyListHeap.allocate 1 (.list ⟨0, 0, 0⟩)) 1 rfl (by decide) [.addLast 5]
    ⟨fun _ => Nat.succ_ne_zero _, fun _ _ => trivial⟩

/-- One element comes and goes: `last` is the freed node 2. -/
theorem list_ends_stale :
    ∃ h', runEach (ListCall.perform nextBlock 1) [.addFirst 5, .remove 0] (emptyListHeap.allocate 1 (.list ⟨0, 0, 0⟩)) = .ok ((), h') ∧
      h'.block 1 = .list ⟨0, 2, 0⟩ ∧ 2 ∉ h'.live ∧ ¬ EndsConsistent h' 1 := by
  refine ⟨_, rfl, rfl, by decide, fun consistent => ?_⟩
  obtain ⟨record, _, here, _, ends, _⟩ := consistent
  obtain rfl := ListBlock.list.inj (here.symm.trans (show _ = ListBlock.list ⟨0, 2, 0⟩ from rfl))
  exact absurd (ends.mp rfl) (by decide)

end Delos.Guarantees
