import Delos.Lib.Traces
import Delos.Invariants.LinkedLists

/-!
# Runs of calls on one list

`sequenceAfter` is what a run of calls makes of a sequence, without any heap. Each call keeps the
list well formed and changes its sequence in the same way. Once the only element has left, the list
is empty but `last` is not NULL: only a list that no element was ever added to is clean.
-/
namespace Delos.Invariants
open Lib Source

inductive ListCall where
  | addFirst (data : Nat)
  | addLast (data : Nat)
  | remove (index : Nat)
  | removeData (data : Nat)
  deriving DecidableEq, Repr

namespace ListCall

def adds : ListCall → Bool
  | addFirst _ | addLast _ => true
  | remove _ | removeData _ => false

def perform (alloc : Allocator) (list : Nat) : ListCall → Listing Unit
  | addFirst data => listAddFirst alloc list data
  | addLast data => listAddLast alloc list data
  | remove index => listRemove list index
  | removeData data => listRemoveData list data

/-- The same on a sequence. -/
def apply : ListCall → List Nat → List Nat
  | addFirst data, ds => data :: ds
  | addLast data, ds => ds ++ [data]
  | remove index, ds => ds.eraseIdx index
  | removeData data, ds => ds.erase data

end ListCall

def sequenceAfter (calls : List ListCall) (ds : List Nat) : List Nat := calls.foldl (fun ds call => call.apply ds) ds

/-- No allocation of the run fails. -/
def AllocationsSucceed (alloc : Allocator) (list : Nat) : List ListCall → ListHeap → Prop
  | [], _ => True
  | call :: calls, h => (call.adds = true → alloc.pick h ≠ 0) ∧
      ∀ h', call.perform alloc list h = .ok ((), h') → AllocationsSucceed alloc list calls h'

section
variable {h : ListHeap} {list last : Nat} {as : List Nat} {alloc : Allocator}

theorem listCreate_run (created : listCreate alloc h = .ok (list, h')) (found : list ≠ 0) : ListAt h' list 0 [] := by
  by_cases given : alloc.pick h = 0
  · have run : listCreate alloc h = .ok (0, h) := by
      unfold listCreate allocateBlock
      rw [run_bind (show (get : Listing ListHeap) h = .ok (h, h) from rfl), if_pos given]
      rfl
    rw [run] at created
    cases created
    exact absurd rfl found
  · have run : listCreate alloc h = .ok (alloc.pick h, h.allocate (alloc.pick h) (.list ⟨0, 0, 0⟩)) :=
      allocateBlock_run given _
    rw [run] at created
    cases created
    constructor
    · exact given
    · exact Finset.mem_insert_self ..
    · rw [block_allocate, if_pos rfl]
      rfl
    · exact fun some => absurd rfl some
    · simp
    · simp
    · simp
    · trivial

/-- One call. -/
theorem perform_run (at_ : ListAt h list last as) (call : ListCall) (given : call.adds = true → alloc.pick h ≠ 0) :
    ∃ h' last' as', call.perform alloc list h = .ok ((), h') ∧ ListAt h' list last' as' ∧
      as'.map h'.data = call.apply (as.map h.data) ∧
      ((as' = [] ∧ last' = 0) ↔ (as = [] ∧ last = 0) ∧ call.adds = false) := by
  cases call with
  | addFirst data =>
    obtain ⟨h', run, _, added, sequence, _⟩ := listAddFirst_run at_ (given rfl) data
    exact ⟨h', _, _, run, added, sequence, by simp [ListCall.adds]⟩
  | addLast data =>
    obtain ⟨h', run, _, added, sequence, _⟩ := listAddLast_run at_ (given rfl) data
    exact ⟨h', _, _, run, added, sequence, by simp [ListCall.adds]⟩
  | remove index =>
    by_cases beyond : as.length ≤ index
    · refine ⟨h, last, as, listRemove_beyond at_ beyond, at_, ?_, by simp [ListCall.adds]⟩
      simp [ListCall.apply, List.eraseIdx_of_length_le, beyond]
    · obtain ⟨l, a, r, rfl, rfl⟩ : ∃ l a r, as = l ++ a :: r ∧ l.length = index :=
        ⟨as.take index, as[index], as.drop (index + 1), by simp, List.length_take_of_le (Nat.le_of_not_le beyond)⟩
      obtain ⟨h', left, run, _, removed, stale, sequence, _⟩ := listRemove_run at_
      refine ⟨h', left, l ++ r, run, removed, ?_, ?_⟩
      · rw [sequence, ListCall.apply, List.map_append, List.map_append, List.map_cons,
          List.eraseIdx_append_of_length_le (by simp)]
        simp
      · constructor
        · exact fun ⟨empty, null⟩ => absurd null (stale empty)
        · exact fun ⟨⟨empty, _⟩, _⟩ => by simp at empty
  | removeData data =>
    obtain ⟨h', last', as', run, removed, _, sequence, _, clean, _⟩ := listRemoveData_erase at_ data
    exact ⟨h', last', as', run, removed, sequence, by simp [clean, ListCall.adds]⟩

/-- A run of calls. -/
theorem performAll_run (at_ : ListAt h list last as) (calls : List ListCall) (given : AllocationsSucceed alloc list calls h) :
    ∃ h' last' as', runEach (ListCall.perform alloc list) calls h = .ok ((), h') ∧ ListAt h' list last' as' ∧
      as'.map h'.data = sequenceAfter calls (as.map h.data) ∧
      ((as' = [] ∧ last' = 0) ↔ (as = [] ∧ last = 0) ∧ ∀ call ∈ calls, call.adds = false) := by
  induction calls generalizing h last as with
  | nil => exact ⟨h, last, as, rfl, at_, rfl, by simp⟩
  | cons call calls ih =>
    obtain ⟨first, rest⟩ := given
    obtain ⟨h1, last1, as1, run1, at1, sequence1, clean1⟩ := perform_run at_ call first
    obtain ⟨h', last', as', run, at', sequence, clean⟩ := ih at1 (rest h1 run1)
    refine ⟨h', last', as', ?_, at', ?_, ?_⟩
    · unfold runEach
      rw [run_bind run1, run]
    · rw [sequence, sequence1]
      rfl
    · rw [clean, clean1, List.forall_mem_cons, and_assoc]

end

end Delos.Invariants
