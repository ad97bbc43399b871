import Delos.Invariants.LiveRegions

/-!
# Integrity of a heap over every run

A run starts with `heap_init` on arbitrary memory. Its steps are `heap_malloc`
of any size whose block fits a word, `heap_free` of a pointer that is live, and
stores of the owner into a live region; the last kind makes the contents of
live regions arbitrary.
-/
namespace Delos.Guarantees
open Lib Source Invariants

inductive HeapStep (heap : Heap) : HeapState → HeapState → Prop
  | malloc (s : HeapState) (size p : Nat) (m : ByteMemory)
      (request : size + blockHeaderSize < wordModulus)
      (run : heapMalloc heap size s.mem = some (p, m)) :
      HeapStep heap s ⟨m, if p = 0 then s.live else (p, size) :: s.live⟩
  | free (s : HeapState) (region : Nat × Nat) (allocated : region ∈ s.live) :
      HeapStep heap s ⟨heapFree heap region.1 s.mem, s.live.erase region⟩
  | store (s : HeapState) (region : Nat × Nat) (a : Nat) (v : UInt8) (allocated : region ∈ s.live)
      (low : region.1 ≤ a) (high : a < region.1 + region.2) :
      HeapStep heap s ⟨s.mem.writeByte a v, s.live⟩

inductive HeapReachable (heap : Heap) : HeapState → Prop
  | init (m : ByteMemory) (mapped : m.origin ≤ heap.addr) :
      HeapReachable heap ⟨(heapInit heap.addr heap.size m).2, []⟩
  | step {s s' : HeapState} (before : HeapReachable heap s) (step : HeapStep heap s s') :
      HeapReachable heap s'

/-- The blocks met by following `next` from an address up to NULL. -/
def Reached (m : ByteMemory) : Nat → List Block → Prop
  | a, [] => a = 0
  | a, b :: rest =>
    a ≠ 0 ∧ b = ⟨a, blockSize m a, blockFree m a⟩ ∧ Reached m (blockNext m a) rest

structure HeapIntact (heap : Heap) (s : HeapState) : Prop where
  blocks : ∃ bs, Reached s.mem heap.addr bs ∧ Tiles heap.addr bs (heap.addr + heap.size) ∧
    (bs.map Block.size).sum = heap.size ∧
    ∀ b ∈ bs, ∀ region ∈ s.live, Apart (b.addr, blockHeaderSize) region
  inside : ∀ region ∈ s.live,
    heap.addr ≤ region.1 ∧ region.1 + region.2 ≤ heap.addr + heap.size
  apart : s.live.Pairwise Apart

section
variable {heap : Heap} {s : HeapState} {bs : List Block}

theorem reached_of_stored {m : ByteMemory} {start stop : Nat} (stored : Stored m bs)
    (tiled : Tiles start bs stop) (positive : 0 < start) : Reached m (firstAddr bs) bs := by
  induction bs generalizing start with
  | nil => rfl
  | cons b rest ih =>
    obtain ⟨header, later⟩ := stored
    obtain ⟨at_start, tail⟩ := tiled
    refine ⟨?_, ?_, ?_⟩
    · rw [firstAddr, at_start]
      exact Nat.ne_of_gt positive
    · rw [firstAddr, header.size, header.free]
    · rw [firstAddr, header.next]
      exact ih later tail (Nat.lt_of_lt_of_le positive (Nat.le_add_right _ _))

theorem intact_of_invariant (placed : Placed heap) (inv : HeapInvariant heap s bs) :
    HeapIntact heap s := by
  refine ⟨⟨bs, ?_, inv.tiled, ?_, ?_⟩, ?_, live_pairwise inv⟩
  · have reached := reached_of_stored inv.stored inv.tiled placed.positive
    cases bs with
    | nil => exact absurd rfl (tiles_nonempty placed inv)
    | cons b rest =>
      rw [firstAddr, inv.tiled.1] at reached
      exact reached
  · have total := tiles_sum inv.tiled
    omega
  · intro b member region live
    exact live_off_headers inv live member
  · intro region live
    exact live_bounds inv live

theorem step_preserves (placed : Placed heap) (inv : HeapInvariant heap s bs) {s' : HeapState}
    (step : HeapStep heap s s') : ∃ bs', HeapInvariant heap s' bs' := by
  cases step with
  | malloc size p m request run => exact malloc_preserves placed inv request run
  | free region allocated => exact free_preserves placed inv allocated
  | store region a v allocated low high => exact ⟨bs, store_preserves inv allocated v low high⟩

end

theorem reachable_invariant {heap : Heap} {s : HeapState} (placed : Placed heap)
    (run : HeapReachable heap s) : ∃ bs, HeapInvariant heap s bs := by
  induction run with
  | init m mapped =>
    have word : heap.size < wordModulus := Nat.lt_of_le_of_lt (Nat.le_add_right _ _) placed.word
    exact ⟨_, single_invariant placed (stored_heapInit _ _ mapped word)
      ((origin_heapInit _ _).trans_le mapped)⟩
  | step before step ih =>
    obtain ⟨bs, inv⟩ := ih
    exact step_preserves placed inv step

/-! ## The guarantee -/

/-- In every state of every run the blocks tile the heap and the live regions
are inside it, off every header and apart from each other; from every such
state `heap_malloc` returns, a result other than NULL is again such a region,
and neither operation writes a byte of a live region. -/
theorem heap_integrity {heap : Heap} {s : HeapState} (placed : Placed heap)
    (run : HeapReachable heap s) :
    HeapIntact heap s ∧
      (∀ size, size + blockHeaderSize < wordModulus →
        ∃ p m, heapMalloc heap size s.mem = some (p, m) ∧ LiveUnchanged s m ∧
          HeapIntact heap ⟨m, if p = 0 then s.live else (p, size) :: s.live⟩) ∧
      ∀ region ∈ s.live, LiveUnchanged s (heapFree heap region.1 s.mem) := by
  obtain ⟨bs, inv⟩ := reachable_invariant placed run
  refine ⟨intact_of_invariant placed inv, ?_, ?_⟩
  · intro size request
    obtain ⟨m, result, _, _, unchanged⟩ := malloc_result placed inv size request
    obtain ⟨bs', after⟩ := malloc_preserves placed inv request result
    exact ⟨_, m, result, unchanged, intact_of_invariant placed after⟩
  · intro region live
    exact free_unchanged placed inv live

/-- The first allocation of the kernel heap. -/
theorem heap_integrity_kernel :
    ∃ m, heapMalloc kernelHeap 16 (heapInit kernelHeap.addr kernelHeap.size ⟨kernelHeap.addr, 0⟩).2 =
        some (0xC0400009, m) ∧ HeapIntact kernelHeap ⟨m, [(0xC0400009, 16)]⟩ := by
  have result : (heapMalloc kernelHeap 16
      (heapInit kernelHeap.addr kernelHeap.size ⟨kernelHeap.addr, 0⟩).2).map Prod.fst =
        some 0xC0400009 := by decide +kernel
  have guarantee := heap_integrity kernelHeap_placed (.init ⟨kernelHeap.addr, 0⟩ (Nat.le_refl _))
  obtain ⟨p, m, run, _, intact⟩ := guarantee.2.1 16 (by decide)
  rw [run] at result
  obtain rfl : p = 0xC0400009 := Option.some.inj result
  exact ⟨m, run, intact⟩

end Delos.Guarantees
