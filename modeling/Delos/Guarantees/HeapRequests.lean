import Delos.Guarantees.HeapIntegrity
import Delos.Lib.FreeRuns

/-!
# What heap_malloc refuses and what it accepts

The scan of `heap_malloc` merges each free block with its successor once, so a
run of three or more free neighbours is never tested as a whole:
`refuses_only_without_room` gives the exact condition under which NULL means
that no run was large enough. The sum of the size and the header wraps at the
top of the 32-bit range: `served_inside` gives the sizes for which the region
handed out fits the block it was cut from.
-/
namespace Delos.Guarantees
open Lib Source Invariants

/-- The tiling invariant of a heap, read off the memory. -/
structure HeapTiled (heap : Heap) (m : ByteMemory) (bs : List Block) : Prop where
  reached : Reached m heap.addr bs
  tiled : Tiles heap.addr bs (heap.addr + heap.size)
  large : ∀ b ∈ bs, blockHeaderSize ≤ b.size
  mapped : m.origin ≤ heap.addr

/-- The region `[p, p + size)` ends inside the block it was carved from: a free
block as it was before the call, or two free neighbours that were merged. -/
def ServedRequest (bs : List Block) (size p : Nat) : Prop :=
  ∃ b more, FreeRun bs (b :: more) ∧ more.length ≤ 1 ∧ p = b.addr + blockHeaderSize ∧
    p + size ≤ b.addr + totalSize (b :: more)

def SafeRequest (heap : Heap) (bs : List Block) (size p : Nat) (m' : ByteMemory) : Prop :=
  (p ≠ 0 → ServedRequest bs size p) ∧ ∃ bs', HeapTiled heap m' bs'

section
variable {heap : Heap} {s : HeapState} {m : ByteMemory} {bs : List Block}

theorem stored_of_reached {a : Nat} (reached : Reached m a bs) : a = firstAddr bs ∧ Stored m bs := by
  induction bs generalizing a with
  | nil => exact ⟨reached, trivial⟩
  | cons b rest ih =>
    obtain ⟨_, same, later⟩ := reached
    obtain ⟨next, stored⟩ := ih later
    subst same
    exact ⟨rfl, ⟨next, rfl, rfl⟩, stored⟩

theorem HeapTiled.invariant (before : HeapTiled heap m bs) : HeapInvariant heap ⟨m, []⟩ bs where
  stored := (stored_of_reached before.reached).2
  tiled := before.tiled
  large := before.large
  mapped := before.mapped
  owners := by simp
  distinct := List.nodup_nil

theorem tiled_of_invariant (placed : Placed heap) (inv : HeapInvariant heap s bs) :
    HeapTiled heap s.mem bs := by
  refine ⟨?_, inv.tiled, inv.large, inv.mapped⟩
  have reached := reached_of_stored inv.stored inv.tiled placed.positive
  cases bs with
  | nil => exact absurd rfl (tiles_nonempty placed inv)
  | cons b rest =>
    rw [firstAddr, inv.tiled.1] at reached
    exact reached

/-- In a heap that ends before the last address the pointer never wraps to NULL. -/
theorem resultPointer_inside {needed a : Nat} (ends : heap.addr + heap.size < wordModulus)
    (inv : HeapInvariant heap s bs) (found : (allocate blockHeaderSize needed bs).1 = some a) :
    resultPointer (allocate blockHeaderSize needed bs).1 = a + blockHeaderSize := by
  obtain ⟨_, b, member, at_addr, _⟩ := allocate_some found
  have bounds := tiles_bounds inv.tiled member
  have header := inv.large b member
  rw [found, resultPointer]
  exact Nat.mod_eq_of_lt (by omega)

/-- The pointer is NULL exactly when the scan found nothing. -/
theorem resultPointer_null {needed : Nat} (ends : heap.addr + heap.size < wordModulus)
    (inv : HeapInvariant heap s bs) :
    resultPointer (allocate blockHeaderSize needed bs).1 = 0 ↔
      (allocate blockHeaderSize needed bs).1 = none := by
  cases found : (allocate blockHeaderSize needed bs).1 with
  | none => simp [resultPointer]
  | some a =>
    have inside := resultPointer_inside ends inv found
    rw [found] at inside
    rw [inside]
    simp [blockHeaderSize]

/-- A pointer that is not NULL sits behind the first block of a join that is large enough. -/
theorem resultPointer_join {needed p : Nat} (ends : heap.addr + heap.size < wordModulus)
    (inv : HeapInvariant heap s bs)
    (pointer : p = resultPointer (allocate blockHeaderSize needed bs).1) (given : p ≠ 0) :
    ∃ b more, FreeRun bs (b :: more) ∧ more.length ≤ 1 ∧ p = b.addr + blockHeaderSize ∧
      needed ≤ totalSize (b :: more) := by
  cases found : (allocate blockHeaderSize needed bs).1 with
  | none =>
    rw [found] at pointer
    exact absurd pointer given
  | some a =>
    obtain ⟨b, more, scanned, addr, room⟩ := allocate_pair found
    have short := scanned.short
    rw [List.length_cons] at short
    rw [resultPointer_inside ends inv found, ← addr] at pointer
    exact ⟨b, more, scanned.run, by omega, pointer, room⟩

/-! ## Sizes whose sum with the header fits a word -/

theorem safe_fitting (placed : Placed heap) (ends : heap.addr + heap.size < wordModulus)
    (before : HeapTiled heap m bs) {size : Nat} (fits : size + blockHeaderSize < wordModulus) :
    ∃ p m', heapMalloc heap size m = some (p, m') ∧ SafeRequest heap bs size p m' := by
  have inv := before.invariant
  obtain ⟨m', run, _⟩ := malloc_result placed inv size fits
  obtain ⟨bs', after⟩ := malloc_preserves placed inv fits run
  refine ⟨_, m', run, ?_, bs', tiled_of_invariant placed after⟩
  intro given
  obtain ⟨b, more, free, short, pointer, room⟩ := resultPointer_join ends inv rfl given
  exact ⟨b, more, free, short, pointer, by omega⟩

/-! ## Sizes whose sum with the header wraps -/

/-- The wrapped sum is smaller than every block. -/
theorem wrapped_small {size : Nat} (word : size < wordModulus)
    (wraps : wordModulus ≤ size + blockHeaderSize) :
    (size + blockHeaderSize) % wordModulus < blockHeaderSize := by
  unfold blockHeaderSize wordModulus at *
  omega

theorem safe_wrapped_used (placed : Placed heap) (before : HeapTiled heap m bs) (size : Nat)
    (used : ∀ b ∈ bs, b.free = false) :
    ∃ p m', heapMalloc heap size m = some (p, m') ∧ SafeRequest heap bs size p m' := by
  have inv := before.invariant
  obtain ⟨m', run, effect⟩ := heapMalloc_visits size inv.stored inv.tiled inv.large placed.positive
    (tiles_nonempty placed inv) placed.inside placed.word inv.mapped rfl
  rw [allocate_used used] at run effect
  obtain ⟨stored, origin, _⟩ := effect (Or.inr rfl)
  have after : HeapInvariant heap ⟨m', []⟩ bs :=
    ⟨stored, inv.tiled, inv.large, origin.trans_le inv.mapped, by simp, List.nodup_nil⟩
  exact ⟨0, m', run, fun given => absurd rfl given, bs, tiled_of_invariant placed after⟩

/-- The region of a wrapped request would reach past the whole heap. -/
theorem unsafe_wrapped_free (placed : Placed heap) (ends : heap.addr + heap.size < wordModulus)
    (before : HeapTiled heap m bs) {size : Nat} (word : size < wordModulus)
    (wraps : wordModulus ≤ size + blockHeaderSize) {b : Block} (member : b ∈ bs)
    (free : b.free = true) :
    ∃ p m', heapMalloc heap size m = some (p, m') ∧ ¬ SafeRequest heap bs size p m' := by
  have inv := before.invariant
  obtain ⟨m', run, _⟩ := heapMalloc_visits size inv.stored inv.tiled inv.large placed.positive
    (tiles_nonempty placed inv) placed.inside placed.word inv.mapped rfl
  have small := wrapped_small word wraps
  have header : blockHeaderSize ≤ b.size := inv.large b member
  obtain ⟨a, found⟩ : ∃ a, (allocate blockHeaderSize ((size + blockHeaderSize) % wordModulus) bs).1 =
      some a := allocate_free member free (by omega)
  refine ⟨_, m', run, ?_⟩
  rw [resultPointer_inside ends inv found]
  intro safe
  obtain ⟨c, more, stretch, _, pointer, inside⟩ := safe.1 (by simp [blockHeaderSize])
  have bounds := tiles_stretch before.tiled stretch.1
  omega

end

/-- The first block of a fresh heap is its only one. -/
theorem heapInit_tiled {heap : Heap} (placed : Placed heap) (m : ByteMemory)
    (mapped : m.origin ≤ heap.addr) :
    HeapTiled heap (heapInit heap.addr heap.size m).2 [⟨heap.addr, heap.size, true⟩] := by
  have word : heap.size < wordModulus := Nat.lt_of_le_of_lt (Nat.le_add_right _ _) placed.word
  have stored := stored_heapInit (m := m) heap.addr heap.size mapped word
  have origin := origin_heapInit (m := m) heap.addr heap.size
  generalize (heapInit heap.addr heap.size m).2 = fresh at stored origin ⊢
  exact tiled_of_invariant placed (single_invariant placed stored (origin.trans_le mapped))

/-! ## The guarantees -/

/-- In every reachable state, NULL means that no run of adjacent free blocks was
large enough, exactly when a large enough run also has a large enough join. -/
theorem refuses_only_without_room {heap : Heap} {s : HeapState} {size : Nat} (placed : Placed heap)
    (ends : heap.addr + heap.size < wordModulus) (run : HeapReachable heap s)
    (request : size + blockHeaderSize < wordModulus) :
    ∃ bs, Reached s.mem heap.addr bs ∧
      ((∀ m, heapMalloc heap size s.mem = some (0, m) →
          ∀ run, FreeRun bs run → totalSize run < size + blockHeaderSize) ↔
        ((∃ run, FreeRun bs run ∧ size + blockHeaderSize ≤ totalSize run) →
          ∃ pair, ScanPair bs pair ∧ size + blockHeaderSize ≤ totalSize pair)) := by
  obtain ⟨bs, inv⟩ := reachable_invariant placed run
  obtain ⟨m, result, _⟩ := malloc_result placed inv size request
  refine ⟨bs, (tiled_of_invariant placed inv).reached, ?_⟩
  constructor
  · intro truthful ⟨wide, stretch, room⟩
    cases found : (allocate blockHeaderSize (size + blockHeaderSize) bs).1 with
    | none =>
      rw [(resultPointer_null ends inv).mpr found] at result
      have := truthful m result wide stretch
      omega
    | some a =>
      obtain ⟨b, more, scanned, _, enough⟩ := allocate_pair found
      exact ⟨b :: more, scanned, enough⟩
  · intro joined m' null wide stretch
    by_contra room
    obtain ⟨pair, scanned, enough⟩ := joined ⟨wide, stretch, by omega⟩
    obtain ⟨a, found⟩ : ∃ a, (allocate blockHeaderSize (size + blockHeaderSize) bs).1 = some a :=
      pair_allocate scanned enough
    rw [null] at result
    have pointer := congrArg Prod.fst (Option.some.inj result)
    rw [(resultPointer_null ends inv).mp pointer.symm] at found
    cases found

/-- A fresh kernel heap. -/
theorem refuses_only_without_room_fresh :
    ∃ bs, Reached (heapInit kernelHeap.addr kernelHeap.size ⟨kernelHeap.addr, 0⟩).2 kernelHeap.addr bs ∧
      ((∀ m, heapMalloc kernelHeap 16
            (heapInit kernelHeap.addr kernelHeap.size ⟨kernelHeap.addr, 0⟩).2 = some (0, m) →
          ∀ run, FreeRun bs run → totalSize run < 16 + blockHeaderSize) ↔
        ((∃ run, FreeRun bs run ∧ 16 + blockHeaderSize ≤ totalSize run) →
          ∃ pair, ScanPair bs pair ∧ 16 + blockHeaderSize ≤ totalSize pair)) :=
  refuses_only_without_room kernelHeap_placed (by decide) (.init ⟨kernelHeap.addr, 0⟩ (Nat.le_refl _))
    (by decide)

/-- For every 32-bit size the call returns, and it is safe exactly when the sum
with the header does not wrap or no block is free. -/
theorem served_inside {heap : Heap} {m : ByteMemory} {bs : List Block} {size : Nat}
    (placed : Placed heap) (ends : heap.addr + heap.size < wordModulus)
    (before : HeapTiled heap m bs) (word : size < wordModulus) :
    ∃ p m', heapMalloc heap size m = some (p, m') ∧
      (SafeRequest heap bs size p m' ↔
        size + blockHeaderSize < wordModulus ∨ ∀ b ∈ bs, b.free = false) := by
  by_cases fits : size + blockHeaderSize < wordModulus
  · obtain ⟨p, m', run, safe⟩ := safe_fitting placed ends before fits
    exact ⟨p, m', run, fun _ => Or.inl fits, fun _ => safe⟩
  · by_cases used : ∀ b ∈ bs, b.free = false
    · obtain ⟨p, m', run, safe⟩ := safe_wrapped_used placed before size used
      exact ⟨p, m', run, fun _ => Or.inr used, fun _ => safe⟩
    · obtain ⟨b, member, free⟩ : ∃ b ∈ bs, b.free = true := by simpa using used
      obtain ⟨p, m', run, broken⟩ := unsafe_wrapped_free placed ends before word (by omega) member free
      refine ⟨p, m', run, fun safe => absurd safe broken, ?_⟩
      intro either
      exact absurd either (not_or.mpr ⟨fits, used⟩)

theorem served_inside_fresh :
    ∃ p m', heapMalloc kernelHeap 16 (heapInit kernelHeap.addr kernelHeap.size ⟨kernelHeap.addr, 0⟩).2 =
        some (p, m') ∧
      (SafeRequest kernelHeap [⟨kernelHeap.addr, kernelHeap.size, true⟩] 16 p m' ↔
        16 + blockHeaderSize < wordModulus ∨
          ∀ b ∈ [(⟨kernelHeap.addr, kernelHeap.size, true⟩ : Block)], b.free = false) :=
  served_inside kernelHeap_placed (by decide)
    (heapInit_tiled kernelHeap_placed ⟨kernelHeap.addr, 0⟩ (Nat.le_refl _)) (by decide)

/-- A request of 2^32 - 1 bytes is answered with a block of eight bytes. -/
theorem served_beyond_heap :
    ¬ ∀ (heap : Heap) (m : ByteMemory) (bs : List Block) (size : Nat), Placed heap →
      heap.addr + heap.size < wordModulus → HeapTiled heap m bs → size < wordModulus →
      ∀ p m', heapMalloc heap size m = some (p, m') → SafeRequest heap bs size p m' := by
  intro safe
  have tiled := heapInit_tiled kernelHeap_placed ⟨kernelHeap.addr, 0⟩ (Nat.le_refl _)
  obtain ⟨p, m', run, broken⟩ := unsafe_wrapped_free kernelHeap_placed (by decide) tiled
    (by decide : 0xFFFFFFFF < wordModulus) (by decide) (List.mem_singleton_self _) rfl
  exact broken (safe _ _ _ _ kernelHeap_placed (by decide) tiled (by decide) p m' run)

/-! ## Three free neighbours -/

def mallocState (heap : Heap) (size : Nat) (s : HeapState) : HeapState :=
  match heapMalloc heap size s.mem with
  | some (p, m) => ⟨m, if p = 0 then s.live else (p, size) :: s.live⟩
  | none => s

def freeState (heap : Heap) (region : Nat × Nat) (s : HeapState) : HeapState :=
  ⟨heapFree heap region.1 s.mem, s.live.erase region⟩

theorem reachable_malloc {heap : Heap} {s : HeapState} {size : Nat} (before : HeapReachable heap s)
    (request : size + blockHeaderSize < wordModulus) : HeapReachable heap (mallocState heap size s) := by
  unfold mallocState
  split
  next p m run => exact .step before (.malloc s size p m request run)
  next => exact before

theorem reachable_free {heap : Heap} {s : HeapState} {region : Nat × Nat}
    (before : HeapReachable heap s) (allocated : region ∈ s.live) :
    HeapReachable heap (freeState heap region s) :=
  .step before (.free s region allocated)

/-- Three blocks of 100 bytes and one with the rest of the kernel heap. -/
def fourBlocks : HeapState :=
  mallocState kernelHeap (kernelHeap.size - 309) <| mallocState kernelHeap 91 <|
    mallocState kernelHeap 91 <| mallocState kernelHeap 91
      ⟨(heapInit kernelHeap.addr kernelHeap.size ⟨kernelHeap.addr, 0⟩).2, []⟩

/-- The three small blocks are freed again. -/
def threeFree : HeapState :=
  freeState kernelHeap (0xC04000D1, 91) <| freeState kernelHeap (0xC040006D, 91) <|
    freeState kernelHeap (0xC0400009, 91) fourBlocks

theorem threeFree_reachable : HeapReachable kernelHeap threeFree := by
  have four : HeapReachable kernelHeap fourBlocks :=
    reachable_malloc (reachable_malloc (reachable_malloc (reachable_malloc
      (.init ⟨kernelHeap.addr, 0⟩ (Nat.le_refl _)) (by decide)) (by decide)) (by decide)) (by decide)
  refine reachable_free (reachable_free (reachable_free four ?_) ?_) ?_
  · decide +kernel
  · decide +kernel
  · decide +kernel

/-- 241 bytes and a header are refused with 300 adjacent bytes free: the first
two blocks are merged and tested, then the third alone. -/
theorem refused_with_room :
    ¬ ∀ (heap : Heap) (s : HeapState) (size : Nat), Placed heap →
      heap.addr + heap.size < wordModulus → HeapReachable heap s →
      size + blockHeaderSize < wordModulus → ∀ bs, Reached s.mem heap.addr bs →
      ∀ m, heapMalloc heap size s.mem = some (0, m) →
        ∀ run, FreeRun bs run → totalSize run < size + blockHeaderSize := by
  intro truthful
  have null : (heapMalloc kernelHeap 241 threeFree.mem).map Prod.fst = some 0 := by decide +kernel
  obtain ⟨⟨p, m⟩, run, rfl⟩ := Option.map_eq_some_iff.mp null
  have stored : Stored threeFree.mem
      [⟨0xC0400000, 100, true⟩, ⟨0xC0400064, 100, true⟩, ⟨0xC04000C8, 100, true⟩,
        ⟨0xC040012C, kernelHeap.size - 300, false⟩] := by decide +kernel
  have reached := reached_of_stored stored
    (by simp [Tiles, kernelHeap] : Tiles 0xC0400000 _ (0xC0400000 + kernelHeap.size)) (by decide)
  have small := truthful kernelHeap threeFree 241 kernelHeap_placed (by decide) threeFree_reachable
    (by decide) _ reached m run
    [⟨0xC0400000, 100, true⟩, ⟨0xC0400064, 100, true⟩, ⟨0xC04000C8, 100, true⟩]
    ⟨⟨[], _, rfl⟩, by simp⟩
  exact absurd small (by decide)

end Delos.Guarantees
