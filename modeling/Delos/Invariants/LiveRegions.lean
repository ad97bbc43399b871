import Mathlib.Data.List.Nodup
import Delos.Invariants.HeapLayout

/-!
# Live regions of a heap

The invariant of a heap with a record of the regions that were handed out and
not yet freed; the code keeps no such record. `heap_malloc`, `heap_free` of a
live pointer and stores of an owner keep it, and neither heap operation writes
a byte of a live region.
-/
namespace Delos.Invariants
open Lib Source

structure HeapState where
  mem : ByteMemory
  live : List (Nat × Nat)

/-- A heap region of the 32-bit address space: clear of NULL by more than one
header, larger than one header, its end no further than the last address. -/
structure Placed (heap : Heap) : Prop where
  low : blockHeaderSize < heap.addr
  header : blockHeaderSize < heap.size
  inside : heap.addr + heap.size ≤ wordModulus

theorem Placed.positive {heap : Heap} (placed : Placed heap) : 0 < heap.addr :=
  Nat.lt_of_le_of_lt (Nat.zero_le _) placed.low

theorem Placed.word {heap : Heap} (placed : Placed heap) :
    heap.size + blockHeaderSize < wordModulus := by
  have low := placed.low
  have inside := placed.inside
  omega

theorem kernelHeap_placed : Placed kernelHeap := ⟨by decide, by decide, by decide⟩

theorem processHeap_placed : Placed processHeap := ⟨by decide, by decide, by decide⟩

def Apart (r q : Nat × Nat) : Prop := r.1 + r.2 ≤ q.1 ∨ q.1 + q.2 ≤ r.1

/-- The bytes of the live regions are the same in both memories. -/
def LiveUnchanged (s : HeapState) (m : ByteMemory) : Prop :=
  ∀ region ∈ s.live, ∀ a, region.1 ≤ a → a < region.1 + region.2 → m.readByte a = s.mem.readByte a

/-- A live region sits behind the header of a block that is in use. -/
def OwnsBlock (bs : List Block) (region : Nat × Nat) : Prop :=
  ∃ b ∈ bs, b.free = false ∧ region.1 = b.addr + blockHeaderSize ∧
    region.2 + blockHeaderSize ≤ b.size

structure HeapInvariant (heap : Heap) (s : HeapState) (bs : List Block) : Prop where
  stored : Stored s.mem bs
  tiled : Tiles heap.addr bs (heap.addr + heap.size)
  large : ∀ b ∈ bs, blockHeaderSize ≤ b.size
  mapped : s.mem.origin ≤ heap.addr
  owners : ∀ region ∈ s.live, OwnsBlock bs region
  distinct : (s.live.map Prod.fst).Nodup

section
variable {heap : Heap} {s : HeapState} {bs : List Block}

theorem tiles_nonempty (placed : Placed heap) (inv : HeapInvariant heap s bs) : bs ≠ [] := by
  rintro rfl
  have empty : heap.addr = heap.addr + heap.size := inv.tiled
  have := placed.header
  unfold blockHeaderSize at this
  omega

theorem inv_positive (inv : HeapInvariant heap s bs) : ∀ b ∈ bs, 0 < b.size := fun b member =>
  Nat.lt_of_lt_of_le (by decide : 0 < blockHeaderSize) (inv.large b member)

theorem tiles_same_addr (inv : HeapInvariant heap s bs) {b c : Block} (hb : b ∈ bs) (hc : c ∈ bs)
    (same : b.addr = c.addr) : b = c := by
  by_contra different
  have := inv_positive inv b hb
  have := inv_positive inv c hc
  rcases tiles_disjoint inv.tiled (inv_positive inv) hb hc different with left | right <;> omega

/-- No byte of a live region is in a free block. -/
theorem live_not_free (inv : HeapInvariant heap s bs) {region : Nat × Nat} (live : region ∈ s.live)
    {a : Nat} (low : region.1 ≤ a) (high : a < region.1 + region.2) :
    ∀ b ∈ bs, b.free = true → ¬ b.Covers a := by
  obtain ⟨owner, member, used, begins, room⟩ := inv.owners region live
  intro b hb free covered
  have different : b ≠ owner := by
    rintro rfl
    rw [free] at used
    cases used
  unfold Block.Covers at covered
  rcases tiles_disjoint inv.tiled (inv_positive inv) hb member different with left | right <;> omega

/-- One free block over the whole region, and nothing live. -/
theorem single_invariant (placed : Placed heap) {m : ByteMemory}
    (stored : Stored m [⟨heap.addr, heap.size, true⟩]) (mapped : m.origin ≤ heap.addr) :
    HeapInvariant heap ⟨m, []⟩ [⟨heap.addr, heap.size, true⟩] where
  stored := stored
  tiled := ⟨rfl, rfl⟩
  large := by
    intro b member
    rw [List.mem_singleton.mp member]
    exact Nat.le_of_lt placed.header
  mapped := mapped
  owners := by simp
  distinct := List.nodup_nil

/-- The effect of `heap_malloc` from a state that satisfies the invariant. -/
theorem malloc_result (placed : Placed heap) (inv : HeapInvariant heap s bs) (size : Nat)
    (request : size + blockHeaderSize < wordModulus) :
    ∃ m', heapMalloc heap size s.mem =
        some (resultPointer (allocate blockHeaderSize (size + blockHeaderSize) bs).1, m') ∧
      Stored m' (allocate blockHeaderSize (size + blockHeaderSize) bs).2 ∧
      m'.origin = s.mem.origin ∧ LiveUnchanged s m' := by
  obtain ⟨m', run, stored, origin, frame⟩ := heapMalloc_allocate inv.stored inv.tiled inv.large
    placed.positive (tiles_nonempty placed inv) placed.inside placed.word inv.mapped request
  exact ⟨m', run, stored, origin, fun region live a low high =>
    frame a (live_not_free inv live low high)⟩

/-- The owner of a live region holds it, and the region stays off every header. -/
theorem live_off_headers (inv : HeapInvariant heap s bs) {region : Nat × Nat}
    (live : region ∈ s.live) {c : Block} (member : c ∈ bs) :
    Apart (c.addr, blockHeaderSize) region := by
  obtain ⟨owner, owned, _, begins, room⟩ := inv.owners region live
  have wide := inv.large c member
  unfold Apart
  by_cases same : c = owner
  · subst same
    exact Or.inl (Nat.le_of_eq begins.symm)
  · rcases tiles_disjoint inv.tiled (inv_positive inv) member owned same with left | right
    · simp only
      omega
    · simp only
      omega

theorem live_pairwise (inv : HeapInvariant heap s bs) : s.live.Pairwise Apart := by
  have distinct := List.pairwise_map.mp inv.distinct
  refine distinct.imp_of_mem fun {r q} hr hq different => ?_
  obtain ⟨b, hb, _, b_begins, b_room⟩ := inv.owners r hr
  obtain ⟨c, hc, _, c_begins, c_room⟩ := inv.owners q hq
  have other : b ≠ c := by
    rintro rfl
    exact different (b_begins.trans c_begins.symm)
  unfold Apart
  rcases tiles_disjoint inv.tiled (inv_positive inv) hb hc other with left | right <;> omega

theorem live_bounds (inv : HeapInvariant heap s bs) {region : Nat × Nat} (live : region ∈ s.live) :
    heap.addr ≤ region.1 ∧ region.1 + region.2 ≤ heap.addr + heap.size := by
  obtain ⟨owner, owned, _, begins, room⟩ := inv.owners region live
  have := tiles_bounds inv.tiled owned
  omega

/-! ## Operations -/

/-- A result other than NULL sits behind the header of a block that was free. -/
theorem malloc_fresh (placed : Placed heap) (inv : HeapInvariant heap s bs) {size p : Nat}
    (pointer : p = resultPointer (allocate blockHeaderSize (size + blockHeaderSize) bs).1)
    (given : p ≠ 0) :
    OwnsBlock (allocate blockHeaderSize (size + blockHeaderSize) bs).2 (p, size) ∧
      p ∉ s.live.map Prod.fst := by
  cases found : (allocate blockHeaderSize (size + blockHeaderSize) bs).1 with
  | none =>
    rw [found] at pointer
    exact absurd pointer given
  | some a =>
    obtain ⟨⟨d, member, at_addr, used, room⟩, f, was, at_addr', free⟩ := allocate_some found
    have bounds := tiles_bounds (allocate_tiles inv.tiled) member
    have inside := placed.inside
    rw [found, resultPointer] at pointer
    -- a block that ends at the last address of the word would wrap to NULL
    have no_wrap : p = a + blockHeaderSize := by
      rcases Nat.lt_or_ge (a + blockHeaderSize) wordModulus with fits | wraps
      · rw [pointer, Nat.mod_eq_of_lt fits]
      · have exact_end : a + blockHeaderSize = wordModulus := by omega
        rw [exact_end, Nat.mod_self] at pointer
        exact absurd pointer given
    refine ⟨⟨d, member, used, ?_, room⟩, fun taken => ?_⟩
    · rw [at_addr]
      exact no_wrap
    · obtain ⟨region, live, same⟩ := List.mem_map.mp taken
      obtain ⟨owner, owned, in_use, begins, _⟩ := inv.owners region live
      have one := tiles_same_addr inv owned was (by omega)
      rw [one, free] at in_use
      cases in_use

theorem malloc_preserves (placed : Placed heap) (inv : HeapInvariant heap s bs) {size p : Nat}
    {m : ByteMemory} (request : size + blockHeaderSize < wordModulus)
    (run : heapMalloc heap size s.mem = some (p, m)) :
    ∃ bs', HeapInvariant heap ⟨m, if p = 0 then s.live else (p, size) :: s.live⟩ bs' := by
  obtain ⟨m', result, stored, origin, _⟩ := malloc_result placed inv size request
  rw [run] at result
  obtain ⟨pointer, rfl⟩ := Prod.mk.inj (Option.some.inj result)
  have tiled : Tiles heap.addr (allocate blockHeaderSize (size + blockHeaderSize) bs).2
      (heap.addr + heap.size) := allocate_tiles inv.tiled
  have large := allocate_large inv.large (Nat.le_add_left blockHeaderSize size)
  have owners : ∀ region ∈ s.live,
      OwnsBlock (allocate blockHeaderSize (size + blockHeaderSize) bs).2 region := by
    intro region live
    obtain ⟨b, member, used, facts⟩ := inv.owners region live
    exact ⟨b, allocate_keeps member used, used, facts⟩
  refine ⟨_, stored, tiled, large, origin.trans_le inv.mapped, ?_, ?_⟩
  · split
    · exact owners
    next given =>
      intro region member
      rcases List.mem_cons.mp member with same | old
      · subst same
        exact (malloc_fresh placed inv pointer given).1
      · exact owners region old
  · split
    · exact inv.distinct
    next given =>
      rw [List.map_cons, List.nodup_cons]
      exact ⟨(malloc_fresh placed inv pointer given).2, inv.distinct⟩

/-- The address `heap_free` computes is that of the owner's header. -/
theorem heapFree_owner (placed : Placed heap) (inv : HeapInvariant heap s bs) {region : Nat × Nat}
    {b : Block} (member : b ∈ bs) (begins : region.1 = b.addr + blockHeaderSize) :
    heapFree heap region.1 s.mem = s.mem ∨
      heapFree heap region.1 s.mem = setBlockFree s.mem b.addr true := by
  unfold heapFree
  split
  · exact Or.inl rfl
  · refine Or.inr ?_
    have bounds := tiles_bounds inv.tiled member
    have header := inv.large b member
    have inside := placed.inside
    have back : (region.1 + wordModulus - blockHeaderSize) % wordModulus = b.addr := by
      have shift : region.1 + wordModulus - blockHeaderSize = b.addr + wordModulus := by omega
      rw [shift, Nat.add_mod_right]
      exact Nat.mod_eq_of_lt (by unfold blockHeaderSize at header; omega)
    rw [back]

theorem free_preserves (placed : Placed heap) (inv : HeapInvariant heap s bs) {region : Nat × Nat}
    (allocated : region ∈ s.live) :
    ∃ bs', HeapInvariant heap ⟨heapFree heap region.1 s.mem, s.live.erase region⟩ bs' := by
  obtain ⟨b, member, used, begins, room⟩ := inv.owners region allocated
  have whole : s.live.Nodup := List.Nodup.of_map _ inv.distinct
  have distinct : ((s.live.erase region).map Prod.fst).Nodup :=
    inv.distinct.sublist (List.erase_sublist.map _)
  rcases heapFree_owner placed inv member begins with nothing | freed
  · rw [nothing]
    exact ⟨bs, inv.stored, inv.tiled, inv.large, inv.mapped,
      fun other live => inv.owners other (List.mem_of_mem_erase live), distinct⟩
  · rw [freed]
    refine ⟨release b.addr bs, stored_release member inv.stored inv.tiled inv.large inv.mapped,
      release_tiles _ inv.tiled, ?_, ?_, ?_, distinct⟩
    · intro d hd
      rcases mem_release hd with kept | ⟨c, source, _, rfl⟩
      · exact inv.large d kept
      · exact inv.large c source
    · rw [origin_setBlockFree]
      exact inv.mapped
    · intro other live
      obtain ⟨different, old⟩ := whole.mem_erase_iff.mp live
      obtain ⟨c, hc, c_used, c_begins, c_room⟩ := inv.owners other old
      refine ⟨c, release_keeps hc ?_, c_used, c_begins, c_room⟩
      intro same
      exact different (List.inj_on_of_nodup_map inv.distinct old allocated (by omega))

theorem store_preserves (inv : HeapInvariant heap s bs) {region : Nat × Nat}
    (allocated : region ∈ s.live) {a : Nat} (v : UInt8) (low : region.1 ≤ a)
    (high : a < region.1 + region.2) : HeapInvariant heap ⟨s.mem.writeByte a v, s.live⟩ bs := by
  refine ⟨?_, inv.tiled, inv.large, ?_, inv.owners, inv.distinct⟩
  · refine stored_congr inv.stored fun b member i small => ?_
    have apart := live_off_headers inv allocated member
    unfold Apart at apart
    exact ByteMemory.readByte_writeByte_ne _ _ _ _ (by simp only at apart; omega)
  · rw [ByteMemory.origin_writeByte]
    exact inv.mapped

theorem free_unchanged (placed : Placed heap) (inv : HeapInvariant heap s bs)
    {region : Nat × Nat} (allocated : region ∈ s.live) :
    LiveUnchanged s (heapFree heap region.1 s.mem) := by
  obtain ⟨b, member, _, begins, _⟩ := inv.owners region allocated
  intro other live a low high
  rcases heapFree_owner placed inv member begins with nothing | freed
  · rw [nothing]
  · have apart := live_off_headers inv live member
    unfold Apart blockHeaderSize at apart
    rw [freed]
    exact readByte_setBlockFree _ _ _ (by simp only at apart; omega)

end

end Delos.Invariants
