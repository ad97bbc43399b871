import Mathlib.Data.List.Pairwise
import Delos.Invariants.LiveRegions
import Delos.Source.Vfs

/-!
# The kernel heap under the file system

`kmalloc`, `kfree` and accesses to live regions, as seen by a program over the
state of the file system. `Owned` hides the block list of the heap.
-/
namespace Delos.Invariants
open Lib Source

/-- The judgment for kernel code: it ends, unless `kmalloc` runs out of memory. -/
abbrev Completes {α : Type} (x : Kernel α) (s : Fs) (post : α → Fs → Prop) : Prop :=
  Meets (· = Stop.outOfMemory) x s post

theorem completes_result {α : Type} {x : Kernel α} {s s' : Fs} {post : α → Fs → Prop} {a : α}
    (completes : Completes x s post) (run : x s = .ok (a, s')) : post a s' :=
  meets_result completes run

def Owned (heap : ByteMemory) (live : List (Nat × Nat)) : Prop :=
  ∃ bs, HeapInvariant kernelHeap ⟨heap, live⟩ bs

/-- The bytes of the regions are the same in both heaps. -/
def Kept (live : List (Nat × Nat)) (heap heap' : ByteMemory) : Prop :=
  ∀ region ∈ live, ∀ i < region.2, heap'.readByte (region.1 + i) = heap.readByte (region.1 + i)

section
variable {heap heap' heap'' : ByteMemory} {live : List (Nat × Nat)} {p n q k i len : Nat}
  {bytes : List UInt8}

theorem owned_heapInit {m : ByteMemory} (mapped : m.origin ≤ kernelHeap.addr) :
    Owned (heapInit kernelHeap.addr kernelHeap.size m).2 [] := by
  have placed := kernelHeap_placed
  have word : kernelHeap.size < wordModulus := Nat.lt_of_le_of_lt (Nat.le_add_right _ _) placed.word
  exact ⟨_, single_invariant placed (stored_heapInit _ _ mapped word)
    ((origin_heapInit _ _).trans_le mapped)⟩

theorem owned_bounds (owned : Owned heap live) (member : (p, n) ∈ live) :
    kernelHeap.addr ≤ p ∧ p + n ≤ fsStartAddr := by
  obtain ⟨bs, inv⟩ := owned
  have stop : kernelHeap.addr + kernelHeap.size = fsStartAddr := by decide
  have bounds := live_bounds inv member
  rw [stop] at bounds
  exact bounds

theorem owned_nonzero (owned : Owned heap live) (member : (p, n) ∈ live) : p ≠ 0 := by
  have low := (owned_bounds owned member).1
  have positive : 0 < kernelHeap.addr := by decide
  omega

theorem owned_same (owned : Owned heap live) (left : (p, n) ∈ live) (right : (p, k) ∈ live) :
    n = k := by
  obtain ⟨bs, inv⟩ := owned
  exact congrArg Prod.snd (List.inj_on_of_nodup_map inv.distinct left right rfl)

theorem owned_apart (owned : Owned heap live) (left : (p, n) ∈ live) (right : (q, k) ∈ live)
    (different : p ≠ q) : p + n ≤ q ∨ q + k ≤ p := by
  obtain ⟨bs, inv⟩ := owned
  have symmetric : Std.Symm Apart := ⟨fun r r' apart => Or.symm apart⟩
  exact (live_pairwise inv).forall left right fun same => different (congrArg Prod.fst same)

theorem owned_fresh (owned : Owned heap ((p, n) :: live)) (member : (q, k) ∈ live) : p ≠ q := by
  obtain ⟨bs, inv⟩ := owned
  rintro rfl
  have distinct := inv.distinct
  rw [List.map_cons, List.nodup_cons] at distinct
  exact distinct.1 (List.mem_map.mpr ⟨_, member, rfl⟩)

theorem kept_refl : Kept live heap heap := fun _ _ _ _ => rfl

theorem kept_trans (first : Kept live heap heap') (second : Kept live heap' heap'') :
    Kept live heap heap'' := fun region member i small =>
  (second region member i small).trans (first region member i small)

theorem kept_tail {region : Nat × Nat} (kept : Kept (region :: live) heap heap') :
    Kept live heap heap' := fun other member => kept other (List.mem_cons_of_mem _ member)

theorem kept_readBytes (k len : Nat) (kept : Kept live heap heap') (member : (p, n) ∈ live) (inside : k + len ≤ n) :
    heap'.readBytes (p + k) len = heap.readBytes (p + k) len :=
  ByteMemory.readBytes_congr len heap heap' (p + k) fun i small => by
    rw [Nat.add_assoc]
    exact kept _ member (k + i) (by simp only; omega)

theorem owned_writeByte (owned : Owned heap live) (member : (p, n) ∈ live) (inside : k < n)
    (v : UInt8) : Owned (heap.writeByte (p + k) v) live := by
  obtain ⟨bs, inv⟩ := owned
  exact ⟨bs, store_preserves inv member v (Nat.le_add_right _ _) (by simp only; omega)⟩

theorem owned_writeBytes (owned : Owned heap live) (member : (p, n) ∈ live)
    (inside : k + bytes.length ≤ n) : Owned (heap.writeBytes (p + k) bytes) live := by
  induction bytes generalizing heap k with
  | nil => exact owned
  | cons v rest ih =>
    rw [List.length_cons] at inside
    exact ih (owned_writeByte owned member (by omega) v) (k := k + 1) (by omega)

/-- Only bytes of the regions differ. -/
structure SameBeyond (regions : List (Nat × Nat)) (heap heap' : ByteMemory) : Prop where
  origin : heap'.origin = heap.origin
  bytes : ∀ a, (∀ r ∈ regions, a < r.1 ∨ r.1 + r.2 ≤ a) → heap'.readByte a = heap.readByte a

theorem sameBeyond_refl {regions : List (Nat × Nat)} : SameBeyond regions heap heap := ⟨rfl, fun _ _ => rfl⟩

theorem sameBeyond_trans {regions : List (Nat × Nat)} (first : SameBeyond regions heap heap')
    (second : SameBeyond regions heap' heap'') : SameBeyond regions heap heap'' :=
  ⟨second.origin.trans first.origin, fun a outside => (second.bytes a outside).trans (first.bytes a outside)⟩

/-- The regions may be larger. -/
theorem sameBeyond_cover {regions more : List (Nat × Nat)} (same : SameBeyond regions heap heap')
    (cover : ∀ r ∈ regions, ∃ q ∈ more, q.1 ≤ r.1 ∧ r.1 + r.2 ≤ q.1 + q.2) : SameBeyond more heap heap' := by
  refine ⟨same.origin, fun a outside => same.bytes a fun r member => ?_⟩
  obtain ⟨q, member', low, high⟩ := cover r member
  have apart := outside q member'
  omega

theorem sameBeyond_mono {regions more : List (Nat × Nat)} (same : SameBeyond regions heap heap')
    (subset : regions ⊆ more) : SameBeyond more heap heap' :=
  sameBeyond_cover same fun r member => ⟨r, subset member, Nat.le_refl _, Nat.le_refl _⟩

theorem sameBeyond_writeBytes (heap : ByteMemory) (p : Nat) (inside : k + bytes.length ≤ n) :
    SameBeyond [(p, n)] heap (heap.writeBytes (p + k) bytes) := by
  constructor
  · exact ByteMemory.origin_writeBytes _ _ _
  · intro a outside
    have apart := outside _ List.mem_cons_self
    exact ByteMemory.readByte_writeBytes_outside _ _ _ _ (by simp only at apart; omega)

/-- What stays inside one region leaves the others alone. -/
theorem kept_beyond (owned : Owned heap ((p, n) :: live)) (same : SameBeyond [(p, n)] heap heap') :
    Kept live heap heap' := by
  intro region member i small
  have different := owned_fresh owned member
  have apart := owned_apart owned List.mem_cons_self (List.mem_cons_of_mem _ member) different
  apply same.bytes
  intro r here
  rw [List.mem_singleton.mp here]
  omega

theorem kept_writeBytes (owned : Owned heap ((p, n) :: live)) (inside : k + bytes.length ≤ n) :
    Kept live heap (heap.writeBytes (p + k) bytes) :=
  kept_beyond owned (sameBeyond_writeBytes heap p inside)

theorem owned_perm {live' : List (Nat × Nat)} (owned : Owned heap live) (perm : live.Perm live') :
    Owned heap live' := by
  obtain ⟨bs, inv⟩ := owned
  refine ⟨bs, inv.stored, inv.tiled, inv.large, inv.mapped, fun region member => ?_, ?_⟩
  · exact inv.owners region (perm.mem_iff.mpr member)
  · exact (perm.map Prod.fst).nodup_iff.mp inv.distinct

/-- The header in front of a live region touches no live region. -/
theorem owned_header (owned : Owned heap live) (left : (p, n) ∈ live) (right : (q, k) ∈ live) :
    blockHeaderSize ≤ p ∧ (p ≤ q ∨ q + k ≤ p - blockHeaderSize) := by
  obtain ⟨bs, inv⟩ := owned
  obtain ⟨b, member, _, begins, _⟩ := inv.owners _ left
  have apart := live_off_headers inv right member
  unfold Apart at apart
  simp only at begins apart
  omega

/-- `kfree` writes one byte, in the header of the block. -/
theorem readByte_kfree {a : Nat} (word : p < wordModulus) (header : blockHeaderSize ≤ p)
    (outside : a < p - blockHeaderSize ∨ p ≤ a) :
    (heapFree kernelHeap p heap).readByte a = heap.readByte a := by
  unfold heapFree
  split
  · rfl
  · have back : (p + wordModulus - blockHeaderSize) % wordModulus = p - blockHeaderSize := by
      have shift : p + wordModulus - blockHeaderSize = p - blockHeaderSize + wordModulus := by omega
      rw [shift, Nat.add_mod_right]
      exact Nat.mod_eq_of_lt (by omega)
    rw [back]
    unfold blockHeaderSize at *
    exact readByte_setBlockFree _ _ _ (by omega)

/-- The bytes of the freed region stay as they are, too. -/
theorem owned_kfree (owned : Owned heap ((p, n) :: live)) :
    Owned (heapFree kernelHeap p heap) live ∧
      Kept ((p, n) :: live) heap (heapFree kernelHeap p heap) := by
  obtain ⟨bs, inv⟩ := owned
  obtain ⟨bs', after⟩ := free_preserves kernelHeap_placed inv List.mem_cons_self
  have unchanged := free_unchanged kernelHeap_placed inv List.mem_cons_self
  rw [List.erase_cons_head] at after
  exact ⟨⟨bs', after⟩, fun region inside i small =>
    unchanged region inside (region.1 + i) (Nat.le_add_right _ _) (by omega)⟩

theorem owned_mapped (owned : Owned heap live) (member : (p, n) ∈ live) : heap.origin ≤ p := by
  have low := (owned_bounds owned member).1
  obtain ⟨bs, inv⟩ := owned
  exact inv.mapped.trans low

end

/-! ## Kernel calls -/

section
variable {s : Fs} {live : List (Nat × Nat)} {p n k len : Nat} {bytes : List UInt8}

/-- The block is the one that `heap_malloc` finds. -/
theorem kmalloc_found (owned : Owned s.heap live) (request : n + blockHeaderSize < wordModulus) :
    Completes (kmalloc n) s fun p s' => ∃ heap, s' = { s with heap := heap } ∧
      Owned heap ((p, n) :: live) ∧ Kept live s.heap heap ∧
        heapMalloc kernelHeap n s.heap = some (p, heap) := by
  obtain ⟨bs, inv⟩ := owned
  obtain ⟨m, run, _, _, unchanged⟩ := malloc_result kernelHeap_placed inv n request
  obtain ⟨bs', after⟩ := malloc_preserves kernelHeap_placed inv request run
  refine meets_bind.mpr (meets_get.mpr ?_)
  simp only [run]
  split
  · exact meets_throw.mpr rfl
  next given =>
    rw [if_neg given] at after
    refine meets_bind.mpr (meets_modify.mpr (meets_pure.mpr ?_))
    refine ⟨m, rfl, ⟨bs', after⟩, fun region member i small => ?_, rfl⟩
    exact unchanged region member (region.1 + i) (Nat.le_add_right _ _) (by omega)

theorem completes_kmalloc (owned : Owned s.heap live) (request : n + blockHeaderSize < wordModulus) :
    Completes (kmalloc n) s fun p s' => ∃ heap, s' = { s with heap := heap } ∧
      Owned heap ((p, n) :: live) ∧ Kept live s.heap heap := by
  apply meets_mono (kmalloc_found owned request)
  rintro p s' ⟨heap, same, after, kept, _⟩
  exact ⟨heap, same, after, kept⟩

theorem readRegion_run (owned : Owned s.heap live) (member : (p, n) ∈ live) (inside : k + len ≤ n) :
    readMemory (p + k) len s = .ok (s.heap.readBytes (p + k) len, s) := by
  have bounds := owned_bounds owned member
  have page : ¬ p + k + len ≤ pageSize := by
    have : pageSize < kernelHeap.addr := by decide
    omega
  have heap : kernelHeap.addr ≤ p + k ∧ p + k + len ≤ fsStartAddr := by omega
  show (if p + k + len ≤ pageSize then _
    else if kernelHeap.addr ≤ p + k ∧ p + k + len ≤ fsStartAddr then _ else _ : Kernel _) s = _
  rw [if_neg page, if_pos heap]
  rfl

theorem writeRegion_run (owned : Owned s.heap live) (member : (p, n) ∈ live)
    (inside : k + bytes.length ≤ n) :
    writeMemory (p + k) bytes s =
      .ok ((), { s with heap := s.heap.writeBytes (p + k) bytes }) := by
  have bounds := owned_bounds owned member
  have page : ¬ p + k + bytes.length ≤ pageSize := by
    have : pageSize < kernelHeap.addr := by decide
    omega
  have heap : kernelHeap.addr ≤ p + k ∧ p + k + bytes.length ≤ fsStartAddr := by omega
  rw [writeMemory, if_neg page, if_pos heap]
  rfl

end

end Delos.Invariants
