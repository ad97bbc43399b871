import Delos.Lib.BlockList
import Delos.Source.Heap

/-!
# The heap in memory and the block list it stands for

`Stored m bs` says that the headers in memory are those of the blocks `bs`,
linked in that order. The allocator of heap.cpp then computes `allocate` on the
list (`heapMallocLoop_allocate`) and writes only inside blocks that were free.
-/
namespace Delos.Invariants
open Lib Source

/-- What `next` of a block must hold: the address of the block after it, or NULL. -/
def firstAddr : List Block → Nat
  | [] => 0
  | b :: _ => b.addr

/-- The header of one block. -/
structure HeaderAt (m : ByteMemory) (b : Block) (next : Nat) : Prop where
  next : blockNext m b.addr = next
  free : blockFree m b.addr = b.free
  size : blockSize m b.addr = b.size

def Stored (m : ByteMemory) : List Block → Prop
  | [] => True
  | b :: rest => HeaderAt m b (firstAddr rest) ∧ Stored m rest

instance (m : ByteMemory) (b : Block) (next : Nat) : Decidable (HeaderAt m b next) :=
  decidable_of_iff (blockNext m b.addr = next ∧ blockFree m b.addr = b.free ∧ blockSize m b.addr = b.size)
    ⟨fun ⟨next, free, size⟩ => ⟨next, free, size⟩, fun ⟨next, free, size⟩ => ⟨next, free, size⟩⟩

instance decidableStored (m : ByteMemory) : (bs : List Block) → Decidable (Stored m bs)
  | [] => isTrue trivial
  | b :: rest =>
    have := decidableStored m rest
    inferInstanceAs (Decidable (HeaderAt m b (firstAddr rest) ∧ Stored m rest))

/-! ## Header fields -/

/-- Memories that agree on a header have the same fields there. -/
theorem headerAt_congr {m m' : ByteMemory} {b : Block} {next : Nat} (header : HeaderAt m b next)
    (same : ∀ i < blockHeaderSize, m'.readByte (b.addr + i) = m.readByte (b.addr + i)) :
    HeaderAt m' b next := by
  unfold blockHeaderSize at same
  refine ⟨?_, ?_, ?_⟩
  · rw [← header.next]
    exact ByteMemory.read32_congr m m' _ fun i hi => same i (by omega)
  · rw [← header.free, blockFree, blockFree, same 4 (by omega)]
  · rw [← header.size]
    refine ByteMemory.read32_congr m m' _ fun i hi => ?_
    rw [Nat.add_assoc]
    exact same (5 + i) (by omega)

theorem stored_congr {m m' : ByteMemory} {bs : List Block} (stored : Stored m bs)
    (same : ∀ b ∈ bs, ∀ i < blockHeaderSize, m'.readByte (b.addr + i) = m.readByte (b.addr + i)) :
    Stored m' bs := by
  induction bs with
  | nil => trivial
  | cons b rest ih =>
    exact ⟨headerAt_congr stored.1 (same b (by simp)),
      ih stored.2 fun c hc => same c (List.mem_cons_of_mem _ hc)⟩

section Fields
variable (m : ByteMemory) (block : Nat)

@[simp] theorem origin_setBlockNext (next : Nat) : (setBlockNext m block next).origin = m.origin :=
  ByteMemory.origin_write32 m block next

@[simp] theorem origin_setBlockSize (size : Nat) : (setBlockSize m block size).origin = m.origin :=
  ByteMemory.origin_write32 m _ size

@[simp] theorem origin_setBlockFree (free : Bool) : (setBlockFree m block free).origin = m.origin :=
  ByteMemory.origin_writeByte m _ _

theorem readByte_setBlockNext {a : Nat} (next : Nat) (outside : a < block ∨ block + 4 ≤ a) :
    (setBlockNext m block next).readByte a = m.readByte a :=
  ByteMemory.readByte_write32_outside m block a next outside

theorem readByte_setBlockSize {a : Nat} (size : Nat) (outside : a < block + 5 ∨ block + 9 ≤ a) :
    (setBlockSize m block size).readByte a = m.readByte a :=
  ByteMemory.readByte_write32_outside m (block + 5) a size (by omega)

theorem readByte_setBlockFree {a : Nat} (free : Bool) (outside : a ≠ block + 4) :
    (setBlockFree m block free).readByte a = m.readByte a :=
  ByteMemory.readByte_writeByte_ne m _ a _ (by omega)

theorem blockNext_setBlockNext {next : Nat} (mapped : m.origin ≤ block) (word : next < wordModulus) :
    blockNext (setBlockNext m block next) block = next := by
  rw [blockNext, setBlockNext, ByteMemory.read32_write32_same m block next mapped]
  exact Nat.mod_eq_of_lt word

theorem blockSize_setBlockSize {size : Nat} (mapped : m.origin ≤ block) (word : size < wordModulus) :
    blockSize (setBlockSize m block size) block = size := by
  rw [blockSize, setBlockSize, ByteMemory.read32_write32_same m _ size (by omega)]
  exact Nat.mod_eq_of_lt word

theorem blockFree_setBlockFree (free : Bool) (mapped : m.origin ≤ block) :
    blockFree (setBlockFree m block free) block = free := by
  have bound := (m.readByte (block + 4)).toNat_lt
  rw [blockFree, setBlockFree, ByteMemory.readByte_writeByte_same m _ _ (by omega),
    UInt8.toNat_ofNat']
  cases free
  · simp only [Bool.false_eq_true, if_false, beq_eq_false_iff_ne]
    omega
  · simp only [if_true, beq_iff_eq]
    omega

@[simp] theorem blockSize_setBlockNext (next : Nat) :
    blockSize (setBlockNext m block next) block = blockSize m block :=
  ByteMemory.read32_write32_outside m block (block + 5) next (by omega)

@[simp] theorem blockFree_setBlockNext (next : Nat) :
    blockFree (setBlockNext m block next) block = blockFree m block := by
  rw [blockFree, blockFree, readByte_setBlockNext m block next (by omega)]

@[simp] theorem blockNext_setBlockSize (size : Nat) :
    blockNext (setBlockSize m block size) block = blockNext m block :=
  ByteMemory.read32_write32_outside m (block + 5) block size (by omega)

@[simp] theorem blockFree_setBlockSize (size : Nat) :
    blockFree (setBlockSize m block size) block = blockFree m block := by
  rw [blockFree, blockFree, readByte_setBlockSize m block size (by omega)]

@[simp] theorem blockNext_setBlockFree (free : Bool) :
    blockNext (setBlockFree m block free) block = blockNext m block :=
  ByteMemory.read32_writeByte_outside m (block + 4) block _ (by omega)

@[simp] theorem blockSize_setBlockFree (free : Bool) :
    blockSize (setBlockFree m block free) block = blockSize m block :=
  ByteMemory.read32_writeByte_outside m (block + 4) (block + 5) _ (by omega)

end Fields

/-! ## The three writers -/

/-- Every in-use byte is preserved: the bytes outside the free blocks agree. -/
def Untouched (bs : List Block) (m m' : ByteMemory) : Prop :=
  ∀ a, (∀ b ∈ bs, b.free = true → ¬ b.Covers a) → m'.readByte a = m.readByte a

section Refinement
variable {m : ByteMemory} {b : Block} {rest : List Block} {start stop needed : Nat}

/-- Later headers lie past the first block. -/
theorem stored_later {m' : ByteMemory} {bs : List Block} (stored : Stored m bs)
    (tiled : Tiles start bs stop) (same : ∀ a, start ≤ a → m'.readByte a = m.readByte a) :
    Stored m' bs :=
  stored_congr stored fun c hc i _ => same _ (by
    have := tiles_bounds tiled hc
    omega)

theorem blockNext_ne_zero (stored : Stored m (b :: rest)) (tiled : Tiles start (b :: rest) stop)
    (positive : 0 < start) : (blockNext m b.addr != 0) = !rest.isEmpty := by
  rw [stored.1.next]
  cases rest with
  | nil => rfl
  | cons c rest =>
    have chain := tiled
    obtain ⟨at_start, at_next, _⟩ := chain
    simp only [firstAddr, List.isEmpty_cons, Bool.not_false, bne_iff_ne]
    omega

theorem mergeWithNext_apart (stored : Stored m (b :: rest)) (tiled : Tiles start (b :: rest) stop)
    (positive : 0 < start) (apart : absorb b rest = (b, rest)) : mergeWithNext m b.addr = m := by
  rw [mergeWithNext, if_neg]
  rw [stored.1.free, blockNext_ne_zero stored tiled positive]
  cases rest with
  | nil => simp
  | cons c rest =>
    rw [stored.1.next, firstAddr, stored.2.1.free]
    intro both
    simp only [Bool.and_eq_true] at both
    rw [absorb, if_pos (by simp [both.1.1, both.2])] at apart
    have shorter := congrArg (fun p => p.2.length) apart
    simp at shorter

theorem mergeWithNext_absorb (stored : Stored m (b :: rest)) (tiled : Tiles start (b :: rest) stop)
    (large : ∀ d ∈ b :: rest, blockHeaderSize ≤ d.size) (positive : 0 < start)
    (inside : stop ≤ wordModulus) (mapped : m.origin ≤ start) :
    Stored (mergeWithNext m b.addr) ((absorb b rest).1 :: (absorb b rest).2) ∧
      (mergeWithNext m b.addr).origin = m.origin ∧
      Untouched [b] m (mergeWithNext m b.addr) := by
  by_cases apart : absorb b rest = (b, rest)
  · rw [mergeWithNext_apart stored tiled positive apart, apart]
    exact ⟨stored, rfl, fun _ _ => rfl⟩
  · cases rest with
    | nil => exact absurd rfl apart
    | cons c rest =>
      have both : (b.free && c.free) = true := by
        by_contra single
        exact apart (by rw [absorb, if_neg single])
      have chain := tiled
      obtain ⟨at_start, at_next, tail⟩ := chain
      have wide := large b (by simp)
      have bound := tiles_le tail
      unfold blockHeaderSize at wide
      have next : blockNext m b.addr = c.addr := stored.1.next
      have guard : (blockFree m b.addr && blockNext m b.addr != 0 &&
          blockFree m (blockNext m b.addr)) = true := by
        simp only [Bool.and_eq_true] at both
        rw [blockNext_ne_zero stored tiled positive, next, stored.1.free, stored.2.1.free]
        simp [both]
      have after : blockNext (setBlockSize m b.addr (b.size + c.size)) c.addr = firstAddr rest := by
        rw [← stored.2.1.next]
        exact ByteMemory.read32_congr _ _ _ fun i _ =>
          readByte_setBlockSize m b.addr _ (by omega)
      have merged : mergeWithNext m b.addr =
          setBlockNext (setBlockSize m b.addr (b.size + c.size)) b.addr (firstAddr rest) := by
        rw [mergeWithNext, if_pos guard]
        simp only [next, stored.1.size, stored.2.1.size, blockNext_setBlockSize, after]
      have first_word : firstAddr rest < wordModulus := by
        cases rest with
        | nil => decide
        | cons d rest =>
          have := tiles_bounds tail (b := d) (by simp)
          have := large d (by simp)
          unfold blockHeaderSize at this
          simp only [firstAddr]
          omega
      have frame : ∀ a, a < b.addr ∨ b.addr + 9 ≤ a →
          (mergeWithNext m b.addr).readByte a = m.readByte a := by
        intro a outside
        rw [merged, readByte_setBlockNext _ _ _ (by omega), readByte_setBlockSize _ _ _ (by omega)]
      rw [absorb, if_pos both]
      refine ⟨⟨⟨?_, ?_, ?_⟩, ?_⟩, ?_, ?_⟩
      · rw [merged]
        exact blockNext_setBlockNext _ _ (by rw [origin_setBlockSize]; omega) first_word
      · simp only [Bool.and_eq_true] at both
        rw [merged, blockFree_setBlockNext, blockFree_setBlockSize, stored.1.free, both.1]
      · rw [merged, blockSize_setBlockNext]
        exact blockSize_setBlockSize _ _ (by omega) (by omega)
      · exact stored_later stored.2.2 tail fun a later => frame a (by omega)
      · rw [merged, origin_setBlockNext, origin_setBlockSize]
      · intro a outside
        have free := both
        simp only [Bool.and_eq_true] at free
        refine frame a ?_
        have := outside b (by simp) free.1
        unfold Block.Covers at this
        omega

/-- A whole header written in the order of heap.cpp's new block. -/
theorem headerAt_newBlock (next size addr : Nat) (mapped : m.origin ≤ addr)
    (next_word : next < wordModulus) (size_word : size < wordModulus) :
    HeaderAt (setBlockSize (setBlockNext (setBlockFree m addr true) addr next) addr size)
      ⟨addr, size, true⟩ next := by
  refine ⟨?_, ?_, ?_⟩
  · rw [blockNext_setBlockSize]
    exact blockNext_setBlockNext _ _ (by rwa [origin_setBlockFree]) next_word
  · rw [blockFree_setBlockSize, blockFree_setBlockNext]
    exact blockFree_setBlockFree m addr true mapped
  · exact blockSize_setBlockSize _ _ (by simpa using mapped) size_word

/-- The old header once the block was cut: new link, new size, no longer free. -/
theorem headerAt_cutBlock (next size addr : Nat) (mapped : m.origin ≤ addr)
    (next_word : next < wordModulus) (size_word : size < wordModulus) :
    HeaderAt (setBlockFree (setBlockSize (setBlockNext m addr next) addr size) addr false)
      ⟨addr, size, false⟩ next := by
  refine ⟨?_, ?_, ?_⟩
  · rw [blockNext_setBlockFree, blockNext_setBlockSize]
    exact blockNext_setBlockNext m addr mapped next_word
  · exact blockFree_setBlockFree _ _ _ (by simpa using mapped)
  · rw [blockSize_setBlockFree]
    exact blockSize_setBlockSize _ _ (by rwa [origin_setBlockNext]) size_word

theorem takeBlock_carve (stored : Stored m (b :: rest)) (tiled : Tiles start (b :: rest) stop)
    (free : b.free = true) (large : blockHeaderSize ≤ b.size) (request : blockHeaderSize ≤ needed)
    (enough : needed ≤ b.size) (inside : stop ≤ wordModulus)
    (room : stop + blockHeaderSize < start + wordModulus) (mapped : m.origin ≤ start) :
    Stored (takeBlock m b.addr needed) (carve blockHeaderSize needed b ++ rest) ∧
      (takeBlock m b.addr needed).origin = m.origin ∧
      Untouched [b] m (takeBlock m b.addr needed) := by
  have chain := tiled
  obtain ⟨at_start, tail⟩ := chain
  have bound := tiles_le tail
  have no_wrap : (needed + blockHeaderSize) % wordModulus = needed + blockHeaderSize :=
    Nat.mod_eq_of_lt (by omega)
  have next_word : firstAddr rest < wordModulus := by
    rw [← stored.1.next]
    exact ByteMemory.read32_lt _ _
  unfold blockHeaderSize at large request
  rw [takeBlock, stored.1.size, no_wrap]
  unfold carve
  split
  next larger =>
    unfold blockHeaderSize at larger
    have addr : (b.addr + needed) % wordModulus = b.addr + needed := Nat.mod_eq_of_lt (by omega)
    have kept_next : blockNext (setBlockFree m (b.addr + needed) true) b.addr = firstAddr rest := by
      rw [← stored.1.next]
      exact ByteMemory.read32_writeByte_outside _ _ _ _ (by omega)
    have kept_size : blockSize (setBlockNext (setBlockFree m (b.addr + needed) true)
        (b.addr + needed) (firstAddr rest)) b.addr = b.size := by
      rw [← stored.1.size]
      exact ByteMemory.read32_congr _ _ _ fun i hi => by
        rw [readByte_setBlockNext _ _ _ (by omega), readByte_setBlockFree _ _ _ (by omega)]
    simp only [addr, kept_next, kept_size]
    let fresh := setBlockSize (setBlockNext (setBlockFree m (b.addr + needed) true)
      (b.addr + needed) (firstAddr rest)) (b.addr + needed) (b.size - needed)
    have fresh_frame : ∀ a, a < b.addr + needed ∨ b.addr + needed + 9 ≤ a →
        fresh.readByte a = m.readByte a := by
      intro a outside
      rw [readByte_setBlockSize _ _ _ (by omega), readByte_setBlockNext _ _ _ (by omega),
        readByte_setBlockFree _ _ _ (by omega)]
    let final := setBlockFree (setBlockSize (setBlockNext fresh b.addr (b.addr + needed))
      b.addr needed) b.addr false
    have final_frame : ∀ a, a < b.addr ∨ b.addr + 9 ≤ a → final.readByte a = fresh.readByte a := by
      intro a outside
      rw [readByte_setBlockFree _ _ _ (by omega), readByte_setBlockSize _ _ _ (by omega),
        readByte_setBlockNext _ _ _ (by omega)]
    have header := headerAt_newBlock (m := m) (firstAddr rest) (b.size - needed) (b.addr + needed)
      (by omega) next_word (by omega)
    refine ⟨⟨?_, ?_, ?_⟩, ?_, ?_⟩
    · exact headerAt_cutBlock (m := fresh) (b.addr + needed) needed b.addr (by simp [fresh]; omega)
        (by omega) (by omega)
    · exact headerAt_congr header fun i _ => final_frame _ (by simp only; omega)
    · refine stored_later stored.2 tail fun a later => ?_
      exact (final_frame a (by omega)).trans (fresh_frame a (by omega))
    · simp
    · intro a outside
      have := outside b (by simp) free
      unfold Block.Covers at this
      exact (final_frame a (by omega)).trans (fresh_frame a (by omega))
  next exact_fit =>
    refine ⟨⟨⟨?_, ?_, ?_⟩, ?_⟩, ?_, ?_⟩
    · rw [blockNext_setBlockFree]
      exact stored.1.next
    · exact blockFree_setBlockFree m b.addr false (by omega)
    · rw [blockSize_setBlockFree]
      exact stored.1.size
    · exact stored_later stored.2 tail fun a later => readByte_setBlockFree m _ _ (by omega)
    · simp
    · intro a outside
      have := outside b (by simp) free
      unfold Block.Covers at this
      exact readByte_setBlockFree m _ _ (by omega)

/-! ## The search loop -/

theorem untouched_trans {bs cs : List Block} {m₁ m₂ : ByteMemory} (first : Untouched bs m m₁)
    (second : Untouched cs m₁ m₂)
    (smaller : ∀ a, (∀ d ∈ bs, d.free = true → ¬ d.Covers a) →
      ∀ d ∈ cs, d.free = true → ¬ d.Covers a) : Untouched bs m m₂ :=
  fun a outside => (second a (smaller a outside)).trans (first a outside)

/-- Absorbing a free neighbour adds no byte to the free space. -/
theorem absorb_covers {a : Nat} (tiled : Tiles start (b :: rest) stop)
    (outside : ∀ d ∈ b :: rest, d.free = true → ¬ d.Covers a) :
    ∀ d ∈ (absorb b rest).1 :: (absorb b rest).2, d.free = true → ¬ d.Covers a := by
  cases rest with
  | nil => exact outside
  | cons c rest =>
    have chain := tiled
    obtain ⟨_, at_next, _⟩ := chain
    rw [absorb]
    split
    next both =>
      simp only [Bool.and_eq_true] at both
      intro d member free
      rcases List.mem_cons.mp member with same | later
      · subst same
        have left := outside b (by simp) both.1
        have right := outside c (by simp) both.2
        unfold Block.Covers at left right ⊢
        simp only
        omega
      · exact outside d (by simp [later]) free
    · exact outside

/-- The list keeps its first address. -/
theorem firstAddr_allocate (bs : List Block) :
    firstAddr (allocate blockHeaderSize needed bs).2 = firstAddr bs := by
  cases bs with
  | nil => rw [allocate]
  | cons b rest =>
    have at_head := (absorb_head b rest).1
    rw [allocate]
    split
    · unfold carve
      split <;> exact at_head
    · exact at_head

/-- The pointer handed out for an abstract result. -/
def resultPointer : Option Nat → Nat
  | none => 0
  | some p => (p + blockHeaderSize) % wordModulus

/-- One visit of the loop: the merge, then the two fields the test reads. -/
theorem visit_block (stored : Stored m (b :: rest)) (tiled : Tiles start (b :: rest) stop)
    (large : ∀ d ∈ b :: rest, blockHeaderSize ≤ d.size) (positive : 0 < start)
    (inside : stop ≤ wordModulus) (mapped : m.origin ≤ start) (needed bound : Nat) :
    heapMallocLoop needed (bound + 1) b.addr m =
      if (absorb b rest).1.free && decide (needed ≤ (absorb b rest).1.size) then
        some ((b.addr + blockHeaderSize) % wordModulus,
          takeBlock (mergeWithNext m b.addr) b.addr needed)
      else heapMallocLoop needed bound (firstAddr (absorb b rest).2) (mergeWithNext m b.addr) := by
  obtain ⟨stored', _, _⟩ := mergeWithNext_absorb stored tiled large positive inside mapped
  have at_head := (absorb_head b rest).1
  have next := stored'.1.next
  have free := stored'.1.free
  have size := stored'.1.size
  rw [at_head] at next free size
  have nonzero : b.addr ≠ 0 := by
    have := tiled.1
    omega
  rw [heapMallocLoop, if_neg nonzero]
  simp only [next, free, size]

/-- The allocator computes `allocate` on the stored list and ends within as many
steps as there are blocks. Unless it cuts a block shorter than a header, it
leaves every byte outside free blocks alone. -/
theorem heapMallocLoop_allocate (bs : List Block) (bound : Nat) (enough : bs.length < bound)
    (stored : Stored m bs) (tiled : Tiles start bs stop)
    (large : ∀ d ∈ bs, blockHeaderSize ≤ d.size) (positive : 0 < start) (inside : stop ≤ wordModulus)
    (room : stop + blockHeaderSize < start + wordModulus) (mapped : m.origin ≤ start) :
    ∃ m', heapMallocLoop needed bound (firstAddr bs) m =
        some (resultPointer (allocate blockHeaderSize needed bs).1, m') ∧
      (blockHeaderSize ≤ needed ∨ (allocate blockHeaderSize needed bs).1 = none →
        Stored m' (allocate blockHeaderSize needed bs).2 ∧
          m'.origin = m.origin ∧ Untouched bs m m') := by
  obtain ⟨steps, rfl⟩ : ∃ steps, bound = steps + 1 := ⟨bound - 1, by omega⟩
  fun_induction allocate blockHeaderSize needed bs generalizing m start steps
  case case1 => exact ⟨m, rfl, fun _ => ⟨stored, rfl, fun _ _ => rfl⟩⟩
  case case2 b rest head tail fits =>
    obtain ⟨stored', origin', frame⟩ := mergeWithNext_absorb stored tiled large positive inside mapped
    have after := tiles_absorb tiled
    have wide := absorb_large large head List.mem_cons_self
    have at_head : head.addr = b.addr := (absorb_head b rest).1
    have visit := visit_block stored tiled large positive inside mapped needed steps
    rw [if_pos fits] at visit
    simp only [Bool.and_eq_true, decide_eq_true_eq] at fits
    refine ⟨_, visit.trans (by rw [resultPointer, at_head]), fun request => ?_⟩
    have request : blockHeaderSize ≤ needed := request.resolve_right (by simp)
    obtain ⟨stored'', origin'', frame'⟩ := takeBlock_carve stored' after fits.1 wide request fits.2
      inside room (by rwa [origin'])
    rw [show (absorb b rest).1.addr = b.addr from at_head] at stored'' origin'' frame'
    refine ⟨stored'', origin''.trans origin', ?_⟩
    refine untouched_trans (fun a outside => frame a ?_) frame' ?_
    · intro d member
      exact outside d (List.mem_cons.mpr (Or.inl (List.mem_singleton.mp member)))
    · intro a outside d member
      exact absorb_covers tiled outside d (List.mem_cons.mpr (Or.inl (List.mem_singleton.mp member)))
  case case3 b rest head tail tight ih =>
    obtain ⟨stored', origin', frame⟩ := mergeWithNext_absorb stored tiled large positive inside mapped
    have after := tiles_absorb tiled
    have wide := absorb_large large
    have shorter := absorb_length b rest
    have visit := visit_block stored tiled large positive inside mapped needed steps
    rw [if_neg tight] at visit
    have count : tail.length < steps := by
      rw [List.length_cons] at enough
      exact Nat.lt_of_le_of_lt shorter (Nat.lt_of_succ_lt_succ enough)
    obtain ⟨steps, rfl⟩ : ∃ k, steps = k + 1 := ⟨steps - 1, by omega⟩
    have grown := Nat.le_add_right start head.size
    obtain ⟨m', run, effect⟩ := ih stored'.2 after.2
      (fun d member => wide d (List.mem_cons_of_mem _ member)) (Nat.lt_of_lt_of_le positive grown)
      (by omega) (by omega) steps count
    refine ⟨m', visit.trans run, fun request => ?_⟩
    obtain ⟨stored'', origin'', frame'⟩ := effect request
    refine ⟨⟨?_, stored''⟩, origin''.trans origin', ?_⟩
    · rw [firstAddr_allocate]
      refine headerAt_congr stored'.1 fun i small => frame' _ fun d member _ covered => ?_
      have beyond : start + head.size ≤ d.addr := (tiles_bounds after.2 member).1
      have header : blockHeaderSize ≤ head.size := wide head List.mem_cons_self
      have at_start : head.addr = start := after.1
      have low : d.addr ≤ head.addr + i := covered.1
      omega
    · refine untouched_trans (fun a outside => frame a ?_) frame' ?_
      · intro d member
        exact outside d (List.mem_cons.mpr (Or.inl (List.mem_singleton.mp member)))
      · intro a outside d member
        exact absorb_covers tiled outside d (List.mem_cons_of_mem _ member)

/-! ## The whole operations -/

/-- For a size of any 32-bit value: the sum with the header size wraps. -/
theorem heapMalloc_visits {heap : Heap} {bs : List Block} (size : Nat) (stored : Stored m bs)
    (tiled : Tiles heap.addr bs (heap.addr + heap.size))
    (large : ∀ d ∈ bs, blockHeaderSize ≤ d.size) (positive : 0 < heap.addr) (nonempty : bs ≠ [])
    (inside : heap.addr + heap.size ≤ wordModulus)
    (room : heap.size + blockHeaderSize < wordModulus) (mapped : m.origin ≤ heap.addr)
    (sum : (size + blockHeaderSize) % wordModulus = needed) :
    ∃ m', heapMalloc heap size m =
        some (resultPointer (allocate blockHeaderSize needed bs).1, m') ∧
      (blockHeaderSize ≤ needed ∨ (allocate blockHeaderSize needed bs).1 = none →
        Stored m' (allocate blockHeaderSize needed bs).2 ∧
          m'.origin = m.origin ∧ Untouched bs m m') := by
  have first : firstAddr bs = heap.addr := by
    cases bs with
    | nil => exact absurd rfl nonempty
    | cons b rest => exact tiled.1
  have count := tiles_length tiled large
  unfold blockHeaderSize at count
  rw [heapMalloc, sum, ← first]
  exact heapMallocLoop_allocate bs _ (by omega) stored tiled large positive inside (by omega) mapped

theorem heapMalloc_allocate {heap : Heap} {bs : List Block} {size : Nat} (stored : Stored m bs)
    (tiled : Tiles heap.addr bs (heap.addr + heap.size))
    (large : ∀ d ∈ bs, blockHeaderSize ≤ d.size) (positive : 0 < heap.addr) (nonempty : bs ≠ [])
    (inside : heap.addr + heap.size ≤ wordModulus)
    (room : heap.size + blockHeaderSize < wordModulus) (mapped : m.origin ≤ heap.addr)
    (request : size + blockHeaderSize < wordModulus) :
    ∃ m', heapMalloc heap size m =
        some (resultPointer (allocate blockHeaderSize (size + blockHeaderSize) bs).1, m') ∧
      Stored m' (allocate blockHeaderSize (size + blockHeaderSize) bs).2 ∧
      m'.origin = m.origin ∧ Untouched bs m m' := by
  obtain ⟨m', run, effect⟩ := heapMalloc_visits size stored tiled large positive nonempty inside room
    mapped (Nat.mod_eq_of_lt request)
  exact ⟨m', run, effect (Or.inl (Nat.le_add_left _ _))⟩

/-- Freeing the block at the head of the list. -/
theorem headerAt_release (next : Nat) (header : HeaderAt m b next) (mapped : m.origin ≤ b.addr) :
    HeaderAt (setBlockFree m b.addr true) { b with free := true } next := by
  refine ⟨?_, ?_, ?_⟩
  · rw [blockNext_setBlockFree, header.next]
  · exact blockFree_setBlockFree m b.addr true mapped
  · rw [blockSize_setBlockFree, header.size]

theorem firstAddr_release (a : Nat) (bs : List Block) : firstAddr (release a bs) = firstAddr bs := by
  cases bs with
  | nil => rfl
  | cons b rest =>
    rw [release]
    split <;> rfl

theorem stored_release {bs : List Block} {d : Block} (member : d ∈ bs) (stored : Stored m bs)
    (tiled : Tiles start bs stop) (large : ∀ d ∈ bs, blockHeaderSize ≤ d.size)
    (mapped : m.origin ≤ start) : Stored (setBlockFree m d.addr true) (release d.addr bs) := by
  induction bs generalizing start with
  | nil => simp at member
  | cons b rest ih =>
    have chain := tiled
    obtain ⟨at_start, tail⟩ := chain
    have header := large b (by simp)
    unfold blockHeaderSize at header
    rw [release]
    by_cases here : b.addr = d.addr
    · rw [if_pos here, ← here]
      refine ⟨headerAt_release _ stored.1 (by omega), ?_⟩
      exact stored_later stored.2 tail fun x later => readByte_setBlockFree m _ _ (by omega)
    · have later : d ∈ rest := by
        rcases List.mem_cons.mp member with same | later
        · exact absurd (congrArg Block.addr same.symm) here
        · exact later
      have beyond := (tiles_bounds tail later).1
      rw [if_neg here]
      refine ⟨?_, ih later stored.2 tail (fun e he => large e (by simp [he])) (by omega)⟩
      rw [firstAddr_release]
      refine headerAt_congr stored.1 fun i small => readByte_setBlockFree m _ _ ?_
      unfold blockHeaderSize at small
      omega

@[simp] theorem origin_heapInit (addr size : Nat) :
    (heapInit addr size m).2.origin = m.origin := by
  rw [heapInit, origin_setBlockFree, origin_setBlockNext, origin_setBlockSize]

/-- The header of the first block after `heap_init`. -/
theorem stored_heapInit (addr size : Nat) (mapped : m.origin ≤ addr) (word : size < wordModulus) :
    Stored (heapInit addr size m).2 [⟨addr, size, true⟩] := by
  unfold heapInit
  refine ⟨⟨?_, ?_, ?_⟩, trivial⟩
  · simp only [blockNext_setBlockFree]
    exact blockNext_setBlockNext _ _ (by rwa [origin_setBlockSize]) (by decide)
  · rw [blockFree_setBlockFree _ _ _ (by simpa using mapped)]
  · simp only [blockSize_setBlockFree, blockSize_setBlockNext]
    exact blockSize_setBlockSize _ _ mapped word

end Refinement

end Delos.Invariants
