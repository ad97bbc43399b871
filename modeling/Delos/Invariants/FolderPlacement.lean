import Delos.Lib.FirstFit
import Delos.Invariants.FileArrays

/-!
# Where the folder lies in the heap

In a heap whose free memory is in one piece behind small blocks, the folder and its array
come first in that piece every time they are loaded, and the array that replaces the
loaded one comes right behind it. A pointer into the array of a folder that was freed
then points into the array of the next one.
-/
namespace Delos.Invariants
open Lib Source

/-- The blocks of the heap, whoever owns them. -/
abbrev Laid (heap : ByteMemory) (bs : List Block) : Prop := HeapInvariant kernelHeap ⟨heap, []⟩ bs

/-- The block of `folder_t`. -/
def folderBlock : Nat := folderSize + blockHeaderSize

/-- The block of an array of records. -/
def arrayBlock (n : Nat) : Nat := n * fileRecordSize + blockHeaderSize

section
variable {heap heap' : ByteMemory} {pre mid rest bs bs' : List Block} {d : Block}
  {a b c n m p root files new : Nat} {sizes : List Nat}

theorem laid_of_invariant {live : List (Nat × Nat)} (inv : HeapInvariant kernelHeap ⟨heap, live⟩ bs) :
    Laid heap bs :=
  ⟨inv.stored, inv.tiled, inv.large, inv.mapped, by simp, List.nodup_nil⟩

/-- The region is part of the block behind its header. -/
def Within (d : Block) (r : Nat × Nat) : Prop :=
  d.addr + blockHeaderSize ≤ r.1 ∧ r.1 + r.2 ≤ d.addr + d.size

/-- The headers are the same wherever only the inside of blocks differs. -/
theorem laid_stores {regions : List (Nat × Nat)} (laid : Laid heap bs)
    (same : SameBeyond regions heap heap') (inside : ∀ r ∈ regions, ∃ d ∈ bs, Within d r) :
    Laid heap' bs := by
  refine ⟨?_, laid.tiled, laid.large, ?_, by simp, List.nodup_nil⟩
  · refine stored_congr laid.stored fun e member i small => ?_
    apply same.bytes
    intro r here
    obtain ⟨d, member', low, high⟩ := inside r here
    have wide := laid.large e member
    by_cases equal : e = d
    · subst equal
      omega
    · have apart := tiles_disjoint laid.tiled (inv_positive laid) member member' equal
      omega
  · rw [same.origin]
    exact laid.mapped

theorem laid_inside (laid : Laid heap bs) (member : d ∈ bs) :
    kernelHeap.addr ≤ d.addr ∧ d.addr + d.size ≤ fsStartAddr := by
  have stop : kernelHeap.addr + kernelHeap.size = fsStartAddr := by decide
  have bounds := tiles_bounds laid.tiled member
  rwa [stop] at bounds

/-- `heap_malloc` computes the allocation on the list. -/
theorem laid_malloc (laid : Laid heap bs) (request : n + blockHeaderSize < wordModulus)
    (found : heapMalloc kernelHeap n heap = some (p, heap'))
    (placed : allocate blockHeaderSize (n + blockHeaderSize) bs = (some a, bs')) :
    p = a + blockHeaderSize ∧ Laid heap' bs' := by
  obtain ⟨m', run, stored, origin, _⟩ := heapMalloc_allocate laid.stored laid.tiled laid.large
    kernelHeap_placed.positive (tiles_nonempty kernelHeap_placed laid) kernelHeap_placed.inside
    kernelHeap_placed.word laid.mapped request
  have tiled : Tiles kernelHeap.addr (allocate blockHeaderSize (n + blockHeaderSize) bs).2
      (kernelHeap.addr + kernelHeap.size) := allocate_tiles laid.tiled
  have large := allocate_large laid.large (Nat.le_add_left blockHeaderSize n)
  rw [found] at run
  obtain ⟨rfl, rfl⟩ := Prod.mk.inj (Option.some.inj run)
  obtain ⟨⟨d, member, here, _, wide⟩, _⟩ := allocate_some (congrArg Prod.fst placed)
  rw [placed] at stored tiled large member ⊢
  have after : Laid heap' bs' := ⟨stored, tiled, large, origin.trans_le laid.mapped, by simp, List.nodup_nil⟩
  refine ⟨?_, after⟩
  have bounds := laid_inside after member
  have word : fsStartAddr < wordModulus := by decide
  exact Nat.mod_eq_of_lt (by omega)

/-- The header of the freed block is marked. -/
theorem laid_free (laid : Laid heap (pre ++ d :: rest)) :
    Laid (heapFree kernelHeap (d.addr + blockHeaderSize) heap) (pre ++ { d with free := true } :: rest) := by
  have member : d ∈ pre ++ d :: rest := List.mem_append_right _ List.mem_cons_self
  have bounds := laid_inside laid member
  have wide := laid.large d member
  have stop : kernelHeap.addr + kernelHeap.size = fsStartAddr := by decide
  have word : fsStartAddr < wordModulus := by decide
  have marked : heapFree kernelHeap (d.addr + blockHeaderSize) heap = setBlockFree heap d.addr true := by
    have back : (d.addr + blockHeaderSize + wordModulus - blockHeaderSize) % wordModulus = d.addr := by
      have shift : d.addr + blockHeaderSize + wordModulus - blockHeaderSize = d.addr + wordModulus := by omega
      rw [shift, Nat.add_mod_right]
      exact Nat.mod_eq_of_lt (by omega)
    unfold heapFree
    rw [if_neg (by rw [stop, Nat.mod_eq_of_lt word]; omega), back]
  have apart : ∀ e ∈ pre, e.addr ≠ d.addr := by
    intro e inside same
    obtain ⟨mid, left, right⟩ := (tiles_append pre _ _).mp laid.tiled
    have before := tiles_bounds left inside
    have positive := inv_positive laid e (List.mem_append_left _ inside)
    have here := right.1
    omega
  have released : release d.addr (pre ++ d :: rest) = pre ++ { d with free := true } :: rest := by
    rw [release_append apart, release_head rfl]
  rw [marked, ← released]
  refine ⟨stored_release member laid.stored laid.tiled laid.large laid.mapped,
    release_tiles _ laid.tiled, ?_, ?_, by simp, List.nodup_nil⟩
  · intro e inside
    rcases mem_release inside with kept | ⟨c, source, _, rfl⟩
    · exact laid.large e kept
    · exact laid.large c source
  · rw [origin_setBlockFree]
    exact laid.mapped

/-- Behind blocks that are passed by, the block is cut off the first two free ones. -/
theorem laid_first (laid : Laid heap (pre ++ freeBlocks a sizes)) (tight : Tight (n + blockHeaderSize) pre)
    (enough : n + blockHeaderSize + blockHeaderSize < (sizes.take 2).sum)
    (request : n + blockHeaderSize < wordModulus)
    (found : heapMalloc kernelHeap n heap = some (p, heap')) :
    p = a + blockHeaderSize ∧ Laid heap' (pre ++ ⟨a, n + blockHeaderSize, false⟩ ::
      freeBlocks (a + (n + blockHeaderSize)) (((sizes.take 2).sum - (n + blockHeaderSize)) :: sizes.drop 2)) := by
  have placed : allocate blockHeaderSize (n + blockHeaderSize) (pre ++ freeBlocks a sizes) = _ :=
    allocate_tight tight
  rw [allocate_freeBlocks enough] at placed
  exact laid_malloc laid request found placed

/-! ## One folder -/

/-- The free memory starts at `b`; every free block in front of it is too small for the folder. -/
structure FreeFrom (b : Nat) (pre : List Block) (sizes : List Nat) (heap : ByteMemory) : Prop where
  laid : Laid heap (pre ++ freeBlocks b sizes)
  tight : Tight folderBlock pre

/-- The blocks of a folder at `b` and of its array. -/
def folderBlocks (b n : Nat) (arrayFree : Bool) : List Block :=
  [⟨b, folderBlock, false⟩, ⟨b + folderBlock, arrayBlock n, arrayFree⟩]

/-- A folder of `n` files at the start of the free memory. -/
structure FolderFirst (b : Nat) (pre : List Block) (n : Nat) (sizes : List Nat) (heap : ByteMemory) :
    Prop where
  laid : Laid heap ((pre ++ folderBlocks b n false) ++ freeBlocks (b + folderBlock + arrayBlock n) sizes)
  tight : Tight folderBlock pre

/-- A folder whose array of `n` records was replaced by one of `m` behind it. -/
structure FolderMoved (b : Nat) (pre : List Block) (n m : Nat) (sizes : List Nat) (heap : ByteMemory) :
    Prop where
  laid : Laid heap ((pre ++ folderBlocks b n true) ++
    ⟨b + folderBlock + arrayBlock n, arrayBlock m, false⟩ ::
      freeBlocks (b + folderBlock + arrayBlock n + arrayBlock m) sizes)
  tight : Tight folderBlock pre

def rootAt (b : Nat) : Nat := b + blockHeaderSize

def filesAt (b : Nat) : Nat := b + folderBlock + blockHeaderSize

theorem arrayBlock_large (positive : 0 < n) : folderBlock ≤ arrayBlock n := by
  unfold folderBlock arrayBlock folderSize fileRecordSize blockHeaderSize
  omega

theorem arrayBlock_word (small : n < 2 ^ 27) : arrayBlock n < wordModulus := by
  unfold arrayBlock fileRecordSize blockHeaderSize wordModulus
  omega

/-- What the folder leaves over of the first two free blocks lies in front of the others. -/
theorem take_two_rest (sizes : List Nat) (n : Nat) (enough : n ≤ (sizes.take 2).sum) :
    (List.take 2 (((sizes.take 2).sum - n) :: sizes.drop 2)).sum = (sizes.take 3).sum - n := by
  have split : sizes.take 3 = sizes.take 2 ++ (sizes.drop 2).take 1 :=
    List.take_add (i := 2) (j := 1)
  rw [split, List.sum_append, List.take_succ_cons, List.sum_cons]
  omega

theorem folder_first (free : FreeFrom b pre sizes heap) (positive : 0 < n) (small : n < 2 ^ 27)
    (folder : folderBlock + blockHeaderSize < (sizes.take 2).sum)
    (array : folderBlock + arrayBlock n + blockHeaderSize < (sizes.take 3).sum)
    (placed : FolderBlocks heap root files n heap') :
    root = rootAt b ∧ files = filesAt b ∧
      FolderFirst b pre n (((sizes.take 3).sum - folderBlock - arrayBlock n) :: sizes.drop 3) heap' := by
  obtain ⟨rooted, counted, grown, foundRoot, sameCount, foundFiles, stores⟩ := placed
  obtain ⟨rfl, laidRoot⟩ := laid_first free.laid free.tight folder (by decide) foundRoot
  have laidCount := laid_stores laidRoot sameCount fun r here => by
    rw [List.mem_singleton.mp here]
    exact ⟨_, List.mem_append_right _ List.mem_cons_self, Nat.le_refl _, by simp only; omega⟩
  have tight : Tight (n * fileRecordSize + blockHeaderSize) (pre ++ [⟨b, folderBlock, false⟩]) := by
    apply tight_mono (tight_append_used free.tight ?_) (arrayBlock_large positive)
    intro d member
    rw [List.mem_singleton.mp member]
  have room := take_two_rest sizes folderBlock (by omega)
  have shape : pre ++ ⟨b, folderSize + blockHeaderSize, false⟩ :: freeBlocks (b + (folderSize + blockHeaderSize))
      (((sizes.take 2).sum - (folderSize + blockHeaderSize)) :: sizes.drop 2) =
        (pre ++ [⟨b, folderBlock, false⟩]) ++ freeBlocks (b + folderBlock)
          (((sizes.take 2).sum - folderBlock) :: sizes.drop 2) := by
    rw [List.append_assoc]
    rfl
  rw [shape] at laidCount
  obtain ⟨rfl, laidFiles⟩ := laid_first laidCount tight
    (by rw [room]; unfold arrayBlock at array; omega) (arrayBlock_word small) foundFiles
  have shape' : (pre ++ [⟨b, folderBlock, false⟩]) ++
      ⟨b + folderBlock, n * fileRecordSize + blockHeaderSize, false⟩ ::
        freeBlocks (b + folderBlock + (n * fileRecordSize + blockHeaderSize))
          (((sizes.take 3).sum - folderBlock - (n * fileRecordSize + blockHeaderSize)) :: sizes.drop 3) =
      (pre ++ folderBlocks b n false) ++ freeBlocks (b + folderBlock + arrayBlock n)
        (((sizes.take 3).sum - folderBlock - arrayBlock n) :: sizes.drop 3) := by
    rw [List.append_assoc, List.append_assoc]
    rfl
  rw [room, List.drop_succ_cons, List.drop_drop, shape'] at laidFiles
  refine ⟨rfl, rfl, laid_stores laidFiles stores ?_, free.tight⟩
  intro r here
  have blocks : ∀ d ∈ folderBlocks b n false, d ∈ (pre ++ folderBlocks b n false) ++
      freeBlocks (b + folderBlock + arrayBlock n)
        (((sizes.take 3).sum - folderBlock - arrayBlock n) :: sizes.drop 3) := fun d member =>
    List.mem_append_left _ (List.mem_append_right _ member)
  rcases List.mem_cons.mp here with rfl | here
  · refine ⟨_, blocks _ (List.mem_cons_of_mem _ List.mem_cons_self), Nat.le_refl _, ?_⟩
    unfold arrayBlock
    simp only
    omega
  · rw [List.mem_singleton.mp here]
    refine ⟨_, blocks _ List.mem_cons_self, Nat.le_refl _, ?_⟩
    unfold folderBlock
    simp only
    omega

/-- `free_root_dir` marks the two blocks. -/
theorem discarded_laid (mid : List Block) {e : Block} (laid : Laid heap (pre ++ d :: (mid ++ e :: rest)))
    (folder : d.size = folderBlock) :
    Laid (discardedHeap (e.addr + blockHeaderSize) (d.addr + blockHeaderSize) heap)
      (pre ++ { d with free := true } :: (mid ++ { e with free := true } :: rest)) := by
  have shape : pre ++ d :: (mid ++ e :: rest) = (pre ++ d :: mid) ++ e :: rest := by simp
  rw [shape] at laid
  have laidFiles := laid_free laid
  have inside : 4 + (ByteMemory.leBytes 4 0).length ≤ folderSize := by decide
  have sameWord := sameBeyond_writeBytes (heapFree kernelHeap (e.addr + blockHeaderSize) heap)
    (d.addr + blockHeaderSize) inside
  have member : d ∈ (pre ++ d :: mid) ++ { e with free := true } :: rest := by simp
  have laidWord := laid_stores laidFiles sameWord fun r here => by
    rw [List.mem_singleton.mp here]
    refine ⟨d, member, Nat.le_refl _, ?_⟩
    rw [folder]
    unfold folderBlock
    simp only
    omega
  have shape' : (pre ++ d :: mid) ++ { e with free := true } :: rest =
      pre ++ d :: (mid ++ { e with free := true } :: rest) := by simp
  rw [shape'] at laidWord
  exact laid_free laidWord

theorem folder_discarded (first : FolderFirst b pre n sizes heap) :
    FreeFrom b pre (folderBlock :: arrayBlock n :: sizes) (discardedHeap (filesAt b) (rootAt b) heap) := by
  obtain ⟨laid, tight⟩ := first
  rw [List.append_assoc] at laid
  exact ⟨discarded_laid [] laid rfl, tight⟩

/-- The new array lies behind the old one. -/
theorem array_replaced (first : FolderFirst b pre n sizes heap) (positive : 0 < m) (small : m < 2 ^ 27)
    (room : arrayBlock m + blockHeaderSize < (sizes.take 2).sum)
    (replaced : ArrayReplaced heap (rootAt b) (filesAt b) new m heap') :
    new = b + folderBlock + arrayBlock n + blockHeaderSize ∧
      FolderMoved b pre n m (((sizes.take 2).sum - arrayBlock m) :: sizes.drop 2) heap' := by
  obtain ⟨grown, filled, found, stores, words⟩ := replaced
  obtain ⟨laid, tight⟩ := first
  have used : Tight (m * fileRecordSize + blockHeaderSize) (pre ++ folderBlocks b n false) := by
    apply tight_mono (tight_append_used tight ?_) (arrayBlock_large positive)
    intro d member
    simp only [folderBlocks, List.mem_cons, List.not_mem_nil, or_false] at member
    rcases member with rfl | rfl <;> rfl
  obtain ⟨rfl, laidNew⟩ := laid_first laid used room (arrayBlock_word small) found
  have laidFilled := laid_stores laidNew stores fun r here => by
    rw [List.mem_singleton.mp here]
    exact ⟨_, List.mem_append_right _ List.mem_cons_self, Nat.le_refl _, by simp only; omega⟩
  have shape : ∀ (flag : Bool) (tail : List Block), (pre ++ folderBlocks b n flag) ++ tail =
      (pre ++ [⟨b, folderBlock, false⟩]) ++ ⟨b + folderBlock, arrayBlock n, flag⟩ :: tail := by
    intro flag tail
    rw [List.append_assoc, List.append_assoc]
    rfl
  rw [shape] at laidFilled
  have laidWords := laid_stores (laid_free laidFilled) words fun r here => by
    rw [List.mem_singleton.mp here]
    refine ⟨⟨b, folderBlock, false⟩, by simp, Nat.le_refl _, ?_⟩
    unfold rootAt folderBlock
    simp only
    omega
  rw [← shape] at laidWords
  exact ⟨rfl, laidWords, tight⟩

theorem moved_discarded (moved : FolderMoved b pre n m sizes heap) :
    FreeFrom b pre (folderBlock :: arrayBlock n :: arrayBlock m :: sizes)
      (discardedHeap (b + folderBlock + arrayBlock n + blockHeaderSize) (rootAt b) heap) := by
  obtain ⟨laid, tight⟩ := moved
  rw [List.append_assoc] at laid
  exact ⟨discarded_laid [⟨b + folderBlock, arrayBlock n, true⟩] laid rfl, tight⟩

end

/-! ## Loading, replacing and freeing -/

/-- The heap is the one a folder is loaded into: a leftover one was freed. -/
def Discarded (s : Fs) (heap : ByteMemory) : Prop :=
  doIf (s.root ≠ 0) freeRootDir s = .ok ((), { s with heap := heap, root := 0 })

section
variable {s : Fs} {heap heap' : ByteMemory} {pre : List Block} {b n m root files : Nat}
  {sizes : List Nat} {others : List (Nat × Nat)} {rs : List Record}

theorem discarded_none (none : s.root = 0) : Discarded s s.heap := by
  unfold Discarded doIf
  rw [if_neg (by rw [none]; exact fun zero => zero rfl)]
  show Except.ok ((), s) = _
  cases s
  cases none
  rfl

theorem LoadedFrom.blocks (loaded : LoadedFrom s root files n heap') (discarded : Discarded s heap) :
    FolderBlocks heap root files n heap' := by
  obtain ⟨heap0, discard, blocks⟩ := loaded
  have same := Except.ok.inj (discard.symm.trans discarded)
  have heaps : heap0 = heap := congrArg (fun p => p.2.heap) same
  rwa [← heaps]

/-- A folder of `n` files fits into the first three blocks. -/
structure FolderFits (sizes : List Nat) (n : Nat) : Prop where
  folder : folderBlock + blockHeaderSize < (sizes.take 2).sum
  array : folderBlock + arrayBlock n + blockHeaderSize < (sizes.take 3).sum

/-- Behind it there is room for an array of `m`. -/
structure ArraysFit (sizes : List Nat) (n m : Nat) : Prop extends FolderFits sizes n where
  both : folderBlock + arrayBlock n + arrayBlock m + blockHeaderSize < (sizes.take 4).sum

theorem loaded_first (free : FreeFrom b pre sizes heap) (fits : FolderFits sizes n) (positive : 0 < n)
    (small : n < 2 ^ 27) (discarded : Discarded s heap) (loaded : LoadedFrom s root files n heap') :
    root = rootAt b ∧ files = filesAt b ∧
      FolderFirst b pre n (((sizes.take 3).sum - folderBlock - arrayBlock n) :: sizes.drop 3) heap' :=
  folder_first free positive small fits.folder fits.array (loaded.blocks discarded)

/-- The blocks of the folder and of both arrays stay behind as free ones. -/
theorem replaced_free (free : FreeFrom b pre sizes heap) (fits : ArraysFit sizes rs.length m)
    (positive : 0 < rs.length) (positive' : 0 < m) (small : rs.length < 2 ^ 27) (small' : m < 2 ^ 27)
    (discarded : Discarded s heap) (replaced : FolderReplaced s others rs m heap') :
    FreeFrom b pre (folderBlock :: arrayBlock rs.length :: arrayBlock m ::
      ((sizes.take 4).sum - folderBlock - arrayBlock rs.length - arrayBlock m) :: sizes.drop 4) heap' := by
  obtain ⟨t, files, new, swapped, _, loaded, array, rfl⟩ := replaced
  obtain ⟨rooted, rfl, first⟩ := loaded_first free fits.toFolderFits positive small discarded loaded
  rw [rooted] at array ⊢
  have rest : (List.take 2 (((sizes.take 3).sum - folderBlock - arrayBlock rs.length) :: sizes.drop 3)).sum =
      (sizes.take 4).sum - folderBlock - arrayBlock rs.length := by
    have split : sizes.take 4 = sizes.take 3 ++ (sizes.drop 3).take 1 := List.take_add (i := 3) (j := 1)
    have large := fits.array
    rw [split, List.sum_append, List.take_succ_cons, List.sum_cons]
    omega
  have both := fits.both
  obtain ⟨rfl, moved⟩ := array_replaced first positive' small' (by rw [rest]; omega) array
  rw [rest, List.drop_succ_cons, List.drop_drop] at moved
  exact moved_discarded moved

end

end Delos.Invariants
