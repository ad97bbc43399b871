import Delos.Invariants.FileCatalog

/-!
# Building a new array of records

`touch` and `rm` copy the records of the folder into an array of another length
and install it in the folder. While it is built, the array is one more live
region whose records are written field by field.
-/
namespace Delos.Invariants
open Lib Source

structure Buffered (heap : ByteMemory) (live : List (Nat × Nat)) (new : Nat) (a : List Record) :
    Prop where
  owned : Owned heap ((new, a.length * fileRecordSize) :: live)
  holds : ∀ i (h : i < a.length), heap.readBytes (fileAt new i) fileRecordSize = a[i].bytes

/-- A new array of `n` records is built in a block of its own and takes the place of the old one. -/
def ArrayReplaced (heap : ByteMemory) (root old new n : Nat) (heap' : ByteMemory) : Prop :=
  ∃ grown filled, heapMalloc kernelHeap (n * fileRecordSize) heap = some (new, grown) ∧
    SameBeyond [(new, n * fileRecordSize)] grown filled ∧
      SameBeyond [(root, folderSize)] (heapFree kernelHeap old filled) heap'

/-- The folder is loaded, its array replaced by one of `m` records, and both are freed. -/
def FolderReplaced (s : Fs) (others : List (Nat × Nat)) (rs : List Record) (m : Nat) (heap : ByteMemory) :
    Prop :=
  ∃ t files new replaced, Loaded t others files rs ∧ LoadedFrom s t.root files rs.length t.heap ∧
    ArrayReplaced t.heap t.root files new m replaced ∧ heap = discardedHeap new t.root replaced

section
variable {s : Fs} {heap : ByteMemory} {live others : List (Nat × Nat)} {new old i j k : Nat}
  {a rs : List Record} {bytes : List UInt8}

/-- Whatever the region holds is an array of records. -/
theorem buffered_fresh {m : Nat} (owned : Owned heap ((new, m * fileRecordSize) :: live)) :
    ∃ a : List Record, a.length = m ∧ Buffered heap live new a := by
  let read : Nat → Record := fun i =>
    ⟨heap.readBytes (fileAt new i) fileRecordSize, ByteMemory.length_readBytes _ _ _⟩
  have size : ((List.range m).map read).length = m := by rw [List.length_map, List.length_range]
  refine ⟨(List.range m).map read, size, by rwa [size], fun i h => ?_⟩
  rw [List.getElem_map, List.getElem_range]

theorem Buffered.records (buffered : Buffered heap live new a) : RecordsAt heap new a := by
  have bounds := owned_bounds buffered.owned List.mem_cons_self
  exact ⟨bounds.1, bounds.2, buffered.holds⟩

theorem writeBuffered_run (buffered : Buffered s.heap live new a) (small : j < a.length)
    (fits : k + bytes.length ≤ fileRecordSize) :
    ∃ heap, writeMemory (fileAt new j + k) bytes s = .ok ((), { s with heap := heap }) ∧
      Buffered heap live new (a.set j (a[j].overwrite k bytes fits)) ∧
      SameBeyond [(new, a.length * fileRecordSize)] s.heap heap := by
  have inside := record_inside new small fits
  have place : fileAt new j + k = new + (j * fileRecordSize + k) := Nat.add_assoc _ _ _
  have within : j * fileRecordSize + k + bytes.length ≤ a.length * fileRecordSize := by omega
  refine ⟨s.heap.writeBytes (fileAt new j + k) bytes, ?_, ⟨?_, ?_⟩, ?_⟩
  · rw [place]
    exact writeRegion_run buffered.owned List.mem_cons_self within
  · rw [List.length_set, place]
    exact owned_writeBytes buffered.owned List.mem_cons_self within
  · exact holds_set buffered.owned (Nat.le_refl _) buffered.holds small fits
  · rw [place]
    exact sameBeyond_writeBytes s.heap new within

theorem overwrite_whole (r r' : Record) (fits : 0 + r'.bytes.length ≤ fileRecordSize) :
    r.overwrite 0 r'.bytes fits = r' := by
  apply Record.ext
  have size := r.whole
  rw [Record.bytes_overwrite, r'.whole, List.take_zero, List.nil_append,
    List.drop_eq_nil_of_le (by omega), List.append_nil]

/-- `memcpy` of one record from the folder into the new array. -/
theorem copyRecord_run (buffered : Buffered s.heap live new a) (records : RecordsAt s.heap old rs)
    (source : i < rs.length) (dest : j < a.length) :
    ∃ heap, memcpy (fileAt new j) (fileAt old i) fileRecordSize s = .ok ((), { s with heap := heap }) ∧
      Buffered heap live new (a.set j rs[i]) ∧
      SameBeyond [(new, a.length * fileRecordSize)] s.heap heap := by
  have fits : 0 + rs[i].bytes.length ≤ fileRecordSize := by
    rw [rs[i].whole]
    exact Nat.le_refl _
  have low := records.low
  have lowNew := buffered.records.low
  have positive : 0 < kernelHeap.addr := by decide
  obtain ⟨heap, write, after, same⟩ := writeBuffered_run buffered dest fits
  rw [overwrite_whole] at after
  refine ⟨heap, ?_, after, same⟩
  unfold memcpy
  rw [if_neg (by unfold fileAt; omega)]
  have read := readField_run (k := 0) records source (show 0 + fileRecordSize ≤ fileRecordSize from Nat.le_refl _)
  have whole : rs[i].field 0 fileRecordSize = rs[i].bytes := by
    rw [Record.field, List.drop_zero, List.take_of_length_le (Nat.le_of_eq rs[i].whole)]
  rw [Nat.add_zero, whole] at read
  rw [run_bind read]
  exact write

theorem copyFiles_run (left i : Nat) (whole : i + left = rs.length) (room : rs.length ≤ a.length)
    (buffered : Buffered s.heap live new a) (records : RecordsAt s.heap old rs)
    (member : (old, rs.length * fileRecordSize) ∈ live) (before : ∀ j < i, a[j]? = rs[j]?) :
    ∃ heap a', copyFiles new old left i s = .ok ((), { s with heap := heap }) ∧
      a'.length = a.length ∧ Buffered heap live new a' ∧ (∀ j < rs.length, a'[j]? = rs[j]?) ∧
      SameBeyond [(new, a.length * fileRecordSize)] s.heap heap := by
  induction left generalizing s i a with
  | zero => exact ⟨s.heap, a, rfl, rfl, buffered, fun j small => before j (by omega), sameBeyond_refl⟩
  | succ left ih =>
    obtain ⟨heap, copy, after, same⟩ := copyRecord_run buffered records
      (show i < rs.length by omega) (show i < a.length by omega)
    have records' := records_kept records (kept_beyond buffered.owned same) member
    obtain ⟨heap', a', run, length, final, all, same'⟩ := ih (s := { s with heap := heap }) (i + 1)
      (by omega) (by rwa [List.length_set]) after records' (fun j small => by
        rw [List.getElem?_set]
        by_cases here : i = j
        · rw [if_pos here, if_pos (by omega), ← here, List.getElem?_eq_getElem]
        · rw [if_neg here]
          exact before j (by omega))
    rw [List.length_set] at same'
    refine ⟨heap', a', ?_, length.trans List.length_set, final, all, sameBeyond_trans same same'⟩
    unfold copyFiles
    rw [run_bind copy]
    exact run

/-- The old array is freed and the new one takes its place in the folder. -/
theorem installFiles_run {n : Nat}
    (buffered : Buffered s.heap ((old, n) :: (s.root, folderSize) :: others) new a) :
    ∃ heap, (do
        kfree old
        setRootFiles new
        setRootFileCount (a.length % wordModulus) : Kernel Unit) s = .ok ((), { s with heap := heap }) ∧
      Loaded { s with heap := heap } others new a ∧ Kept others s.heap heap ∧
        SameBeyond [(s.root, folderSize)] (heapFree kernelHeap old s.heap) heap := by
  have bounds := owned_bounds buffered.owned List.mem_cons_self
  have small : new < wordModulus ∧ a.length < wordModulus := by
    have : fsStartAddr < wordModulus := by decide
    unfold fileRecordSize at bounds
    omega
  obtain ⟨owned, kept⟩ := owned_kfree (owned_perm buffered.owned (List.Perm.swap _ _ _))
  have ownedRoot := owned_perm owned (List.Perm.swap _ _ _)
  obtain ⟨linked, link, owned', sameLink, pointer, _⟩ := writeRootWord_run
    (s := { s with heap := heapFree kernelHeap old s.heap }) 4 new (by decide) ownedRoot
  obtain ⟨counted, count, owned'', sameCount, stored, other⟩ := writeRootWord_run
    (s := { s with heap := linked }) 0 (a.length % wordModulus) (by decide) owned'
  have same := sameBeyond_trans sameLink sameCount
  have kept' : Kept ((new, a.length * fileRecordSize) :: others) s.heap counted := by
    refine kept_trans (fun region member => kept region ?_) (kept_beyond ownedRoot same)
    rcases List.mem_cons.mp member with rfl | member
    · exact List.mem_cons_of_mem _ List.mem_cons_self
    · exact List.mem_cons_of_mem _ (List.mem_cons_of_mem _ (List.mem_cons_of_mem _ member))
  refine ⟨counted, ?_, ⟨owned_perm owned'' (List.Perm.swap _ _ _), ?_, ?_, ?_⟩, kept_tail kept', same⟩
  · rw [run_bind (show kfree old s = .ok ((), { s with heap := heapFree kernelHeap old s.heap }) from rfl)]
    rw [run_bind (show setRootFiles new { s with heap := heapFree kernelHeap old s.heap } = _ from link)]
    exact count
  · rw [Nat.mod_mod, Nat.mod_eq_of_lt small.2] at stored
    exact stored
  · refine (other 4 (Or.inr (Nat.le_refl _))).trans (pointer.trans (Nat.mod_eq_of_lt small.1))
  · intro i h
    have inside := record_inside new h (Nat.le_refl (0 + fileRecordSize))
    have place : fileAt new i = new + i * fileRecordSize := rfl
    rw [← buffered.holds i h, place]
    exact kept_readBytes _ _ kept' List.mem_cons_self (by omega)

end

end Delos.Invariants
