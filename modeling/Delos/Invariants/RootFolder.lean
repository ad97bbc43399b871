import Delos.Invariants.Records

/-!
# The root folder in the kernel heap

`Folder` is what reading the loaded folder needs, `Loaded` adds that its two
blocks are live, and `Parked` is the state between two operations: the static
pointer is NULL or still designates a folder, which the next load frees.
`others` are the live regions of everything else in the kernel.
-/
namespace Delos.Invariants
open Lib Source

structure RecordsAt (heap : ByteMemory) (files : Nat) (rs : List Record) : Prop where
  low : kernelHeap.addr ≤ files
  high : files + rs.length * fileRecordSize ≤ fsStartAddr
  holds : ∀ i (h : i < rs.length), heap.readBytes (fileAt files i) fileRecordSize = rs[i].bytes

structure Folder (s : Fs) (files : Nat) (rs : List Record) : Prop where
  rootLow : kernelHeap.addr ≤ s.root
  rootHigh : s.root + folderSize ≤ fsStartAddr
  count : s.heap.read32 s.root = rs.length
  pointer : s.heap.read32 (s.root + 4) = files
  array : files = 0 ∧ rs = [] ∨ RecordsAt s.heap files rs

structure Loaded (s : Fs) (others : List (Nat × Nat)) (files : Nat) (rs : List Record) : Prop where
  owned : Owned s.heap ((files, rs.length * fileRecordSize) :: (s.root, folderSize) :: others)
  count : s.heap.read32 s.root = rs.length
  pointer : s.heap.read32 (s.root + 4) = files
  holds : ∀ i (h : i < rs.length), s.heap.readBytes (fileAt files i) fileRecordSize = rs[i].bytes

inductive Parked (s : Fs) (others : List (Nat × Nat)) : Prop
  | empty (none : s.root = 0) (owned : Owned s.heap others)
  | folder (files size : Nat) (owned : Owned s.heap ((files, size) :: (s.root, folderSize) :: others))
      (pointer : s.heap.read32 (s.root + 4) = files)

section
variable {s : Fs} {others : List (Nat × Nat)} {files i k len : Nat} {rs : List Record}
  {heap heap' : ByteMemory} {bytes : List UInt8}

theorem Loaded.records (loaded : Loaded s others files rs) : RecordsAt s.heap files rs := by
  have bounds := owned_bounds loaded.owned List.mem_cons_self
  exact ⟨bounds.1, bounds.2, loaded.holds⟩

theorem Loaded.folder (loaded : Loaded s others files rs) : Folder s files rs := by
  have bounds := owned_bounds loaded.owned (List.mem_cons_of_mem _ List.mem_cons_self)
  exact ⟨bounds.1, bounds.2, loaded.count, loaded.pointer, Or.inr loaded.records⟩

theorem Loaded.parked (loaded : Loaded s others files rs) : Parked s others :=
  .folder files _ loaded.owned loaded.pointer

/-- The folder is in the heap; the disk does not matter to it. -/
theorem Folder.onDisk (folder : Folder s files rs) (disk : ByteMemory) :
    Folder { s with disk := disk } files rs :=
  ⟨folder.rootLow, folder.rootHigh, folder.count, folder.pointer, folder.array⟩

theorem Loaded.onDisk (loaded : Loaded s others files rs) (disk : ByteMemory) :
    Loaded { s with disk := disk } others files rs :=
  ⟨loaded.owned, loaded.count, loaded.pointer, loaded.holds⟩

/-- Neither does the text on the screen. -/
theorem Parked.onScreen (parked : Parked s others) (screen : List ScreenCall) :
    Parked { s with screen := screen } others := by
  cases parked with
  | empty none owned => exact .empty none owned
  | folder files size owned pointer => exact .folder files size owned pointer

/-! ## Reading -/

theorem readHeap_run {a n : Nat} (low : kernelHeap.addr ≤ a) (high : a + n ≤ fsStartAddr) :
    readMemory a n s = .ok (s.heap.readBytes a n, s) := by
  have page : ¬ a + n ≤ pageSize := by
    have : pageSize < kernelHeap.addr := by decide
    omega
  show (if a + n ≤ pageSize then _ else if kernelHeap.addr ≤ a ∧ a + n ≤ fsStartAddr then _
    else _ : Kernel _) s = _
  rw [if_neg page, if_pos ⟨low, high⟩]
  rfl

theorem readWord_run {a : Nat} (low : kernelHeap.addr ≤ a) (high : a + 4 ≤ fsStartAddr) :
    readWord a s = .ok (s.heap.read32 a, s) := by
  show (readMemory a 4 s >>= _) = _
  rw [readHeap_run low high]
  rfl

theorem rootFileCount_run (folder : Folder s files rs) : rootFileCount s = .ok (rs.length, s) := by
  have high := folder.rootHigh
  unfold folderSize at high
  show readWord s.root s = _
  rw [readWord_run folder.rootLow (by omega), folder.count]

theorem rootFiles_run (folder : Folder s files rs) : rootFiles s = .ok (files, s) := by
  have low := folder.rootLow
  have high := folder.rootHigh
  unfold folderSize at high
  show readWord (s.root + 4) s = _
  rw [readWord_run (by omega) (by omega), folder.pointer]

theorem recordsAt_field (records : RecordsAt heap files rs) (small : i < rs.length)
    (fits : k + len ≤ fileRecordSize) :
    heap.readBytes (fileAt files i + k) len = rs[i].field k len := by
  rw [ByteMemory.readBytes_part heap (fileAt files i) fits, records.holds i small]
  rfl

theorem record_inside (files : Nat) (small : i < rs.length) (fits : k + len ≤ fileRecordSize) :
    files ≤ fileAt files i + k ∧
      fileAt files i + k + len ≤ files + rs.length * fileRecordSize := by
  have next : (i + 1) * fileRecordSize ≤ rs.length * fileRecordSize := Nat.mul_le_mul_right _ small
  unfold fileAt
  rw [Nat.add_mul] at next
  omega

theorem readField_run (records : RecordsAt s.heap files rs) (small : i < rs.length)
    (fits : k + len ≤ fileRecordSize) :
    readMemory (fileAt files i + k) len s = .ok (rs[i].field k len, s) := by
  have low := records.low
  have high := records.high
  have inside := record_inside files small fits
  rw [readHeap_run (by omega) (by omega), recordsAt_field records small fits]

theorem fileStartClusterIndex_run (records : RecordsAt s.heap files rs) (small : i < rs.length) :
    fileStartClusterIndex (fileAt files i) s = .ok (rs[i].startCluster, s) := by
  show (readMemory (fileAt files i + 16) 4 s >>= _) = _
  rw [readField_run records small (by decide)]
  rfl

theorem fileSize_run (records : RecordsAt s.heap files rs) (small : i < rs.length) :
    fileSize (fileAt files i) s = .ok (rs[i].size, s) := by
  show (readMemory (fileAt files i + 20) 4 s >>= _) = _
  rw [readField_run records small (by decide)]
  rfl

theorem fileFlag_run (records : RecordsAt s.heap files rs) (small : i < rs.length) (bit : Nat) :
    fileFlag bit (fileAt files i) s = .ok (flagBit rs[i].flags bit, s) := by
  show (readMemory (fileAt files i + 24) 1 s >>= _) = _
  rw [readField_run records small (by decide)]
  rfl

/-! ## Searching -/

theorem sameString_run (text : List UInt8) {a : Nat} (low : kernelHeap.addr ≤ a)
    (high : a + text.length ≤ fsStartAddr) :
    sameString a text s = .ok (decide (s.heap.readBytes a text.length = text), s) := by
  induction text generalizing a with
  | nil => rfl
  | cons c rest ih =>
    rw [List.length_cons] at high
    have read : readMemory a 1 s = .ok ([s.heap.readByte a], s) := readHeap_run low (by omega)
    show (readMemory a 1 s >>= _) = _
    rw [read]
    show (if [s.heap.readByte a] = [c] then sameString (a + 1) rest else pure false : Kernel Bool) s = _
    rw [List.length_cons, ByteMemory.readBytes]
    by_cases same : s.heap.readByte a = c
    · rw [if_pos (by rw [same]), ih (by omega) (by omega)]
      simp [same]
    · rw [if_neg (by simpa using same)]
      simp [same]
      rfl

/-- The records whose name is the given string. -/
def Named (filename : CString) (r : Record) : Bool := decide (r.name = filename.bytes)

theorem sameName_run (records : RecordsAt s.heap files rs) (small : i < rs.length)
    {filename : CString} (short : filename.bytes.length < fileNameLen) :
    sameString (fileAt files i) (filename.bytes ++ [0]) s = .ok (Named filename rs[i], s) := by
  have size : (filename.bytes ++ [0]).length = filename.bytes.length + 1 := by simp
  have fits : 0 + (filename.bytes.length + 1) ≤ fileRecordSize := by
    unfold fileNameLen at short
    unfold fileRecordSize
    omega
  have inside := record_inside files small fits
  have low := records.low
  have high := records.high
  have bytes := recordsAt_field records small fits
  rw [sameString_run _ (by omega) (by omega), size]
  rw [Nat.add_zero, Record.field, List.drop_zero] at bytes
  rw [bytes, Named, decide_eq_decide.mpr (Record.name_eq_iff _ _ filename.plain short)]

theorem findFile_run (records : RecordsAt s.heap files rs) {filename : CString}
    (short : filename.bytes.length < fileNameLen) (left : Nat) (whole : i + left = rs.length) :
    findFile filename files left i s =
      .ok (((rs.drop i).findIdx? (Named filename)).map (· + i), s) := by
  induction left generalizing i with
  | zero =>
    rw [List.drop_eq_nil_of_le (by omega)]
    rfl
  | succ left ih =>
    have small : i < rs.length := by omega
    rw [List.drop_eq_getElem_cons small, List.findIdx?_cons]
    show (sameString (fileAt files i) (filename.bytes ++ [0]) s >>= _) = _
    rw [sameName_run records small short]
    show (if Named filename rs[i] = true then pure (some i)
      else findFile filename files left (i + 1) : Kernel _) s = _
    split
    · simp
      rfl
    · rw [ih (by omega)]
      cases (rs.drop (i + 1)).findIdx? (Named filename) with
      | none => rfl
      | some j => simp [Nat.add_assoc, Nat.add_comm 1 i]

theorem fileIndexOf_run (folder : Folder s files rs) {filename : CString}
    (short : filename.bytes.length < fileNameLen) :
    fileIndexOf filename s = .ok (rs.findIdx? (Named filename), s) := by
  show (rootFileCount s >>= _) = _
  rw [rootFileCount_run folder]
  show (rootFiles s >>= _) = _
  rw [rootFiles_run folder]
  show findFile filename files rs.length 0 s = _
  rcases folder.array with ⟨_, none⟩ | records
  · subst none
    rfl
  · rw [findFile_run records short _ (Nat.zero_add _), List.drop_zero]
    cases rs.findIdx? (Named filename) <;> rfl

theorem existsFile_run (folder : Folder s files rs) {filename : CString}
    (short : filename.bytes.length < fileNameLen) :
    existsFile filename s = .ok ((rs.findIdx? (Named filename)).isSome, s) := by
  show (fileIndexOf filename s >>= _) = _
  rw [fileIndexOf_run folder short]
  rfl

theorem normalizeFilename_short (filename : CString) :
    (normalizeFilename filename).bytes.length < fileNameLen := by
  show (filename.bytes.take (fileNameLen - 1)).length < fileNameLen
  unfold fileNameLen
  rw [List.length_take]
  omega

theorem normalizeFilename_of_short {filename : CString} (short : filename.bytes.length < fileNameLen) :
    normalizeFilename filename = filename := by
  have whole : filename.bytes.take (fileNameLen - 1) = filename.bytes :=
    List.take_of_length_le (by omega)
  cases filename
  simpa only [normalizeFilename, CString.mk.injEq] using whole

/-- The pointer `get_file` returns for a position in the array. -/
def filePointer (files : Nat) : Option Nat → Nat
  | some i => fileAt files i
  | none => 0

theorem filePointer_nonzero {heap : ByteMemory} (records : RecordsAt heap files rs) (i : Nat) :
    filePointer files (some i) ≠ 0 := by
  have low := records.low
  have positive : 0 < kernelHeap.addr := by decide
  show files + i * fileRecordSize ≠ 0
  omega

theorem getFile_run (folder : Folder s files rs) {filename : CString}
    (short : filename.bytes.length < fileNameLen) :
    getFile filename s = .ok (filePointer files (rs.findIdx? (Named filename)), s) := by
  show (fileIndexOf (normalizeFilename filename) s >>= _) = _
  rw [normalizeFilename_of_short short, fileIndexOf_run folder short]
  cases rs.findIdx? (Named filename) with
  | none => rfl
  | some i =>
    show (rootFiles s >>= _) = _
    rw [rootFiles_run folder]
    rfl

/-! ## Writing -/

/-- The two words of `folder_t` live in the second region. -/
theorem root_kept {root : Nat}
    (kept : Kept ((root, folderSize) :: others) heap heap') :
    heap'.read32 root = heap.read32 root ∧ heap'.read32 (root + 4) = heap.read32 (root + 4) := by
  have count := kept_readBytes 0 4 kept List.mem_cons_self (by decide)
  have pointer := kept_readBytes 4 4 kept List.mem_cons_self (by decide)
  exact ⟨congrArg ByteMemory.leValue count, congrArg ByteMemory.leValue pointer⟩

/-- Storing into one record of an array that is live. -/
theorem holds_set {n : Nat} {live : List (Nat × Nat)} (owned : Owned heap ((files, n) :: live))
    (room : rs.length * fileRecordSize ≤ n)
    (holds : ∀ i (h : i < rs.length), heap.readBytes (fileAt files i) fileRecordSize = rs[i].bytes)
    (small : i < rs.length) (fits : k + bytes.length ≤ fileRecordSize) :
    ∀ j (h : j < (rs.set i (rs[i].overwrite k bytes fits)).length),
      (heap.writeBytes (fileAt files i + k) bytes).readBytes (fileAt files j) fileRecordSize =
        (rs.set i (rs[i].overwrite k bytes fits))[j].bytes := by
  have mapped := owned_mapped owned List.mem_cons_self
  intro j h
  rw [List.length_set] at h
  rw [List.getElem_set]
  split
  next same =>
    subst same
    have start : heap.origin ≤ fileAt files i := by
      unfold fileAt
      omega
    rw [ByteMemory.readBytes_writeBytes_within bytes heap _ k fileRecordSize fits start, holds i small]
    rfl
  next different =>
    rw [ByteMemory.readBytes_writeBytes_outside _ _ _ _ _ ?_, holds j h]
    unfold fileAt
    rcases Nat.lt_or_gt_of_ne different with before | after
    · have step : (i + 1) * fileRecordSize ≤ j * fileRecordSize := Nat.mul_le_mul_right _ before
      rw [Nat.add_mul] at step
      omega
    · have step : (j + 1) * fileRecordSize ≤ i * fileRecordSize := Nat.mul_le_mul_right _ after
      rw [Nat.add_mul] at step
      omega

theorem writeField_run (loaded : Loaded s others files rs) (small : i < rs.length)
    (fits : k + bytes.length ≤ fileRecordSize) :
    ∃ heap, writeMemory (fileAt files i + k) bytes s = .ok ((), { s with heap := heap }) ∧
      Loaded { s with heap := heap } others files (rs.set i (rs[i].overwrite k bytes fits)) ∧
      Kept others s.heap heap := by
  have inside := record_inside files small fits
  have place : fileAt files i + k = files + (i * fileRecordSize + k) := Nat.add_assoc _ _ _
  have within : i * fileRecordSize + k + bytes.length ≤ rs.length * fileRecordSize := by omega
  have kept := kept_writeBytes loaded.owned within
  have root := root_kept kept
  refine ⟨s.heap.writeBytes (fileAt files i + k) bytes, ?_, ⟨?_, ?_, ?_, ?_⟩, ?_⟩
  · rw [place]
    exact writeRegion_run loaded.owned List.mem_cons_self within
  · rw [List.length_set, place]
    exact owned_writeBytes loaded.owned List.mem_cons_self within
  · rw [List.length_set, place]
    exact root.1.trans loaded.count
  · rw [place]
    exact root.2.trans loaded.pointer
  · exact holds_set loaded.owned (Nat.le_refl _) loaded.holds small fits
  · rw [place]
    exact kept_tail kept

theorem setFileSize_run (loaded : Loaded s others files rs) (small : i < rs.length) (v : Nat) :
    ∃ heap, setFileSize (fileAt files i) v s = .ok ((), { s with heap := heap }) ∧
      Loaded { s with heap := heap } others files (rs.set i (rs[i].setSize v)) ∧
      Kept others s.heap heap :=
  writeField_run loaded small _

theorem setFileFlag_run (loaded : Loaded s others files rs) (small : i < rs.length) (bit : Nat)
    (v : Bool) :
    ∃ heap, setFileFlag bit (fileAt files i) v s = .ok ((), { s with heap := heap }) ∧
      Loaded { s with heap := heap } others files (rs.set i (rs[i].setFlag bit v)) ∧
      Kept others s.heap heap := by
  show ∃ heap, (readMemory (fileAt files i + 24) 1 s >>= _) = _ ∧ _
  rw [readField_run loaded.records small (by decide)]
  exact writeField_run loaded small _

/-- Storing into one of the two words of the folder. -/
theorem writeRootWord_run {live : List (Nat × Nat)} (k v : Nat) (fits : k + 4 ≤ folderSize)
    (owned : Owned s.heap ((s.root, folderSize) :: live)) :
    ∃ heap, writeWord (s.root + k) v s = .ok ((), { s with heap := heap }) ∧
      Owned heap ((s.root, folderSize) :: live) ∧ SameBeyond [(s.root, folderSize)] s.heap heap ∧
      heap.read32 (s.root + k) = v % wordModulus ∧
      ∀ j, j + 4 ≤ k ∨ k + 4 ≤ j → heap.read32 (s.root + j) = s.heap.read32 (s.root + j) := by
  have size := ByteMemory.length_leBytes 4 v
  have inside : k + (ByteMemory.leBytes 4 v).length ≤ folderSize := by rwa [size]
  have mapped := owned_mapped owned List.mem_cons_self
  refine ⟨s.heap.writeBytes (s.root + k) (ByteMemory.leBytes 4 v),
    writeRegion_run owned List.mem_cons_self inside,
    owned_writeBytes owned List.mem_cons_self inside, sameBeyond_writeBytes s.heap s.root inside, ?_,
    fun j apart => ?_⟩
  · have back := ByteMemory.readBytes_writeBytes_same (ByteMemory.leBytes 4 v) s.heap (s.root + k)
      (by omega)
    rw [size] at back
    exact (congrArg ByteMemory.leValue back).trans (ByteMemory.leValue_leBytes 4 v)
  · exact congrArg ByteMemory.leValue
      (ByteMemory.readBytes_writeBytes_outside _ _ _ _ _ (by rw [size]; omega))

/-! ## Freeing the folder -/

/-- The heap once the folder was freed: both blocks marked free, `files` set to NULL. -/
def discardedHeap (files root : Nat) (heap : ByteMemory) : ByteMemory :=
  heapFree kernelHeap root ((heapFree kernelHeap files heap).writeBytes (root + 4) (ByteMemory.leBytes 4 0))

theorem freeFolder_heap {n : Nat}
    (owned : Owned s.heap ((files, n) :: (s.root, folderSize) :: others))
    (pointer : s.heap.read32 (s.root + 4) = files) :
    freeRootDir s = .ok ((), { s with heap := discardedHeap files s.root s.heap, root := 0 }) := by
  have rootMember : (s.root, folderSize) ∈ (files, n) :: (s.root, folderSize) :: others :=
    List.mem_cons_of_mem _ List.mem_cons_self
  have rootBounds := owned_bounds owned rootMember
  have rootNonzero := owned_nonzero owned rootMember
  have filesNonzero := owned_nonzero owned List.mem_cons_self
  have rootRead : rootFiles s = .ok (files, s) := by
    show readWord (s.root + 4) s = _
    have high := rootBounds.2
    unfold folderSize at high
    rw [readWord_run (by omega) (by omega), pointer]
  obtain ⟨ownedFreed, _⟩ := owned_kfree owned
  have inside : 4 + (ByteMemory.leBytes 4 0).length ≤ folderSize := by decide
  have clear : writeMemory (s.root + 4) (ByteMemory.leBytes 4 0)
      { s with heap := heapFree kernelHeap files s.heap } = _ :=
    writeRegion_run (s := { s with heap := heapFree kernelHeap files s.heap }) ownedFreed
      List.mem_cons_self inside
  show (if s.root = 0 then pure () else _ : Kernel Unit) s = _
  rw [if_neg rootNonzero]
  show (rootFiles s >>= _) = _
  rw [rootRead]
  show ((if files ≠ 0 then (do kfree files; setRootFiles 0) else pure () : Kernel Unit) s >>= _) = _
  rw [if_pos filesNonzero]
  show (writeMemory (s.root + 4) (ByteMemory.leBytes 4 0)
    { s with heap := heapFree kernelHeap files s.heap } >>= _) = _
  rw [clear]
  rfl

theorem discarded_owned {n : Nat} {root : Nat}
    (owned : Owned heap ((files, n) :: (root, folderSize) :: others)) :
    Owned (discardedHeap files root heap) others ∧
      Kept ((files, n) :: others) heap (discardedHeap files root heap) := by
  have rootMember : (root, folderSize) ∈ (files, n) :: (root, folderSize) :: others :=
    List.mem_cons_of_mem _ List.mem_cons_self
  have rootBounds := owned_bounds owned rootMember
  have different := owned_fresh owned List.mem_cons_self
  have apart := owned_apart owned List.mem_cons_self rootMember different
  have header := owned_header owned rootMember List.mem_cons_self
  let freed := heapFree kernelHeap files heap
  let cleared := freed.writeBytes (root + 4) (ByteMemory.leBytes 4 0)
  obtain ⟨ownedFreed, keptFreed⟩ := owned_kfree owned
  have inside : 4 + (ByteMemory.leBytes 4 0).length ≤ folderSize := by decide
  have ownedCleared : Owned cleared ((root, folderSize) :: others) :=
    owned_writeBytes ownedFreed List.mem_cons_self inside
  have keptCleared : Kept others freed cleared := kept_writeBytes ownedFreed inside
  obtain ⟨ownedLast, keptLast⟩ := owned_kfree ownedCleared
  refine ⟨ownedLast, ?_⟩
  intro region member i small
  rcases List.mem_cons.mp member with same | other
  · subst same
    simp only at small ⊢
    have word : root < wordModulus := by
      have : fsStartAddr < wordModulus := by decide
      omega
    unfold discardedHeap
    rw [readByte_kfree word header.1 (by omega)]
    rw [ByteMemory.readByte_writeBytes_outside _ _ _ _ (by
      rw [ByteMemory.length_leBytes]
      unfold folderSize at apart
      omega)]
    exact keptFreed _ List.mem_cons_self i small
  · have first := keptFreed _ (List.mem_cons_of_mem _ (List.mem_cons_of_mem _ other)) i small
    have second := keptCleared _ other i small
    have third := keptLast _ (List.mem_cons_of_mem _ other) i small
    exact third.trans (second.trans first)

theorem freeFolder_run {n : Nat}
    (owned : Owned s.heap ((files, n) :: (s.root, folderSize) :: others))
    (pointer : s.heap.read32 (s.root + 4) = files) :
    ∃ heap, freeRootDir s = .ok ((), { s with heap := heap, root := 0 }) ∧ Owned heap others ∧
      Kept ((files, n) :: others) s.heap heap :=
  ⟨_, freeFolder_heap owned pointer, discarded_owned owned⟩

theorem freeRootDir_parked (parked : Parked s others) :
    ∃ heap, freeRootDir s = .ok ((), { s with heap := heap, root := 0 }) ∧ Owned heap others ∧
      Kept others s.heap heap := by
  cases parked with
  | empty none owned =>
    refine ⟨s.heap, ?_, owned, kept_refl⟩
    show (if s.root = 0 then pure () else _ : Kernel Unit) s = _
    rw [if_pos none, ← none]
    rfl
  | folder files size owned pointer =>
    obtain ⟨heap, run, owned, kept⟩ := freeFolder_run owned pointer
    exact ⟨heap, run, owned, kept_tail kept⟩

/-- A block that is no part of the folder is given back. -/
theorem kfree_parked {p n : Nat} (parked : Parked s ((p, n) :: others)) :
    ∃ heap, kfree p s = .ok ((), { s with heap := heap }) ∧ Parked { s with heap := heap } others ∧
      Kept others s.heap heap := by
  refine ⟨heapFree kernelHeap p s.heap, rfl, ?_⟩
  cases parked with
  | empty none owned =>
    obtain ⟨owned, kept⟩ := owned_kfree owned
    exact ⟨.empty none owned, kept_tail kept⟩
  | folder files size owned pointer =>
    obtain ⟨owned, kept⟩ := owned_kfree (owned_perm owned
      (((List.Perm.swap _ _ _).cons _).trans (List.Perm.swap _ _ _)))
    have root := root_kept (kept_tail (kept_tail kept))
    exact ⟨.folder files size owned (root.2.trans pointer), kept_tail (kept_tail (kept_tail kept))⟩

/-- The records of an array that was left alone. -/
theorem records_kept {live : List (Nat × Nat)} (records : RecordsAt heap files rs)
    (kept : Kept live heap heap') (member : (files, rs.length * fileRecordSize) ∈ live) :
    RecordsAt heap' files rs := by
  refine ⟨records.low, records.high, fun i small => ?_⟩
  have inside := record_inside files small (Nat.le_refl (0 + fileRecordSize))
  have place : fileAt files i = files + i * fileRecordSize := rfl
  rw [place, kept_readBytes _ _ kept member (by omega), ← place, records.holds i small]

/-- The records of a freed folder can still be read. -/
theorem discarded_loaded (loaded : Loaded s others files rs) :
    Owned (discardedHeap files s.root s.heap) others ∧
      Kept others s.heap (discardedHeap files s.root s.heap) ∧
        RecordsAt (discardedHeap files s.root s.heap) files rs := by
  obtain ⟨owned, kept⟩ := discarded_owned loaded.owned
  exact ⟨owned, kept_tail kept, records_kept loaded.records kept List.mem_cons_self⟩

theorem freeRootDir_loaded (loaded : Loaded s others files rs) :
    ∃ heap, freeRootDir s = .ok ((), { s with heap := heap, root := 0 }) ∧ Owned heap others ∧
      Kept others s.heap heap ∧ RecordsAt heap files rs :=
  ⟨_, freeFolder_heap loaded.owned loaded.pointer, discarded_loaded loaded⟩

end

end Delos.Invariants
