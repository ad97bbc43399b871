import Delos.Invariants.DirectoryLayout

/-!
# Loading the directory

For a directory that is stored in its chain, `load_root_folder` ends with a copy
of the records in the kernel heap and changes nothing on the disk.
-/
namespace Delos.Invariants
open Lib Source

/-- A folder of which the first `k` records were copied. -/
structure Loading (s : Fs) (others : List (Nat × Nat)) (files : Nat) (rs : List Record) (k : Nat) :
    Prop where
  owned : Owned s.heap ((files, rs.length * fileRecordSize) :: (s.root, folderSize) :: others)
  count : s.heap.read32 s.root = rs.length
  pointer : s.heap.read32 (s.root + 4) = files
  holds : ∀ i (h : i < rs.length), i < k →
    s.heap.readBytes (fileAt files i) fileRecordSize = rs[i].bytes

section
variable {s : Fs} {others : List (Nat × Nat)} {files first m c k : Nat} {rs : List Record}
  {lost cells : List Nat} {chains : List (List Nat)}

theorem Loading.loaded (loading : Loading s others files rs k) (all : rs.length ≤ k) :
    Loaded s others files rs :=
  ⟨loading.owned, loading.count, loading.pointer, fun i h => loading.holds i h (by omega)⟩

theorem Loading.rootFiles_run (loading : Loading s others files rs k) :
    rootFiles s = .ok (files, s) := by
  have bounds := owned_bounds loading.owned (List.mem_cons_of_mem _ List.mem_cons_self)
  unfold folderSize at bounds
  show readWord (s.root + 4) s = _
  rw [readWord_run (by omega) (by omega), loading.pointer]

/-- `memcpy` of records out of the disk. -/
theorem loadRecords_run {a : Nat} (first m : Nat) (loading : Loading s others files rs first)
    (inside : first + m ≤ rs.length) (behind : fsStartAddr < a)
    (high : a + m * fileRecordSize ≤ fsStartAddr + fsSize)
    (stored : ∀ j (h : j < m), s.disk.readBytes (a + j * fileRecordSize) fileRecordSize =
      (rs[first + j]).bytes) :
    ∃ heap, memcpy (fileAt files first) a (m * fileRecordSize) s =
        .ok ((), { s with heap := heap }) ∧
      Loading { s with heap := heap } others files rs (first + m) ∧
      SameBeyond [(files, rs.length * fileRecordSize)] s.heap heap := by
  have nonzero := owned_nonzero loading.owned List.mem_cons_self
  have size := ByteMemory.length_readBytes (m * fileRecordSize) s.disk a
  have last : (first + m) * fileRecordSize ≤ rs.length * fileRecordSize := Nat.mul_le_mul_right _ inside
  rw [Nat.add_mul] at last
  have within : first * fileRecordSize + (s.disk.readBytes a (m * fileRecordSize)).length ≤
      rs.length * fileRecordSize := by omega
  have kept := kept_writeBytes loading.owned within
  have root := root_kept kept
  have mapped := owned_mapped loading.owned List.mem_cons_self
  refine ⟨s.heap.writeBytes (fileAt files first) (s.disk.readBytes a (m * fileRecordSize)), ?_,
    ⟨?_, ?_, ?_, ?_⟩, sameBeyond_writeBytes s.heap files within⟩
  · unfold memcpy
    rw [if_neg (by
      unfold fileAt
      omega)]
    rw [run_bind (readMemory_disk (by omega) high (by omega))]
    exact writeRegion_run loading.owned List.mem_cons_self within
  · exact owned_writeBytes loading.owned List.mem_cons_self within
  · exact root.1.trans loading.count
  · exact root.2.trans loading.pointer
  · intro i h before
    rcases Nat.lt_or_ge i first with old | new
    · rw [← loading.holds i h old]
      refine ByteMemory.readBytes_writeBytes_outside _ _ _ _ _ (Or.inl ?_)
      have step : (i + 1) * fileRecordSize ≤ first * fileRecordSize := Nat.mul_le_mul_right _ old
      rw [Nat.add_mul] at step
      unfold fileAt
      omega
    · obtain ⟨j, rfl⟩ : ∃ j, i = first + j := ⟨i - first, by omega⟩
      have small : j < m := by omega
      have step : (j + 1) * fileRecordSize ≤ m * fileRecordSize := Nat.mul_le_mul_right _ small
      rw [Nat.add_mul, Nat.one_mul] at step
      have place : fileAt files (first + j) = fileAt files first + j * fileRecordSize := by
        unfold fileAt
        rw [Nat.add_mul, Nat.add_assoc]
      have back := ByteMemory.readBytes_writeBytes_same (s.disk.readBytes a (m * fileRecordSize))
        s.heap (fileAt files first) (by unfold fileAt; omega)
      rw [size] at back
      rw [place, ByteMemory.readBytes_part _ _ step, back, ← ByteMemory.readBytes_part _ _ step]
      exact stored j small

/-- The records of a full cluster behind the first one. -/
theorem dirPrefix_chunk {disk : ByteMemory} (front : List Nat) {back : List Nat}
    (dir : DirPrefix disk (front ++ c :: back) rs k)
    (full : first = maxFilesInOneCluster * front.length) (some : front ≠ [])
    (few : m ≤ maxFilesInOneCluster) (inside : first + m ≤ rs.length) (before : first + m ≤ k) :
    ∀ j (h : j < m), disk.readBytes (clusterAddr c + j * fileRecordSize) fileRecordSize =
      (rs[first + j]).bytes := by
  intro j h
  obtain ⟨place, offset⟩ := recordPlace (i := c) (j := j) full some (by omega)
  have stored := dir.stored (first + j) (by omega) (by omega)
  have chunk : maxFilesInOneCluster = 2 := by decide
  have short : (first + j) / maxFilesInOneCluster < (front ++ [c]).length := by
    rw [List.length_append, List.length_singleton]
    rw [chunk] at full few ⊢
    omega
  have same : (front ++ c :: back).getD ((first + j) / maxFilesInOneCluster) 0 = c := by
    have shape : front ++ c :: back = (front ++ [c]) ++ back := by
      rw [List.append_assoc]
      rfl
    rw [shape, List.getD_append _ _ _ _ short, place]
  rw [recordBytes, same, offset] at stored
  exact stored

theorem loadClustersLoop_run (front : List Nat) (curr next : Nat) (middle : List Nat) (marker : Nat)
    (bound : Nat) (enough : middle.length < bound) (first : Nat)
    (shape : cells = front ++ curr :: next :: (middle ++ [marker])) (path : Path s.disk cells)
    (dir : DirPrefix s.disk cells rs (first + maxFilesInOneCluster * middle.length))
    (eof : fatValue s.disk marker = eofCluster)
    (full : first = maxFilesInOneCluster * (front.length + 1))
    (inside : first + maxFilesInOneCluster * middle.length ≤ rs.length)
    (loading : Loading s others files rs first) :
    ∃ front' curr' next' heap, loadClustersLoop bound curr first s =
        .ok ((curr', first + maxFilesInOneCluster * middle.length), { s with heap := heap }) ∧
      cells = front' ++ curr' :: next' :: [marker] ∧
      front'.length = front.length + middle.length ∧
      Loading { s with heap := heap } others files rs (first + maxFilesInOneCluster * middle.length) ∧
      SameBeyond [(files, rs.length * fileRecordSize)] s.heap heap := by
  obtain ⟨bound, rfl⟩ : ∃ b, bound = b + 1 := ⟨bound - 1, by omega⟩
  induction middle generalizing s front curr next first bound with
  | nil =>
    have links := path
    rw [shape] at links
    obtain ⟨currSmall, nextSmall, link, _⟩ := path_link_at front curr next _ links
    obtain ⟨_, markerSmall, link', _⟩ := path_link_at (front ++ [curr]) next marker []
      (by rw [List.append_assoc]; exact links)
    refine ⟨front, curr, next, s.heap, ?_, shape, rfl, loading, sameBeyond_refl⟩
    unfold loadClustersLoop
    rw [run_bind (fat_run s currSmall), link, run_bind (fat_run s nextSmall), link',
      run_bind (fat_run s markerSmall), eof, if_neg (by decide)]
    rfl
  | cons b middle ih =>
    have links := path
    rw [shape] at links
    obtain ⟨currSmall, nextSmall, link, _⟩ := path_link_at front curr next _ links
    obtain ⟨_, bSmall, link', _⟩ := path_link_at (front ++ [curr]) next b (middle ++ [marker])
      (by rw [List.append_assoc]; exact links)
    obtain ⟨third, tail, more⟩ : ∃ third tail, middle ++ [marker] = third :: tail :=
      List.exists_cons_of_ne_nil (by simp)
    obtain ⟨_, _, link'', notEof⟩ := path_link_at (front ++ [curr, next]) b third tail
      (by rw [List.append_assoc, ← more]; exact links)
    rw [List.length_cons] at enough inside dir
    rw [Nat.mul_succ] at inside dir
    have place := cluster_inside (k := 0) (n := maxFilesInOneCluster * fileRecordSize) nextSmall
      (by decide)
    obtain ⟨heap, copy, loading', same⟩ := loadRecords_run (a := clusterAddr next) first
      maxFilesInOneCluster loading (by omega) (by omega) (by omega)
      (dirPrefix_chunk (front ++ [curr])
        (by rw [shape, show front ++ curr :: next :: (b :: middle ++ [marker]) =
          (front ++ [curr]) ++ next :: (b :: middle ++ [marker]) by simp] at dir; exact dir)
        (by rw [full, List.length_append]; rfl) (by simp) (Nat.le_refl _) (by omega) (by omega))
    obtain ⟨bound, rfl⟩ : ∃ b, bound = b + 1 := ⟨bound - 1, by omega⟩
    have step : first + maxFilesInOneCluster * (middle.length + 1) =
        first + maxFilesInOneCluster + maxFilesInOneCluster * middle.length := by
      rw [Nat.mul_succ]
      omega
    obtain ⟨front', curr', next', heap', run, shape', length, last, same'⟩ :=
      ih (s := { s with heap := heap }) (front ++ [curr]) next b (first + maxFilesInOneCluster)
        (by rw [shape]; simp) path (by rw [← step, Nat.mul_succ]; exact dir) eof
        (by rw [full, List.length_append, List.length_singleton, Nat.mul_succ _ (front.length + 1)])
        (by omega) loading' bound (by omega)
    rw [List.length_cons, step]
    refine ⟨front', curr', next', heap', ?_, shape', ?_, last, sameBeyond_trans same same'⟩
    · unfold loadClustersLoop
      rw [run_bind (fat_run s currSmall), link, run_bind (fat_run s nextSmall), link',
        run_bind (fat_run s bSmall), link'', if_pos notEof, run_bind loading.rootFiles_run,
        run_bind copy]
      exact run
    · rw [length, List.length_append, List.length_singleton]
      omega

/-- The records behind the number of files. -/
theorem dirPrefix_head {disk : ByteMemory} (dir : DirPrefix disk (0 :: cells) rs k)
    (few : m ≤ maxFilesInFirstCluster) (inside : m ≤ rs.length) (before : m ≤ k) :
    ∀ j (h : j < m), disk.readBytes (clusterAddr 0 + 4 + j * fileRecordSize) fileRecordSize =
      (rs[0 + j]).bytes := by
  intro j h
  have chunk : maxFilesInFirstCluster = 2 := by decide
  have same : maxFilesInOneCluster = 2 := by decide
  have stored := dir.stored j (by omega) (by omega)
  rw [recordBytes, recordOffset, if_pos (by omega), same, Nat.div_eq_of_lt (by omega),
    Nat.mod_eq_of_lt (by omega), List.getD_cons_zero] at stored
  simp only [Nat.zero_add]
  rw [← stored, Nat.add_assoc]

/-- The number of files is read into the new folder. -/
theorem loadCount_run {n : Nat} (owned : Owned s.heap ((s.root, folderSize) :: others))
    (count : s.disk.read32 (clusterAddr 0) = n) :
    ∃ heap, memcpy s.root (clusterAddr 0) 4 s = .ok ((), { s with heap := heap }) ∧
      Owned heap ((s.root, folderSize) :: others) ∧ heap.read32 s.root = n ∧
      SameBeyond [(s.root, folderSize)] s.heap heap := by
  have nonzero := owned_nonzero owned List.mem_cons_self
  have addr := (cluster_inside (c := 0) (k := 0) (n := 0) (by decide) (by decide)).1
  have positive : 0 < fsStartAddr := by decide
  have size := ByteMemory.length_readBytes 4 s.disk (clusterAddr 0)
  have fits : 0 + (s.disk.readBytes (clusterAddr 0) 4).length ≤ folderSize := by
    rw [size]
    decide
  refine ⟨s.heap.writeBytes (s.root + 0) (s.disk.readBytes (clusterAddr 0 + 0) 4), ?_,
    owned_writeBytes owned List.mem_cons_self fits, ?_, sameBeyond_writeBytes s.heap s.root fits⟩
  · unfold memcpy
    rw [if_neg (by omega)]
    show (readMemory (clusterAddr 0 + 0) 4 >>= _) s = _
    rw [run_bind (readCluster_run s (by decide) (by decide))]
    exact writeRegion_run owned List.mem_cons_self fits
  · have back := ByteMemory.readBytes_writeBytes_same (s.disk.readBytes (clusterAddr 0) 4) s.heap
      (s.root + 0) (owned_mapped owned List.mem_cons_self)
    rw [size] at back
    rw [← count]
    exact congrArg ByteMemory.leValue back

/-- The pointer to the new array is stored into the new folder. -/
theorem setRootFiles_loading (owned : Owned s.heap ((files, rs.length * fileRecordSize) ::
    (s.root, folderSize) :: others)) (count : s.heap.read32 s.root = rs.length) :
    ∃ heap, setRootFiles files s = .ok ((), { s with heap := heap }) ∧
      Loading { s with heap := heap } others files rs 0 ∧ SameBeyond [(s.root, folderSize)] s.heap heap := by
  have bounds := owned_bounds owned List.mem_cons_self
  have word : files < wordModulus := by
    have : fsStartAddr < wordModulus := by decide
    omega
  obtain ⟨heap, write, owned', same, pointer, other⟩ := writeRootWord_run 4 files (by decide)
    (owned_perm owned (List.Perm.swap _ _ _))
  refine ⟨heap, write, ⟨owned_perm owned' (List.Perm.swap _ _ _), ?_, ?_, ?_⟩, same⟩
  · exact (other 0 (Or.inl (Nat.le_refl _))).trans count
  · exact pointer.trans (Nat.mod_eq_of_lt word)
  · exact fun i h before => absurd before (Nat.not_lt_zero i)

theorem rootFileCount_counted {n : Nat} (owned : Owned s.heap ((s.root, folderSize) :: others))
    (count : s.heap.read32 s.root = n) : rootFileCount s = .ok (n, s) := by
  have bounds := owned_bounds owned List.mem_cons_self
  unfold folderSize at bounds
  show readWord s.root s = _
  rw [readWord_run bounds.1 (by omega), count]

/-- What is left of the last folder can be freed. -/
def Discards (s : Fs) (others : List (Nat × Nat)) : Prop :=
  ∃ heap, doIf (s.root ≠ 0) freeRootDir s = .ok ((), { s with heap := heap, root := 0 }) ∧
    Owned heap others ∧ Kept others s.heap heap

theorem discards_parked (parked : Parked s others) : Discards s others := by
  obtain ⟨heap, run, owned, kept⟩ := freeRootDir_parked parked
  by_cases none : s.root = 0
  · rw [freeRootDir, run_bind (show rootPointer s = .ok (s.root, s) from rfl), if_pos none] at run
    refine ⟨heap, ?_, owned, kept⟩
    rw [doIf, if_neg (not_not.mpr none)]
    exact run
  · refine ⟨heap, ?_, owned, kept⟩
    rw [doIf, if_pos none]
    exact run

/-- The directory as `save_root_folder` leaves it. The records behind the full
clusters lie in one piece at the last one, whether they fit it or not. -/
structure StoredDir (disk : ByteMemory) (cells : List Nat) (rs : List Record) : Prop where
  path : Path disk (0 :: cells)
  ends : Ends disk (0 :: cells)
  length : cells.length = dirClusters rs.length
  full : DirPrefix disk (0 :: cells) rs (lastChunk rs.length)
  last : ∀ j (h : lastChunk rs.length + j < rs.length),
    disk.readBytes (clusterAddr ((0 :: cells).getD (dirClusters rs.length - 1) 0) + j * fileRecordSize)
      fileRecordSize = (rs[lastChunk rs.length + j]).bytes

/-- The bytes of the last chunk are inside the window. -/
theorem lastChunk_inside {n : Nat} (word : n < 2 ^ 19) (small : c < clusterCount) :
    fsStartAddr < clusterAddr c ∧
      clusterAddr c + (n - lastChunk n) * fileRecordSize ≤ fsStartAddr + fsSize := by
  rw [clusterAddr_eq small]
  unfold clusterCount at small
  unfold fileRecordSize fsSize
  omega

/-- The two blocks of a folder of `n` files, from the calls of `heap_malloc` in a heap without one. -/
def FolderBlocks (heap : ByteMemory) (root files n : Nat) (heap' : ByteMemory) : Prop :=
  ∃ rooted counted grown, heapMalloc kernelHeap folderSize heap = some (root, rooted) ∧
    SameBeyond [(root, folderSize)] rooted counted ∧
      heapMalloc kernelHeap (n * fileRecordSize) counted = some (files, grown) ∧
        SameBeyond [(files, n * fileRecordSize), (root, folderSize)] grown heap'

/-- Where the new folder is, when the last one was freed before. -/
def LoadedFrom (s : Fs) (root files n : Nat) (heap : ByteMemory) : Prop :=
  ∃ discarded, doIf (s.root ≠ 0) freeRootDir s = .ok ((), { s with heap := discarded, root := 0 }) ∧
    FolderBlocks discarded root files n heap

theorem LoadedFrom.beyond {root n : Nat} {heap heap' : ByteMemory} (placed : LoadedFrom s root files n heap)
    (same : SameBeyond [(files, n * fileRecordSize)] heap heap') : LoadedFrom s root files n heap' := by
  obtain ⟨discarded, discard, rooted, counted, grown, foundRoot, sameCount, foundFiles, stores⟩ := placed
  refine ⟨discarded, discard, rooted, counted, grown, foundRoot, sameCount, foundFiles, ?_⟩
  exact sameBeyond_trans stores (sameBeyond_mono same (by simp))

/-- `load_root_folder` up to the records of the first cluster. -/
def loadFirst : Kernel (Nat × Nat) := do
  let old ← rootPointer
  doIf (old ≠ 0) freeRootDir
  let root ← kmalloc folderSize
  setRootPointer root
  memcpy root (clusterAddr rootFirstStartCluster) 4
  let fileCount ← rootFileCount
  let files ← kmalloc (fileCount * fileRecordSize % wordModulus)
  setRootFiles files
  memcpy files (clusterAddr rootFirstStartCluster + 4)
    (min maxFilesInFirstCluster fileCount * fileRecordSize)
  pure (fileCount, files)

/-- The rest of it. -/
def loadRest (fileCount files : Nat) : Kernel Unit := do
  if fileCount ≤ maxFilesInFirstCluster then do
    let currCluster ← fat rootFirstStartCluster
    let value ← fat currCluster
    ensure (value == eofCluster) missingEof
  else do
    let (currCluster, fileIndex) ←
      loadClustersLoop walkBound rootFirstStartCluster maxFilesInFirstCluster
    let currCluster ← fat currCluster
    memcpy (fileAt files fileIndex) (clusterAddr currCluster)
      ((fileCount + wordModulus - fileIndex) * fileRecordSize % wordModulus)
    let currCluster ← fat currCluster
    let value ← fat currCluster
    ensure (value == eofCluster) missingEof

theorem loadRootFolder_parts : loadRootFolder = loadFirst >>= fun p => loadRest p.1 p.2 := by
  simp only [loadRootFolder, loadFirst, loadRest, bind_assoc, pure_bind]

theorem loadFirst_run (discards : Discards s others) (word : rs.length < 2 ^ 27)
    (dir : DirPrefix s.disk (0 :: cells) rs (lastChunk rs.length)) :
    Completes loadFirst s fun p s' => ∃ heap root, s' = { s with heap := heap, root := root } ∧
      p.1 = rs.length ∧ Loading s' others p.2 rs (min maxFilesInFirstCluster rs.length) ∧
        Kept others s.heap heap ∧ LoadedFrom s root p.2 rs.length heap := by
  have needed := dirClusters_div word
  have chunk : maxFilesInOneCluster = 2 := by decide
  have firstChunk : maxFilesInFirstCluster = 2 := by decide
  have zero : 0 < clusterCount := by decide
  obtain ⟨discarded, discard, owned, kept⟩ := discards
  unfold loadFirst rootFirstStartCluster
  unfold Completes
  rw [meets_next (show rootPointer s = .ok (s.root, s) from rfl), meets_next discard]
  refine meets_call (kmalloc_found owned (by decide)) ?_
  rintro root _ ⟨heap, rfl, ownedRoot, keptRoot, foundRoot⟩
  rw [meets_next (show setRootPointer root { s with heap := heap, root := 0 } =
    .ok ((), { s with heap := heap, root := root }) from rfl)]
  obtain ⟨counted, copyCount, ownedCount, count, sameCount⟩ :=
    loadCount_run (s := { s with heap := heap, root := root }) ownedRoot dir.count
  have read := rootFileCount_counted (s := { s with heap := counted, root := root }) ownedCount count
  rw [meets_next copyCount, meets_next read]
  have size : rs.length * fileRecordSize % wordModulus = rs.length * fileRecordSize := by
    unfold fileRecordSize wordModulus
    omega
  rw [size]
  refine meets_call (kmalloc_found ownedCount
    (by unfold fileRecordSize blockHeaderSize wordModulus; omega)) ?_
  rintro files _ ⟨grown, rfl, ownedFiles, keptFiles, foundFiles⟩
  have root' := root_kept keptFiles
  obtain ⟨linked, link, loading, sameLink⟩ := setRootFiles_loading
    (s := { s with heap := grown, root := root }) ownedFiles (root'.1.trans count)
  rw [meets_next link]
  have place := cluster_inside (k := 4) (n := maxFilesInFirstCluster * fileRecordSize) zero (by decide)
  have atMost := Nat.mul_le_mul_right fileRecordSize (Nat.min_le_left maxFilesInFirstCluster rs.length)
  have before : min maxFilesInFirstCluster rs.length ≤ lastChunk rs.length := by
    rw [lastChunk, chunk, firstChunk, needed]
    split <;> omega
  obtain ⟨first, copyFirst, loadingFirst, sameFirst⟩ :=
    loadRecords_run (a := clusterAddr 0 + 4) 0 (min maxFilesInFirstCluster rs.length) loading
      (by omega) (by omega) (by omega)
      (dirPrefix_head dir (Nat.min_le_left _ _) (Nat.min_le_right _ _) before)
  have files0 : fileAt files 0 = files := by rw [fileAt, Nat.zero_mul, Nat.add_zero]
  rw [files0] at copyFirst
  rw [Nat.zero_add] at loadingFirst
  rw [meets_next copyFirst]
  have keptCount := kept_beyond ownedRoot sameCount
  have keptLink := kept_beyond (owned_perm ownedFiles (List.Perm.swap _ _ _)) sameLink
  have keptFirst := kept_tail (kept_beyond loading.owned sameFirst)
  refine meets_pure.mpr ⟨first, root, rfl, rfl, loadingFirst, ?_, discarded, discard, heap, counted, grown,
    foundRoot, sameCount, foundFiles, ?_⟩
  · exact kept_trans kept (kept_trans keptRoot (kept_trans keptCount (kept_trans (kept_tail keptFiles)
      (kept_trans (kept_tail keptLink) keptFirst))))
  · exact sameBeyond_trans (sameBeyond_mono sameLink (by simp)) (sameBeyond_mono sameFirst (by simp))

/-- The clusters of a stored directory from the first one to the marker. -/
theorem StoredDir.shape (stored : StoredDir s.disk cells rs) : ∃ rest marker, cells = rest ++ [marker] ∧
    rest.length + 1 = dirClusters rs.length ∧ fatValue s.disk marker = eofCluster := by
  obtain ⟨front, marker, shape, nonempty, eof⟩ := stored.ends
  cases front with
  | nil => exact absurd rfl nonempty
  | cons c rest =>
    rw [List.cons_append] at shape
    have same := (List.cons.inj shape).2
    have length := stored.length
    rw [same, List.length_append, List.length_singleton] at length
    exact ⟨rest, marker, same, length, eof⟩

/-- The loop over the full clusters stops at the last chunk. -/
theorem loadLoop_stored (stored : StoredDir s.disk cells rs) (many : maxFilesInFirstCluster < rs.length)
    (word : rs.length < 2 ^ 27) (walk : dirClusters rs.length ≤ walkBound)
    (loading : Loading s others files rs maxFilesInFirstCluster) :
    ∃ curr next marker heap, loadClustersLoop walkBound 0 maxFilesInFirstCluster s =
        .ok ((curr, lastChunk rs.length), { s with heap := heap }) ∧
      curr < clusterCount ∧ next < clusterCount ∧ marker < clusterCount ∧
      fatValue s.disk curr = next ∧ fatValue s.disk next = marker ∧
      fatValue s.disk marker = eofCluster ∧
      (∀ j (h : lastChunk rs.length + j < rs.length),
        s.disk.readBytes (clusterAddr next + j * fileRecordSize) fileRecordSize =
          (rs[lastChunk rs.length + j]).bytes) ∧
      Loading { s with heap := heap } others files rs (lastChunk rs.length) ∧
      SameBeyond [(files, rs.length * fileRecordSize)] s.heap heap := by
  have needed := dirClusters_div word
  have below := lastChunk_le word
  have chunk : maxFilesInOneCluster = 2 := by decide
  have firstChunk : maxFilesInFirstCluster = 2 := by decide
  obtain ⟨rest, marker, rfl, length, eof⟩ := stored.shape
  obtain ⟨path, _, _, dir, last⟩ := stored
  obtain ⟨next, middle, rfl⟩ : ∃ next middle, rest = next :: middle :=
    List.exists_cons_of_ne_nil (by
      rintro rfl
      rw [List.length_nil] at length
      omega)
  rw [List.length_cons] at length
  have index : lastChunk rs.length = maxFilesInFirstCluster + maxFilesInOneCluster * middle.length := by
    rw [lastChunk, if_neg (Nat.not_le.mpr many), chunk, firstChunk]
    omega
  rw [index] at dir last below ⊢
  obtain ⟨front', curr', next', heap, loop, shape', length', loadingLoop, same⟩ :=
    loadClustersLoop_run [] 0 next middle marker walkBound (by omega) maxFilesInFirstCluster
      (show 0 :: (next :: middle ++ [marker]) = [] ++ 0 :: next :: (middle ++ [marker]) from rfl) path dir
      eof (by rfl) below loading
  have links := path
  rw [shape'] at links
  obtain ⟨currSmall, nextSmall, link, _⟩ := path_link_at front' curr' next' [marker] links
  obtain ⟨_, markerSmall, link', _⟩ := path_link_at (front' ++ [curr']) next' marker []
    (by rw [List.append_assoc]; exact links)
  have reached : (0 :: (next :: middle ++ [marker])).getD (dirClusters rs.length - 1) 0 = next' := by
    have place : dirClusters rs.length - 1 = (front' ++ [curr']).length := by
      rw [List.length_append, length', List.length_nil, List.length_singleton]
      omega
    rw [shape', show front' ++ curr' :: next' :: [marker] =
      (front' ++ [curr']) ++ next' :: [marker] by simp, place,
      List.getD_append_right _ _ _ _ (Nat.le_refl _), Nat.sub_self]
    rfl
  rw [reached] at last
  exact ⟨curr', next', marker, heap, loop, currSmall, nextSmall, markerSmall, link, link', eof, last,
    loadingLoop, same⟩

/-- `load_root_folder` for a directory that was saved. -/
theorem loadStored_run (discards : Discards s others) (stored : StoredDir s.disk cells rs)
    (word : rs.length < 2 ^ 19) (walk : dirClusters rs.length ≤ walkBound) :
    Completes loadRootFolder s fun _ s' => ∃ heap root files,
      s' = { s with heap := heap, root := root } ∧ Loaded s' others files rs ∧
        Kept others s.heap heap ∧ LoadedFrom s root files rs.length heap := by
  have needed := dirClusters_div (show rs.length < 2 ^ 27 by omega)
  have below := lastChunk_le (show rs.length < 2 ^ 27 by omega)
  have firstChunk : maxFilesInFirstCluster = 2 := by decide
  have zero : 0 < clusterCount := by decide
  have accept : ∀ t : Fs, ensure (eofCluster == eofCluster) missingEof t = .ok ((), t) := fun _ => rfl
  rw [loadRootFolder_parts]
  apply meets_call (loadFirst_run discards (by omega) stored.full)
  rintro ⟨count, files⟩ _ ⟨first, root, rfl, counted, loading, kept, placed⟩
  dsimp only at counted loading
  subst counted
  unfold loadRest rootFirstStartCluster
  by_cases small : rs.length ≤ maxFilesInFirstCluster
  · obtain ⟨rest, marker, rfl, length, eof⟩ := stored.shape
    obtain rfl : rest = [] := List.eq_nil_of_length_eq_zero (by omega)
    obtain ⟨_, markerSmall, link, _⟩ := path_link_at [] 0 marker [] stored.path
    rw [if_pos small]
    refine (meets_next (fat_run _ zero)).mpr ?_
    simp only [link]
    refine (meets_next (fat_run _ markerSmall)).mpr ?_
    simp only [eof]
    exact meets_run (accept _) ⟨first, root, files, rfl, loading.loaded (by omega), kept,
      placed⟩
  · rw [if_neg small]
    rw [Nat.min_eq_left (by omega)] at loading
    obtain ⟨curr, next, marker, looped, loop, currSmall, nextSmall, markerSmall, link, link', eof, last,
      loadingLoop, sameLoop⟩ := loadLoop_stored (s := { s with heap := first, root := root }) stored
        (by omega) (by omega) walk loading
    have room := lastChunk_inside word nextSmall
    obtain ⟨tail, copyLast, loadingLast, sameLast⟩ :=
      loadRecords_run (a := clusterAddr next) (lastChunk rs.length) (rs.length - lastChunk rs.length)
        loadingLoop (by omega) room.1 room.2 fun j h => last j (by omega)
    have rest : (rs.length + wordModulus - lastChunk rs.length) * fileRecordSize % wordModulus =
        (rs.length - lastChunk rs.length) * fileRecordSize := by
      unfold fileRecordSize wordModulus
      omega
    refine (meets_next loop).mpr ?_
    dsimp only
    refine (meets_next (fat_run _ currSmall)).mpr ?_
    dsimp only at link link' eof
    simp only [link]
    rw [rest]
    refine (meets_next copyLast).mpr ?_
    refine (meets_next (fat_run _ nextSmall)).mpr ?_
    simp only [link']
    refine (meets_next (fat_run _ markerSmall)).mpr ?_
    simp only [eof]
    have same := sameBeyond_trans sameLoop sameLast
    exact meets_run (accept _) ⟨tail, root, files, rfl, loadingLast.loaded (by omega),
      kept_trans kept (kept_tail (kept_beyond loading.owned same)), placed.beyond same⟩

/-- A directory that fits has every record in a cluster of its chain. -/
theorem storedDir_fits (volume : Volume s.disk ((0 :: cells) :: chains) lost)
    (ends : Ends s.disk (0 :: cells)) (length : cells.length = dirClusters rs.length)
    (dir : DirPrefix s.disk (0 :: cells) rs rs.length) (fits : Fits rs.length) :
    StoredDir s.disk cells rs := by
  have chunk : maxFilesInOneCluster = 2 := by decide
  have firstChunk : maxFilesInFirstCluster = 2 := by decide
  have few := (fits_iff _).mp fits
  have needed := dirClusters_eq fits
  have below := lastChunk_le (show rs.length < 2 ^ 27 by omega)
  refine ⟨volume_path volume, ends, length,
    ⟨dir.head, dir.count, fun i small before => dir.stored i small small⟩, fun j h => ?_⟩
  have many : ¬ rs.length ≤ maxFilesInFirstCluster := fun small => by
    rw [lastChunk, if_pos small] at h
    omega
  have index : lastChunk rs.length = maxFilesInOneCluster * (dirClusters rs.length - 1) := by
    rw [lastChunk, if_neg many]
  have inside : dirClusters rs.length - 1 < (0 :: cells).length := by
    rw [List.length_cons]
    omega
  have split : 0 :: cells = (0 :: cells).take (dirClusters rs.length - 1) ++
      (0 :: cells)[dirClusters rs.length - 1] :: (0 :: cells).drop (dirClusters rs.length - 1 + 1) := by
    rw [← List.drop_eq_getElem_cons inside, List.take_append_drop]
  have front : ((0 :: cells).take (dirClusters rs.length - 1)).length = dirClusters rs.length - 1 := by
    rw [List.length_take]
    omega
  rw [List.getD_eq_getElem _ _ inside]
  refine dirPrefix_chunk (m := rs.length - lastChunk rs.length) _ (split ▸ dir) (by rw [front, index])
    (fun none => ?_) (by rw [index, chunk]; omega) (by omega) (by omega) j (by omega)
  rw [none, List.length_nil] at front
  omega

theorem loadRootFolder_run (parked : Parked s others)
    (volume : Volume s.disk ((0 :: cells) :: chains) lost) (ends : Ends s.disk (0 :: cells))
    (length : cells.length = dirClusters rs.length) (dir : DirPrefix s.disk (0 :: cells) rs rs.length)
    (fits : Fits rs.length) :
    Completes loadRootFolder s fun _ s' => ∃ heap root files,
      s' = { s with heap := heap, root := root } ∧ Loaded s' others files rs ∧
        Kept others s.heap heap ∧ LoadedFrom s root files rs.length heap := by
  have few := (fits_iff _).mp fits
  have needed := dirClusters_eq fits
  exact loadStored_run (discards_parked parked) (storedDir_fits volume ends length dir fits) (by omega)
    (by unfold walkBound; omega)

end

end Delos.Invariants
