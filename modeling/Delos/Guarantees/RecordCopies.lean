import Mathlib.Tactic.IntervalCases
import Delos.Invariants.DirectoryLoading

/-!
# The copies of directory records

`save_root_folder` counts the clusters of the directory in bytes, but stores whole
records in each. The two functions that copy records are run with a `memcpy` that
refuses to leave a cluster: nothing changes for at most six files and for eight. For
every other number of files the clusters do not suffice and the last chunk is too long.
-/
namespace Delos.Guarantees
open Lib Source Invariants

/-! ## Another `memcpy` -/

section
variable (copy : Nat → Nat → Nat → Kernel Unit)

def saveClustersLoopWith : Nat → Nat → Nat → Kernel (Nat × Nat)
  | 0, prevCluster, fileIndex => pure (prevCluster, fileIndex)
  | left + 1, prevCluster, fileIndex => do
    let currCluster ← getFreeCluster
    setFat prevCluster currCluster
    let files ← rootFiles
    copy (clusterAddr currCluster) (fileAt files fileIndex) (maxFilesInOneCluster * fileRecordSize)
    saveClustersLoopWith left currCluster (fileIndex + maxFilesInOneCluster)

/-- `save_root_folder` -/
def saveRootFolderWith : Kernel Unit := do
  let fileCount ← rootFileCount
  let clustersNeeded := getClusterCountNeeded (rootFolderSize fileCount)
  let enough ← existsNFreeClusters clustersNeeded
  ensure enough "ERR: there is not enough space to store the root folder"
  let root ← rootPointer
  copy (clusterAddr rootFirstStartCluster) root 4
  let files ← rootFiles
  copy (clusterAddr rootFirstStartCluster + 4) files
    (min maxFilesInFirstCluster fileCount * fileRecordSize)
  if fileCount ≤ maxFilesInFirstCluster then do
    let currCluster ← getFreeCluster
    setFat rootFirstStartCluster currCluster
    setFat currCluster eofCluster
  else do
    let (prevCluster, fileIndex) ← saveClustersLoopWith copy
      ((clustersNeeded + wordModulus - 2) % wordModulus) rootFirstStartCluster maxFilesInFirstCluster
    let currCluster ← getFreeCluster
    setFat prevCluster currCluster
    copy (clusterAddr currCluster) (fileAt files fileIndex)
      ((fileCount + wordModulus - fileIndex) * fileRecordSize % wordModulus)
    let eof ← getFreeCluster
    setFat currCluster eof
    setFat eof eofCluster

def loadClustersLoopWith : Nat → Nat → Nat → Kernel (Nat × Nat)
  | 0, _, _ => throw .endless
  | bound + 1, currCluster, fileIndex => do
    let first ← fat currCluster
    let second ← fat first
    let third ← fat second
    if third ≠ eofCluster then do
      let files ← rootFiles
      copy (fileAt files fileIndex) (clusterAddr first) (maxFilesInOneCluster * fileRecordSize)
      loadClustersLoopWith bound first (fileIndex + maxFilesInOneCluster)
    else pure (currCluster, fileIndex)

/-- The part of `load_root_folder` behind the first cluster. -/
def loadRestWith (fileCount files : Nat) : Kernel Unit := do
  if fileCount ≤ maxFilesInFirstCluster then do
    let currCluster ← fat rootFirstStartCluster
    let value ← fat currCluster
    ensure (value == eofCluster) missingEof
  else do
    let (currCluster, fileIndex) ←
      loadClustersLoopWith copy walkBound rootFirstStartCluster maxFilesInFirstCluster
    let currCluster ← fat currCluster
    copy (fileAt files fileIndex) (clusterAddr currCluster)
      ((fileCount + wordModulus - fileIndex) * fileRecordSize % wordModulus)
    let currCluster ← fat currCluster
    let value ← fat currCluster
    ensure (value == eofCluster) missingEof

/-- `load_root_folder` -/
def loadRootFolderWith : Kernel Unit := do
  let old ← rootPointer
  doIf (old ≠ 0) freeRootDir
  let root ← kmalloc folderSize
  setRootPointer root
  copy root (clusterAddr rootFirstStartCluster) 4
  let fileCount ← rootFileCount
  let files ← kmalloc (fileCount * fileRecordSize % wordModulus)
  setRootFiles files
  copy files (clusterAddr rootFirstStartCluster + 4)
    (min maxFilesInFirstCluster fileCount * fileRecordSize)
  loadRestWith copy fileCount files

theorem saveClustersLoopWith_memcpy (left p first : Nat) :
    saveClustersLoopWith memcpy left p first = saveClustersLoop left p first := by
  induction left generalizing p first with
  | zero => rfl
  | succ left ih => simp only [saveClustersLoopWith, saveClustersLoop, ih]

theorem loadClustersLoopWith_memcpy (bound p first : Nat) :
    loadClustersLoopWith memcpy bound p first = loadClustersLoop bound p first := by
  induction bound generalizing p first with
  | zero => rfl
  | succ bound ih => simp only [loadClustersLoopWith, loadClustersLoop, ih]

/-- With `memcpy` itself these are the functions of vfs.cpp. -/
theorem with_memcpy :
    saveRootFolderWith memcpy = saveRootFolder ∧ loadRootFolderWith memcpy = loadRootFolder := by
  constructor
  · simp only [saveRootFolderWith, saveRootFolder, saveClustersLoopWith_memcpy]
  · simp only [loadRootFolderWith, loadRestWith, loadRootFolder, loadClustersLoopWith_memcpy]

end

/-- The offset of an address inside its cluster. -/
def clusterOffset (a : Nat) : Nat := (a + wordModulus - clusterStartAddr) % clusterSize

/-- `memcpy` to a cluster that may not leave it. -/
def copyToCluster (dest src size : Nat) : Kernel Unit :=
  if clusterOffset dest + size ≤ clusterSize then memcpy dest src size else throw .wildAccess

/-- `memcpy` from a cluster that may not leave it. -/
def copyFromCluster (dest src size : Nat) : Kernel Unit :=
  if clusterOffset src + size ≤ clusterSize then memcpy dest src size else throw .wildAccess

/-- The clusters that `n` records need when only whole records are stored in each. -/
def packedClusters (n : Nat) : Nat :=
  1 + (n - maxFilesInFirstCluster + maxFilesInOneCluster - 1) / maxFilesInOneCluster

/-- `root->file_count - file_index` behind the loop, in 32 bits. -/
def lastRecords (n : Nat) : Nat :=
  let loops := (dirClusters n + wordModulus - 2) % wordModulus
  let fileIndex := (maxFilesInFirstCluster + maxFilesInOneCluster * loops) % wordModulus
  if n ≤ maxFilesInFirstCluster then 0 else (n + wordModulus - fileIndex) % wordModulus

/-- No copy of `n` records leaves its cluster. -/
structure CopiesFit (n : Nat) : Prop where
  clusters : packedClusters n ≤ dirClusters n
  chunk : lastRecords n ≤ maxFilesInOneCluster
  save : ∀ s, rootFileCount s = .ok (n, s) → saveRootFolderWith copyToCluster s = saveRootFolder s
  load : ∀ s others cells rs, rs.length = n → Discards s others → StoredDir s.disk cells rs →
    loadRootFolderWith copyFromCluster s = loadRootFolder s

section
variable {n k left first p size src dest c : Nat} {s : Fs}

theorem clusterOffset_addr (inside : k < clusterSize) : clusterOffset (clusterAddr c + k) = k := by
  unfold clusterSize at inside
  unfold clusterOffset clusterAddr clusterStartAddr fsStartAddr fatEntrySize clusterCount clusterSize
    wordModulus
  omega

theorem copyToCluster_fits (inside : k < clusterSize) (fits : k + size ≤ clusterSize) :
    copyToCluster (clusterAddr c + k) src size = memcpy (clusterAddr c + k) src size := by
  rw [copyToCluster, clusterOffset_addr inside, if_pos fits]

theorem copyFromCluster_fits (inside : k < clusterSize) (fits : k + size ≤ clusterSize) :
    copyFromCluster dest (clusterAddr c + k) size = memcpy dest (clusterAddr c + k) size := by
  rw [copyFromCluster, clusterOffset_addr inside, if_pos fits]

theorem firstRecords_fit (n : Nat) :
    4 + min maxFilesInFirstCluster n * fileRecordSize ≤ clusterSize := by
  have few := Nat.mul_le_mul_right fileRecordSize (Nat.min_le_left maxFilesInFirstCluster n)
  have room : 4 + maxFilesInFirstCluster * fileRecordSize ≤ clusterSize := by decide
  omega

theorem saveClustersLoop_fits (left p first : Nat) :
    saveClustersLoopWith copyToCluster left p first = saveClustersLoop left p first := by
  induction left generalizing p first with
  | zero => rfl
  | succ left ih =>
    have whole : ∀ c src, copyToCluster (clusterAddr c) src (maxFilesInOneCluster * fileRecordSize) =
        memcpy (clusterAddr c) src (maxFilesInOneCluster * fileRecordSize) := fun c src =>
      copyToCluster_fits (k := 0) (by decide) (by decide)
    simp only [saveClustersLoopWith, saveClustersLoop, ih, whole]

theorem loadClustersLoop_fits (bound p first : Nat) :
    loadClustersLoopWith copyFromCluster bound p first = loadClustersLoop bound p first := by
  induction bound generalizing p first with
  | zero => rfl
  | succ bound ih =>
    have whole : ∀ c dest, copyFromCluster dest (clusterAddr c) (maxFilesInOneCluster * fileRecordSize) =
        memcpy dest (clusterAddr c) (maxFilesInOneCluster * fileRecordSize) := fun c dest =>
      copyFromCluster_fits (k := 0) (by decide) (by decide)
    simp only [loadClustersLoopWith, loadClustersLoop, ih, whole]

/-- Every round stores two records. -/
theorem saveClustersLoop_index (left p first : Nat) : Meets (fun _ => True) (saveClustersLoop left p first) s
    fun result _ => result.2 = first + maxFilesInOneCluster * left := by
  induction left generalizing s p first with
  | zero => exact meets_pure.mpr rfl
  | succ left ih =>
    unfold saveClustersLoop
    apply meets_call meets_any
    intro currCluster s1 _
    apply meets_call meets_any
    intro _ s2 _
    apply meets_call meets_any
    intro files s3 _
    apply meets_call meets_any
    intro _ s4 _
    apply meets_mono (ih currCluster (first + maxFilesInOneCluster))
    intro result s5 index
    rw [index, Nat.mul_succ]
    omega

/-- The last chunk of the directories that fit. -/
theorem lastSize_fits (few : n ≤ 6 ∨ n = 8) (many : maxFilesInFirstCluster < n) :
    maxFilesInFirstCluster + maxFilesInOneCluster * ((dirClusters n + wordModulus - 2) % wordModulus) =
        lastChunk n ∧
      (n + wordModulus - lastChunk n) * fileRecordSize % wordModulus ≤ clusterSize := by
  have firstChunk : maxFilesInFirstCluster = 2 := by decide
  rw [firstChunk] at many
  rcases few with small | rfl
  · interval_cases n <;> decide
  · decide

theorem save_fits (few : n ≤ 6 ∨ n = 8) (count : rootFileCount s = .ok (n, s)) :
    saveRootFolderWith copyToCluster s = saveRootFolder s := by
  have zero : clusterAddr rootFirstStartCluster = clusterAddr 0 + 0 := rfl
  unfold saveRootFolderWith saveRootFolder
  rw [run_bind count, run_bind count]
  dsimp only
  rw [show getClusterCountNeeded (rootFolderSize n) = dirClusters n from rfl]
  apply bind_agree
  intro enough s1 _
  apply bind_agree
  intro _ s2 _
  apply bind_agree
  intro root s3 _
  rw [zero, copyToCluster_fits (by decide) (by decide)]
  apply bind_agree
  intro _ s4 _
  apply bind_agree
  intro files s5 _
  rw [copyToCluster_fits (by decide) (firstRecords_fit n)]
  apply bind_agree
  intro _ s6 _
  by_cases small : n ≤ maxFilesInFirstCluster
  · rw [if_pos small, if_pos small]
  · rw [if_neg small, if_neg small, saveClustersLoop_fits]
    apply bind_agree
    intro result s7 run
    have index := meets_result (saveClustersLoop_index _ _ _) run
    obtain ⟨prevCluster, fileIndex⟩ := result
    dsimp only at index ⊢
    apply bind_agree
    intro currCluster s8 _
    apply bind_agree
    intro _ s9 _
    have last : copyToCluster (clusterAddr currCluster + 0) (fileAt files fileIndex)
        ((n + wordModulus - fileIndex) * fileRecordSize % wordModulus) =
          memcpy (clusterAddr currCluster + 0) (fileAt files fileIndex)
            ((n + wordModulus - fileIndex) * fileRecordSize % wordModulus) := by
      apply copyToCluster_fits (by decide)
      have size := lastSize_fits few (Nat.not_le.mp small)
      rw [Nat.zero_add, index, size.1]
      exact size.2
    rw [Nat.add_zero] at last
    rw [last]

theorem loadRootFolderWith_parts :
    loadRootFolderWith copyFromCluster = loadFirst >>= fun p => loadRestWith copyFromCluster p.1 p.2 := by
  have count : ∀ dest, copyFromCluster dest (clusterAddr rootFirstStartCluster) 4 =
      memcpy dest (clusterAddr rootFirstStartCluster) 4 := fun dest =>
    copyFromCluster_fits (k := 0) (by decide) (by decide)
  have first : ∀ dest n, copyFromCluster dest (clusterAddr rootFirstStartCluster + 4)
      (min maxFilesInFirstCluster n * fileRecordSize) =
        memcpy dest (clusterAddr rootFirstStartCluster + 4)
          (min maxFilesInFirstCluster n * fileRecordSize) := fun dest n =>
    copyFromCluster_fits (by decide) (firstRecords_fit n)
  simp only [loadRootFolderWith, loadFirst, bind_assoc, pure_bind, count, first]

theorem load_fits {others : List (Nat × Nat)} {cells : List Nat} {rs : List Record}
    (few : rs.length ≤ 6 ∨ rs.length = 8) (discards : Discards s others)
    (stored : StoredDir s.disk cells rs) : loadRootFolderWith copyFromCluster s = loadRootFolder s := by
  have word : rs.length < 2 ^ 27 := by omega
  have needed := dirClusters_div word
  have firstChunk : maxFilesInFirstCluster = 2 := by decide
  rw [loadRootFolderWith_parts, loadRootFolder_parts]
  apply bind_agree
  intro p s1 run
  obtain ⟨heap, root, rfl, count, loading, _⟩ :=
    completes_result (loadFirst_run discards word stored.full) run
  unfold loadRestWith loadRest
  rw [count]
  by_cases small : rs.length ≤ maxFilesInFirstCluster
  · rw [if_pos small, if_pos small]
  · rw [if_neg small, if_neg small, loadClustersLoop_fits]
    rw [Nat.min_eq_left (by omega)] at loading
    obtain ⟨curr, next, marker, looped, loop, _⟩ :=
      loadLoop_stored (s := { s with heap := heap, root := root }) stored (by omega) word
        (by unfold walkBound; omega) loading
    have loop : loadClustersLoop walkBound rootFirstStartCluster maxFilesInFirstCluster
        { s with heap := heap, root := root } = _ := loop
    rw [run_bind loop, run_bind loop]
    dsimp only
    apply bind_agree
    intro currCluster s2 _
    have last : copyFromCluster (fileAt p.2 (lastChunk rs.length)) (clusterAddr currCluster + 0)
        ((rs.length + wordModulus - lastChunk rs.length) * fileRecordSize % wordModulus) =
          memcpy (fileAt p.2 (lastChunk rs.length)) (clusterAddr currCluster + 0)
            ((rs.length + wordModulus - lastChunk rs.length) * fileRecordSize % wordModulus) := by
      apply copyFromCluster_fits (by decide)
      rw [Nat.zero_add]
      exact (lastSize_fits few (Nat.not_le.mp small)).2
    rw [Nat.add_zero] at last
    rw [last]

end

/-- The copies stay in their clusters exactly for these numbers of files. -/
theorem records_fit (n : Nat) : CopiesFit n ↔ n ≤ 6 ∨ n = 8 := by
  have chunk : maxFilesInOneCluster = 2 := by decide
  have firstChunk : maxFilesInFirstCluster = 2 := by decide
  constructor
  · intro fit
    have packed := fit.clusters
    unfold packedClusters at packed
    rw [chunk, firstChunk] at packed
    apply (fits_iff n).mp
    rw [Fits, chunk]
    omega
  · intro few
    constructor
    · rcases few with small | rfl
      · interval_cases n <;> decide
      · decide
    · rcases few with small | rfl
      · interval_cases n <;> decide
      · decide
    · intro s count
      exact save_fits few count
    · rintro s others cells rs rfl discards stored
      exact load_fits few discards stored

/-- Seven records need four clusters, three are counted. -/
theorem records_fit_seven : packedClusters 7 = 4 ∧ dirClusters 7 = 3 ∧ lastRecords 7 = 3 ∧
    ¬ CopiesFit 7 := by
  refine ⟨by decide, by decide, by decide, fun fit => ?_⟩
  exact absurd fit.clusters (by decide)

end Delos.Guarantees
