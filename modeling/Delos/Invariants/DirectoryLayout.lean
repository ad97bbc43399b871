import Mathlib.Tactic.IntervalCases
import Delos.Invariants.FatOperations
import Delos.Invariants.RootFolder

/-!
# The directory on disk

The first cluster of the directory holds the number of files and two records,
every further cluster two records. The writer of vfs.cpp takes the number of
clusters from the size in bytes, so its last chunk fits only for the numbers of
files in `Fits`; for these a directory that was saved is loaded back unchanged.
-/
namespace Delos.Invariants
open Lib Source

/-- The number of clusters `save_root_folder` asks for. -/
def dirClusters (fileCount : Nat) : Nat := getClusterCountNeeded (rootFolderSize fileCount)

/-- The records behind the first clusters fit the last one. -/
def Fits (fileCount : Nat) : Prop := fileCount ≤ maxFilesInOneCluster * dirClusters fileCount

theorem dirClusters_div {n : Nat} (word : n < 2 ^ 27) : dirClusters n = (n * 25 + 67) / 64 := by
  unfold dirClusters getClusterCountNeeded rootFolderSize clusterSize fileRecordSize
  rw [Nat.mod_eq_of_lt (by unfold wordModulus; omega)]
  split <;> omega

theorem fits_iff (n : Nat) : Fits n ↔ n ≤ 6 ∨ n = 8 := by
  have chunk : maxFilesInOneCluster = 2 := by decide
  unfold Fits
  rw [chunk]
  constructor
  · intro fits
    have bound : dirClusters n ≤ 2 ^ 26 := by
      unfold dirClusters getClusterCountNeeded rootFolderSize clusterSize wordModulus
      split <;> omega
    rcases Nat.lt_or_ge n (2 ^ 27) with word | large
    · rw [dirClusters_div word] at fits
      have few : n ≤ 9 := by omega
      interval_cases n <;> omega
    · have exact_count : n = 2 ^ 27 := by omega
      rw [exact_count] at fits
      exact absurd fits (by decide)
  · rintro (small | rfl)
    · interval_cases n <;> decide
    · decide

instance (n : Nat) : Decidable (Fits n) := Nat.decLe _ _

/-- For a directory that fits, every cluster but the last is full. -/
theorem dirClusters_eq {n : Nat} (fits : Fits n) : dirClusters n = max 1 ((n + 1) / 2) := by
  rcases (fits_iff n).mp fits with small | rfl
  · interval_cases n <;> decide
  · decide

/-- `file_index` when only the last chunk of records is left. -/
def lastChunk (fileCount : Nat) : Nat :=
  if fileCount ≤ maxFilesInFirstCluster then fileCount
  else maxFilesInOneCluster * (dirClusters fileCount - 1)

theorem lastChunk_le {n : Nat} (word : n < 2 ^ 27) : lastChunk n ≤ n := by
  have chunk : maxFilesInOneCluster = 2 := by decide
  have few : maxFilesInFirstCluster = 2 := by decide
  unfold lastChunk
  rw [dirClusters_div word, chunk, few]
  split <;> omega

def recordOffset (i : Nat) : Nat :=
  (if i < maxFilesInFirstCluster then 4 else 0) + i % maxFilesInOneCluster * fileRecordSize

/-- The bytes of the record at a position of the directory. -/
def recordBytes (disk : ByteMemory) (cells : List Nat) (i : Nat) : List UInt8 :=
  disk.readBytes (clusterAddr (cells.getD (i / maxFilesInOneCluster) 0) + recordOffset i) fileRecordSize

/-- The first `k` records of the directory are stored in the clusters. -/
structure DirPrefix (disk : ByteMemory) (cells : List Nat) (rs : List Record) (k : Nat) : Prop where
  head : cells.head? = some 0
  count : disk.read32 (clusterAddr 0) = rs.length
  stored : ∀ i (h : i < rs.length), i < k → recordBytes disk cells i = rs[i].bytes

section
variable {disk disk' : ByteMemory} {cells chains : List Nat} {rs : List Record} {i k c m : Nat}

theorem recordOffset_inside (i : Nat) : recordOffset i + fileRecordSize ≤ clusterSize := by
  unfold recordOffset maxFilesInFirstCluster maxFilesInOneCluster clusterSize fileRecordSize
  split <;> omega

theorem recordBytes_congr
    (same : clusterBytes disk' (cells.getD (i / maxFilesInOneCluster) 0) =
      clusterBytes disk (cells.getD (i / maxFilesInOneCluster) 0)) :
    recordBytes disk' cells i = recordBytes disk cells i := by
  rw [recordBytes, recordBytes, readCluster_part _ _ (recordOffset_inside i),
    readCluster_part _ _ (recordOffset_inside i), same]

theorem count_congr (same : clusterBytes disk' 0 = clusterBytes disk 0) :
    disk'.read32 (clusterAddr 0) =
      disk.read32 (clusterAddr 0) := by
  have part := readCluster_part disk 0 (k := 0) (n := 4) (by decide)
  have part' := readCluster_part disk' 0 (k := 0) (n := 4) (by decide)
  rw [same] at part'
  exact congrArg ByteMemory.leValue (part'.trans part.symm)

theorem dirPrefix_congr (dir : DirPrefix disk cells rs k) (enough : k ≤ maxFilesInOneCluster * cells.length)
    (same : ∀ c ∈ cells, clusterBytes disk' c = clusterBytes disk c) :
    DirPrefix disk' cells rs k := by
  refine ⟨dir.head, ?_, fun i small before => ?_⟩
  · rw [← dir.count]
    exact count_congr (same 0 (List.mem_of_mem_head? dir.head))
  · rw [← dir.stored i small before]
    have place : i / maxFilesInOneCluster < cells.length := by
      unfold maxFilesInOneCluster clusterSize fileRecordSize at *
      omega
    refine recordBytes_congr (same _ ?_)
    rw [List.getD_eq_getElem _ _ place]
    exact List.getElem_mem place

/-- More clusters behind the stored ones change nothing. -/
theorem dirPrefix_append (dir : DirPrefix disk cells rs k)
    (enough : k ≤ maxFilesInOneCluster * cells.length) (more : List Nat) :
    DirPrefix disk (cells ++ more) rs k := by
  refine ⟨?_, dir.count, fun i small before => ?_⟩
  · rw [List.head?_append, dir.head]
    rfl
  · rw [← dir.stored i small before, recordBytes, recordBytes]
    have place : i / maxFilesInOneCluster < cells.length := by
      unfold maxFilesInOneCluster clusterSize fileRecordSize at *
      omega
    rw [List.getD_append _ _ _ _ place]

end

/-! ## Copying records between the heap and the clusters -/

section
variable {s : Fs} {files first m c k : Nat} {rs : List Record}

theorem recordsAt_range {heap : ByteMemory} (records : RecordsAt heap files rs)
    (inside : first + m ≤ rs.length) :
    kernelHeap.addr ≤ fileAt files first ∧
      fileAt files first + m * fileRecordSize ≤ fsStartAddr := by
  have low := records.low
  have high := records.high
  have last : (first + m) * fileRecordSize ≤ rs.length * fileRecordSize :=
    Nat.mul_le_mul_right _ inside
  rw [Nat.add_mul] at last
  unfold fileAt
  omega

/-- `memcpy` of records to the disk. -/
theorem copyRecords_at {a : Nat} (first m : Nat) (records : RecordsAt s.heap files rs)
    (inside : first + m ≤ rs.length) (behind : fsStartAddr < a)
    (high : a + m * fileRecordSize ≤ fsStartAddr + fsSize) (mapped : s.disk.origin ≤ fsStartAddr) :
    ∃ bytes, memcpy a (fileAt files first) (m * fileRecordSize) s =
        .ok ((), { s with disk := s.disk.writeBytes a bytes }) ∧
      bytes.length = m * fileRecordSize ∧
      ∀ j (h : j < m), (s.disk.writeBytes a bytes).readBytes (a + j * fileRecordSize) fileRecordSize =
        (rs[first + j]).bytes := by
  have range := recordsAt_range records inside
  have low : 0 < kernelHeap.addr := by decide
  have read := readHeap_run (s := s) range.1 range.2
  have size := ByteMemory.length_readBytes (m * fileRecordSize) s.heap (fileAt files first)
  let data := s.heap.readBytes (fileAt files first) (m * fileRecordSize)
  have write : writeMemory a data s = .ok ((), { s with disk := s.disk.writeBytes a data }) :=
    writeMemory_disk (by omega) (by rwa [size]) (by omega)
  refine ⟨s.heap.readBytes (fileAt files first) (m * fileRecordSize), ?_, size, fun j h => ?_⟩
  · unfold memcpy
    rw [if_neg (by omega)]
    show (readMemory (fileAt files first) (m * fileRecordSize) s >>= _) = _
    rw [read]
    exact write
  · have step : (j + 1) * fileRecordSize ≤ m * fileRecordSize := Nat.mul_le_mul_right _ h
    rw [Nat.add_mul, Nat.one_mul] at step
    have back := ByteMemory.readBytes_writeBytes_same
      (s.heap.readBytes (fileAt files first) (m * fileRecordSize)) s.disk a (by omega)
    rw [size] at back
    rw [ByteMemory.readBytes_part _ _ step, back, ← ByteMemory.readBytes_part _ _ step]
    rw [← records.holds (first + j) (by omega), fileAt, fileAt, Nat.add_mul, Nat.add_assoc]

/-- The same into a cluster. -/
theorem copyRecords_run (first m : Nat) (records : RecordsAt s.heap files rs) (inside : first + m ≤ rs.length)
    (small : c < clusterCount) (fits : k + m * fileRecordSize ≤ clusterSize)
    (mapped : s.disk.origin ≤ fsStartAddr) :
    ∃ bytes, memcpy (clusterAddr c + k) (fileAt files first) (m * fileRecordSize) s =
        .ok ((), { s with disk := s.disk.writeBytes (clusterAddr c + k) bytes }) ∧
      bytes.length = m * fileRecordSize ∧
      ∀ j (h : j < m), (s.disk.writeBytes (clusterAddr c + k) bytes).readBytes
        (clusterAddr c + k + j * fileRecordSize) fileRecordSize = (rs[first + j]).bytes := by
  have place := cluster_inside small fits
  exact copyRecords_at first m records inside (by omega) place.2 mapped

end

/-! ## Saving -/

section
variable {s : Fs} {files first m p : Nat} {rs : List Record} {front lost : List Nat}
  {chains : List (List Nat)}

/-- The place of a record behind the full clusters. -/
theorem recordPlace {cells : List Nat} {i j : Nat} (full : first = maxFilesInOneCluster * cells.length)
    (some : cells ≠ []) (few : j < maxFilesInOneCluster) :
    (cells ++ [i]).getD ((first + j) / maxFilesInOneCluster) 0 = i ∧
      recordOffset (first + j) = j * fileRecordSize := by
  have chunk : maxFilesInOneCluster = 2 := by decide
  have length : 0 < cells.length := List.length_pos_of_ne_nil some
  have place : (first + j) / maxFilesInOneCluster = cells.length := by
    rw [chunk] at full few ⊢
    omega
  constructor
  · rw [place, List.getD_append_right _ _ _ _ (Nat.le_refl _), Nat.sub_self]
    rfl
  · have behind : ¬ first + j < maxFilesInFirstCluster := by
      have front : maxFilesInFirstCluster = 2 := by decide
      rw [chunk] at full
      omega
    have rest : (first + j) % maxFilesInOneCluster = j := by
      rw [chunk] at full few ⊢
      omega
    rw [recordOffset, if_neg behind, rest, Nat.zero_add]

/-- One more cluster of the directory: taken, linked and filled. -/
theorem saveChunk_run (records : RecordsAt s.heap files rs) (dir : DirPrefix s.disk (front ++ [p]) rs first)
    (full : first = maxFilesInOneCluster * (front ++ [p]).length) (inside : first + m ≤ rs.length)
    (few : m ≤ maxFilesInOneCluster) (volume : Volume s.disk ((front ++ [p]) :: chains) lost)
    (room : 0 < lowFree s.disk) :
    ∃ i linked disk, getFreeCluster s =
        .ok (i, { s with disk := setFatValue s.disk i takenCluster }) ∧
      setFat p i { s with disk := setFatValue s.disk i takenCluster } =
        .ok ((), { s with disk := linked }) ∧
      memcpy (clusterAddr i) (fileAt files first) (m * fileRecordSize) { s with disk := linked } =
        .ok ((), { s with disk := disk }) ∧
      Volume disk ((front ++ [p] ++ [i]) :: chains) lost ∧
      DirPrefix disk (front ++ [p] ++ [i]) rs (first + m) ∧ SameOn chains.flatten s.disk disk ∧
      lowFree disk + 1 = lowFree s.disk := by
  obtain ⟨i, linked, take, link, volume', same, bytes, count⟩ := extendChain_run front p volume room
  have last : i ∈ front ++ [p] ++ [i] := List.mem_append_right _ List.mem_cons_self
  have small := volume_count volume' List.mem_cons_self last
  have fits : 0 + m * fileRecordSize ≤ clusterSize := by
    have chunk : maxFilesInOneCluster * fileRecordSize ≤ clusterSize := by decide
    have := Nat.mul_le_mul_right fileRecordSize few
    omega
  obtain ⟨data, copy, size, placed⟩ := copyRecords_run (s := { s with disk := linked }) first m records inside
    small fits volume'.mapped
  have stored : Volume (linked.writeBytes (clusterAddr i + 0) data) ((front ++ [p] ++ [i]) :: chains)
      lost := volume_store volume' small (by rwa [size])
  have fresh : ∀ c ∈ front ++ [p], c ≠ i := by
    have single := ledger_head_nodup volume'.ledger
    rintro c member rfl
    exact List.disjoint_of_nodup_append single member List.mem_cons_self
  have oldBytes : ∀ c ∈ front ++ [p], clusterBytes (linked.writeBytes (clusterAddr i + 0) data) c =
      clusterBytes s.disk c := fun c member => by
    have cluster := volume_count volume List.mem_cons_self member
    rw [clusterBytes_writeCluster_other small (by rwa [size]) cluster (fresh c member)]
    exact bytes c cluster
  have kept := dirPrefix_append (dirPrefix_congr dir (Nat.le_of_eq full) oldBytes)
    (Nat.le_of_eq full) [i]
  refine ⟨i, linked, linked.writeBytes (clusterAddr i + 0) data, take, link, copy, stored,
    ⟨kept.head, kept.count, fun j h before => ?_⟩,
    sameOn_trans same (sameOn_store volume' last (by rwa [size])), ?_⟩
  · rcases Nat.lt_or_ge j first with old | new
    · exact kept.stored j h old
    · obtain ⟨k, rfl⟩ : ∃ k, j = first + k := ⟨j - first, by omega⟩
      obtain ⟨place, offset⟩ := recordPlace (i := i) (j := k) full (by simp) (by omega)
      rw [recordBytes, place, offset]
      exact placed k (by omega)
  · have before := lowFree_eq volume'
    have after := lowFree_eq stored
    omega

theorem saveClustersLoop_run (left first : Nat) (front : List Nat) (p : Nat) (folder : Folder s files rs)
    (records : RecordsAt s.heap files rs) (dir : DirPrefix s.disk (front ++ [p]) rs first)
    (full : first = maxFilesInOneCluster * (front ++ [p]).length)
    (inside : first + maxFilesInOneCluster * left ≤ rs.length)
    (volume : Volume s.disk ((front ++ [p]) :: chains) lost) (room : left ≤ lowFree s.disk) :
    ∃ front' p' disk, saveClustersLoop left p first s =
        .ok ((p', first + maxFilesInOneCluster * left), { s with disk := disk }) ∧
      (front' ++ [p']).length = (front ++ [p]).length + left ∧
      Volume disk ((front' ++ [p']) :: chains) lost ∧
      DirPrefix disk (front' ++ [p']) rs (first + maxFilesInOneCluster * left) ∧
      SameOn chains.flatten s.disk disk ∧ lowFree disk + left = lowFree s.disk := by
  induction left generalizing s first front p with
  | zero =>
    rw [Nat.mul_zero, Nat.add_zero]
    exact ⟨front, p, s.disk, rfl, rfl, volume, dir, sameOn_refl, Nat.add_zero _⟩
  | succ left ih =>
    rw [Nat.mul_succ] at inside
    obtain ⟨i, linked, disk, take, link, copy, volume', dir', same, count⟩ :=
      saveChunk_run records dir full (m := maxFilesInOneCluster) (by omega) (Nat.le_refl _) volume
        (by omega)
    have longer : (front ++ [p] ++ [i]).length = (front ++ [p]).length + 1 := by
      rw [List.length_append]
      rfl
    obtain ⟨front', p', disk', run, length, volume'', dir'', same', count'⟩ :=
      ih (s := { s with disk := disk }) _ (front ++ [p]) i (folder.onDisk disk) records dir' (by rw [full, longer, Nat.mul_succ]) (by omega) volume'
        (by simp only; omega)
    have step : first + maxFilesInOneCluster * (left + 1) =
        first + maxFilesInOneCluster + maxFilesInOneCluster * left := by
      rw [Nat.mul_succ]
      omega
    refine ⟨front', p', disk', ?_, ?_, volume'', ?_, sameOn_trans same same', ?_⟩
    · show (getFreeCluster s >>= _) = _
      rw [take]
      show (setFat p i { s with disk := setFatValue s.disk i takenCluster } >>= _) = _
      rw [link]
      show (rootFiles { s with disk := linked } >>= _) = _
      rw [rootFiles_run (folder.onDisk linked)]
      show (memcpy (clusterAddr i) (fileAt files first) (maxFilesInOneCluster * fileRecordSize)
        { s with disk := linked } >>= _) = _
      rw [copy, step]
      exact run
    · rw [length, longer]
      omega
    · rw [step]
      exact dir''
    · simp only at count'
      omega

/-- The number of files and the records of the first cluster. -/
theorem saveFirst_stored (folder : Folder s files rs) (mapped : s.disk.origin ≤ fsStartAddr) :
    ∃ counted disk, memcpy (clusterAddr 0) s.root 4 s =
        .ok ((), { s with disk := counted }) ∧
      memcpy (clusterAddr 0 + 4) files
        (min maxFilesInFirstCluster rs.length * fileRecordSize) { s with disk := counted } =
        .ok ((), { s with disk := disk }) ∧
      disk.origin = s.disk.origin ∧ (∀ j < clusterCount, fatValue disk j = fatValue s.disk j) ∧
      (∀ c < clusterCount, c ≠ 0 → clusterBytes disk c = clusterBytes s.disk c) ∧
      DirPrefix disk [0] rs (min maxFilesInFirstCluster rs.length) := by
  have rootHigh := folder.rootHigh
  unfold folderSize at rootHigh
  have small : 0 < clusterCount := by decide
  have length := ByteMemory.length_readBytes 4 s.heap s.root
  let counted := s.disk.writeBytes (clusterAddr 0 + 0) (s.heap.readBytes s.root 4)
  have fits : 0 + (s.heap.readBytes s.root 4).length ≤ clusterSize := by rw [length]; decide
  have low : s.disk.origin ≤ clusterAddr 0 + 0 := by
    have := (cluster_inside (k := 0) (n := 0) small (by decide)).1
    omega
  have originCounted : counted.origin = s.disk.origin := ByteMemory.origin_writeBytes _ _ _
  have fatCounted : ∀ j < clusterCount, fatValue counted j = fatValue s.disk j := fun j entry =>
    fatValue_writeCluster small fits entry
  have bytesCounted : ∀ c < clusterCount, c ≠ 0 → clusterBytes counted c = clusterBytes s.disk c :=
    fun c cluster other => clusterBytes_writeCluster_other small fits cluster other
  have copyCount : memcpy (clusterAddr 0) s.root 4 s =
      .ok ((), { s with disk := counted }) := by
    have rootLow := folder.rootLow
    have positive : 0 < kernelHeap.addr := by decide
    have addr := (cluster_inside (k := 0) (n := 0) small (by decide)).1
    unfold memcpy
    rw [if_neg (by
      have : fsStartAddr ≠ 0 := by decide
      omega)]
    show (readMemory s.root 4 s >>= _) = _
    rw [readHeap_run rootLow (by omega)]
    exact writeCluster_run s _ small fits
  have count : counted.read32 (clusterAddr 0) = rs.length := by
    have back := ByteMemory.readBytes_writeBytes_same (s.heap.readBytes s.root 4) s.disk
      (clusterAddr 0 + 0) low
    rw [length] at back
    rw [← folder.count]
    exact congrArg ByteMemory.leValue back
  rcases folder.array with ⟨none, empty⟩ | records
  · subst empty
    refine ⟨counted, counted, copyCount, ?_, originCounted, fatCounted, bytesCounted, ⟨rfl, count, ?_⟩⟩
    · unfold memcpy
      rw [if_pos (Or.inr none)]
      rfl
    · intro i h
      exact absurd h (Nat.not_lt_zero i)
  · have first : fileAt files 0 = files := by rw [fileAt, Nat.zero_mul, Nat.add_zero]
    obtain ⟨data, copy, size, placed⟩ := copyRecords_run (s := { s with disk := counted }) (k := 4)
      0 (min maxFilesInFirstCluster rs.length) records (by omega) small
      (by
        have := Nat.mul_le_mul_right fileRecordSize (Nat.min_le_left maxFilesInFirstCluster rs.length)
        have : 4 + maxFilesInFirstCluster * fileRecordSize ≤ clusterSize := by decide
        omega)
      (originCounted.trans_le mapped)
    rw [first] at copy
    have fitsData : 4 + data.length ≤ clusterSize := by
      have := Nat.mul_le_mul_right fileRecordSize (Nat.min_le_left maxFilesInFirstCluster rs.length)
      have : 4 + maxFilesInFirstCluster * fileRecordSize ≤ clusterSize := by decide
      omega
    refine ⟨counted, counted.writeBytes (clusterAddr 0 + 4) data, copyCount, copy,
      (ByteMemory.origin_writeBytes _ _ _).trans originCounted, ?_, ?_, ⟨rfl, ?_, ?_⟩⟩
    · exact fun j entry => (fatValue_writeCluster small fitsData entry).trans (fatCounted j entry)
    · exact fun c cluster other => (clusterBytes_writeCluster_other small fitsData cluster other).trans
        (bytesCounted c cluster other)
    · rw [← count]
      exact congrArg ByteMemory.leValue
        (ByteMemory.readBytes_writeBytes_outside _ _ _ _ _ (Or.inl (Nat.le_refl _)))
    · intro i h before
      have low : i < maxFilesInFirstCluster := by omega
      have place : [0].getD (i / maxFilesInOneCluster) 0 = 0 := by
        have : i / maxFilesInOneCluster = 0 := by
          have : maxFilesInFirstCluster = maxFilesInOneCluster := by decide
          exact Nat.div_eq_of_lt (by omega)
        rw [this]
        rfl
      have offset : recordOffset i = 4 + i * fileRecordSize := by
        have : i % maxFilesInOneCluster = i := by
          have : maxFilesInFirstCluster = maxFilesInOneCluster := by decide
          exact Nat.mod_eq_of_lt (by omega)
        rw [recordOffset, if_pos low, this]
      have back := placed i before
      simp only [Nat.zero_add] at back
      rw [recordBytes, place, offset, ← back, Nat.add_assoc]

/-- The same for a volume in which the directory has its first cluster. -/
theorem saveFirst_run (folder : Folder s files rs) (volume : Volume s.disk ([0] :: chains) lost) :
    ∃ counted disk, memcpy (clusterAddr 0) s.root 4 s =
        .ok ((), { s with disk := counted }) ∧
      memcpy (clusterAddr 0 + 4) files
        (min maxFilesInFirstCluster rs.length * fileRecordSize) { s with disk := counted } =
        .ok ((), { s with disk := disk }) ∧
      Volume disk ([0] :: chains) lost ∧
      DirPrefix disk [0] rs (min maxFilesInFirstCluster rs.length) ∧
      SameOn chains.flatten s.disk disk ∧ lowFree disk = lowFree s.disk := by
  obtain ⟨counted, disk, copyCount, copyFirst, origin, fat, bytes, dir⟩ :=
    saveFirst_stored folder volume.mapped
  have volume' := volume_congr volume origin fat
  have inside := volume_flatten_count volume
  rw [List.flatten_cons] at inside
  refine ⟨counted, disk, copyCount, copyFirst, volume', dir, ⟨fun c member => ?_, fun c member => ?_⟩, ?_⟩
  · exact fat c (inside c (List.mem_append_right _ member))
  · refine bytes c (inside c (List.mem_append_right _ member)) ?_
    rintro rfl
    exact volume_outside volume List.mem_cons_self member
  · have before := lowFree_eq volume
    have after := lowFree_eq volume'
    omega

/-- The marker cluster behind the last one holds no records. -/
theorem dirPrefix_close {disk disk' : ByteMemory} {cells : List Nat} {k marker : Nat}
    (dir : DirPrefix disk cells rs k) (enough : k ≤ maxFilesInOneCluster * cells.length)
    (count : ∀ c ∈ cells, c < clusterCount) (bytes : SameBytes disk disk') :
    DirPrefix disk' (cells ++ [marker]) rs k :=
  dirPrefix_append (dirPrefix_congr dir enough fun c member => bytes c (count c member)) enough _

/-- `save_root_folder` for a number of files that fits: a new chain behind
cluster 0 that holds exactly the records, and nothing else changes. -/
theorem saveRootFolder_run (folder : Folder s files rs) (fits : Fits rs.length)
    (volume : Volume s.disk ([0] :: chains) lost) (room : dirClusters rs.length ≤ lowFree s.disk) :
    ∃ cells disk, saveRootFolder s = .ok ((), { s with disk := disk }) ∧
      Volume disk ((0 :: cells) :: chains) lost ∧ Ends disk (0 :: cells) ∧
      cells.length = dirClusters rs.length ∧ DirPrefix disk (0 :: cells) rs rs.length ∧
      SameOn chains.flatten s.disk disk ∧ lowFree disk + dirClusters rs.length = lowFree s.disk := by
  obtain ⟨counted, first, copyCount, copyFirst, volumeFirst, dirFirst, sameFirst, roomFirst⟩ :=
    saveFirst_run folder volume
  have needed := dirClusters_eq fits
  have chunk : maxFilesInOneCluster = 2 := by decide
  have firstChunk : maxFilesInFirstCluster = 2 := by decide
  have enough : existsNFreeClusters (dirClusters rs.length) s = .ok (true, s) := by
    show Except.ok (existsNFreeClustersLoop s.disk (dirClusters rs.length) clusterCount 0 0, s) = _
    rw [(existsNFreeClusters_iff volume _).mpr (by omega)]
  have size : getClusterCountNeeded (rootFolderSize rs.length) = dirClusters rs.length := rfl
  have positive : 0 < dirClusters rs.length := by omega
  unfold saveRootFolder rootFirstStartCluster
  rw [run_bind (rootFileCount_run folder)]
  dsimp only
  rw [size, run_bind enough]
  rw [run_bind (show ensure true _ s = .ok ((), s) from rfl)]
  rw [run_bind (show rootPointer s = .ok (s.root, s) from rfl), run_bind copyCount]
  rw [run_bind (rootFiles_run (folder.onDisk counted)), run_bind copyFirst]
  by_cases few : rs.length ≤ maxFilesInFirstCluster
  · rw [if_pos few, Nat.min_eq_right few] at *
    obtain ⟨i, linked, disk, take, link, mark, volume', ends, same, bytes, count⟩ :=
      closeChain_run (s := { s with disk := first }) [] 0 volumeFirst (by simp only; omega)
    rw [run_bind take, run_bind link]
    refine ⟨[i], disk, mark, volume', ends, ?_, ?_, sameOn_trans sameFirst same, ?_⟩
    · rw [List.length_singleton]
      omega
    · exact dirPrefix_close dirFirst (by rw [List.length_singleton]; omega) (by simp; decide) bytes
    · simp only at count
      omega
  · rw [if_neg few, Nat.min_eq_left (by omega)] at *
    have records : RecordsAt s.heap files rs := by
      rcases folder.array with ⟨_, none⟩ | records
      · rw [none] at few
        exact absurd (Nat.zero_le _) few
      · exact records
    have loops : (dirClusters rs.length + wordModulus - 2) % wordModulus = dirClusters rs.length - 2 := by
      have shift : dirClusters rs.length + wordModulus - 2 = dirClusters rs.length - 2 + wordModulus := by
        omega
      rw [shift, Nat.add_mod_right]
      have := (fits_iff _).mp fits
      exact Nat.mod_eq_of_lt (by unfold wordModulus; omega)
    obtain ⟨front, p, looped, loop, length, volumeLoop, dirLoop, sameLoop, countLoop⟩ :=
      saveClustersLoop_run (dirClusters rs.length - 2) maxFilesInFirstCluster [] 0 (folder.onDisk first) records dirFirst rfl
        (by rw [chunk, firstChunk]; omega) volumeFirst (by simp only; omega)
    let index := maxFilesInFirstCluster + maxFilesInOneCluster * (dirClusters rs.length - 2)
    have reached : index + (rs.length - index) = rs.length := by
      simp only [index, chunk, firstChunk]
      omega
    have rest : (rs.length + wordModulus - index) * fileRecordSize % wordModulus =
        (rs.length - index) * fileRecordSize := by
      have := (fits_iff _).mp fits
      simp only [index, chunk, firstChunk]
      unfold fileRecordSize wordModulus
      omega
    have fullLoop : index = maxFilesInOneCluster * (front ++ [p]).length := by
      simp only [index, length, List.nil_append, List.length_singleton, chunk, firstChunk]
      omega
    have last : rs.length - index ≤ maxFilesInOneCluster := by
      simp only [index, chunk, firstChunk]
      omega
    obtain ⟨i, linked, copied, take, link, copy, volumeCopied, dirCopied, sameCopied, countCopied⟩ :=
      saveChunk_run (s := { s with disk := looped }) (m := rs.length - index) records dirLoop fullLoop
        (by omega) last volumeLoop (by simp only at *; omega)
    obtain ⟨e, linkedEof, disk, takeEof, linkEof, mark, volume', ends, same, bytes, count⟩ :=
      closeChain_run (s := { s with disk := copied }) (front ++ [p]) i volumeCopied
        (by simp only at *; omega)
    rw [loops, run_bind loop]
    dsimp only
    rw [run_bind take, run_bind link]
    rw [show maxFilesInFirstCluster + maxFilesInOneCluster * (dirClusters rs.length - 2) = index from rfl,
      rest, run_bind copy, run_bind takeEof, run_bind linkEof]
    rw [reached] at dirCopied
    have longer : (front ++ [p] ++ [i]).length = (front ++ [p]).length + 1 := by
      rw [List.length_append]
      rfl
    have dir : DirPrefix disk (front ++ [p] ++ [i] ++ [e]) rs rs.length :=
      dirPrefix_close dirCopied (by rw [longer, Nat.mul_succ, ← fullLoop]; omega)
        (fun c member => volume_count volumeCopied List.mem_cons_self member) bytes
    have shape := List.eq_cons_of_mem_head? (Option.mem_def.mpr dir.head)
    refine ⟨(front ++ [p] ++ [i] ++ [e]).tail, disk, mark, shape ▸ volume', shape ▸ ends, ?_,
      shape ▸ dir, sameOn_trans sameFirst (sameOn_trans sameLoop (sameOn_trans sameCopied same)), ?_⟩
    · rw [List.length_tail, List.length_append, longer, length]
      simp only [List.nil_append, List.length_singleton]
      omega
    · simp only at *
      omega

end

end Delos.Invariants
