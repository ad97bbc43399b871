import Delos.Invariants.DirectoryLoading

/-!
# Saving the directory

`save_root_folder` takes the free clusters in increasing order. A last chunk that
is too long runs over the clusters behind its own, and none of these belongs to
the directory yet. So every directory for which there is room is stored, and the
marker value 4094 can only be the link to the EOF cluster.
-/
namespace Delos.Invariants
open Lib Source

/-- The free clusters in the order in which `get_free_cluster` returns them. -/
def freeClusters (disk : ByteMemory) : List Nat :=
  (List.range clusterCount).filter fun i => fatValue disk i = freeCluster

section
variable {s : Fs} {disk disk' : ByteMemory} {files first m p i k e n v : Nat} {rs : List Record}
  {cells front frees rest : List Nat}

theorem freeClusters_ordered (disk : ByteMemory) : (freeClusters disk).Pairwise (· < ·) :=
  List.pairwise_lt_range.filter _

theorem mem_freeClusters : i ∈ freeClusters disk ↔ i < clusterCount ∧ fatValue disk i = freeCluster := by
  simp [freeClusters]

theorem freeClusters_congr (same : ∀ j < clusterCount, fatValue disk' j = fatValue disk j) :
    freeClusters disk' = freeClusters disk := by
  unfold freeClusters
  apply List.filter_congr
  intro j member
  rw [same j (List.mem_range.mp member)]

theorem enough_freeClusters :
    existsNFreeClustersLoop disk n clusterCount 0 0 = true ↔ n ≤ (freeClusters disk).length := by
  have positive : 0 < clusterCount := by decide
  rw [existsNFreeClustersLoop_iff, freeClusters, List.range_eq_range']
  simp [positive]

theorem firstFreeCluster_head (left i : Nat) : firstFreeCluster disk left i =
    ((List.range' i left).filter fun j => fatValue disk j = freeCluster).head? := by
  induction left generalizing i with
  | zero => rfl
  | succ left ih =>
    rw [firstFreeCluster, List.range'_succ, List.filter_cons]
    by_cases here : fatValue disk i = freeCluster
    · simp [here]
    · simp [here, ih]

/-- An entry that gets a value in use is free no more. -/
theorem freeClusters_assign (mapped : disk.origin ≤ fsStartAddr) (word : v < 0x1000)
    (used : v ≠ freeCluster) :
    freeClusters (setFatValue disk i v) = (freeClusters disk).filter (· ≠ i) := by
  unfold freeClusters
  rw [List.filter_filter]
  apply List.filter_congr
  intro j _
  by_cases here : j = i
  · simp [here, fatValue_setFatValue_same mapped word, used]
  · simp [here, fatValue_setFatValue_other here]

theorem freeClusters_link (mapped : disk.origin ≤ fsStartAddr) (word : v < 0x1000)
    (used : v ≠ freeCluster) (outside : p ∉ freeClusters disk) :
    freeClusters (setFatValue disk p v) = freeClusters disk := by
  rw [freeClusters_assign mapped word used, List.filter_eq_self]
  intro j inside
  rw [decide_eq_true_eq]
  rintro rfl
  exact outside inside

theorem freeClusters_take (mapped : disk.origin ≤ fsStartAddr) (free : freeClusters disk = i :: rest) :
    freeClusters (setFatValue disk i takenCluster) = rest := by
  have ordered := freeClusters_ordered disk
  rw [free] at ordered
  rw [freeClusters_assign mapped (by decide) (by decide), free, List.filter_cons_of_neg (by simp),
    List.filter_eq_self]
  intro j inside
  have above := List.rel_of_pairwise_cons ordered inside
  simpa using Nat.ne_of_gt above

theorem getFreeCluster_first (free : freeClusters s.disk = i :: rest) :
    getFreeCluster s = .ok (i, { s with disk := setFatValue s.disk i takenCluster }) := by
  have small : i < clusterCount := (mem_freeClusters.mp (free ▸ List.mem_cons_self)).1
  have found : firstFreeCluster s.disk clusterCount 0 = some i := by
    rw [firstFreeCluster_head, ← List.range_eq_range']
    exact congrArg List.head? free
  exact getFreeCluster_found found small

/-- Bytes behind the table do not change with an entry. -/
theorem readBytes_setFatValue {a : Nat} (small : i < clusterCount) (behind : fsStartAddr + 8190 ≤ a) :
    (setFatValue disk i v).readBytes a n = disk.readBytes a n := by
  have inside := entry_inside small
  rw [setFatValue]
  apply ByteMemory.readBytes_writeBytes_outside
  rw [ByteMemory.length_leBytes]
  omega

theorem path_extend (path : Path disk (front ++ [p])) (same : ∀ c ∈ front, fatValue disk' c = fatValue disk c)
    (link : fatValue disk' p = i) (small : i < clusterCount) : Path disk' (front ++ [p] ++ [i]) := by
  constructor
  · rw [List.append_assoc]
    apply linked_append_iff.mpr
    constructor
    · apply linked_congr path.linked
      intro c inside
      rw [List.dropLast_concat] at inside
      exact same c inside
    · exact List.isChain_cons_cons.mpr ⟨link, List.isChain_singleton i⟩
  · intro c inside
    rcases List.mem_append.mp inside with old | new
    · exact path.count c old
    · rw [List.mem_singleton.mp new]
      exact small

/-! ## The chain that is written -/

/-- The clusters of the directory so far and the free ones, in increasing order. -/
structure Growing (disk : ByteMemory) (cells frees : List Nat) (rs : List Record) (k : Nat) : Prop where
  mapped : disk.origin ≤ fsStartAddr
  path : Path disk cells
  ordered : (cells ++ frees).Pairwise (· < ·)
  free : freeClusters disk = frees
  dir : DirPrefix disk cells rs k

theorem Growing.before (growing : Growing disk cells frees rs k) {c d : Nat} (old : c ∈ cells)
    (new : d ∈ frees) : c < d :=
  (List.pairwise_append.mp growing.ordered).2.2 c old d new

theorem Growing.small (growing : Growing disk cells frees rs k) (new : i ∈ frees) : i < clusterCount :=
  (mem_freeClusters.mp (growing.free ▸ new)).1

/-- A free cluster is taken and linked behind the last one. -/
theorem growLink_run (growing : Growing s.disk (front ++ [p]) (i :: rest) rs k) :
    ∃ linked, getFreeCluster s =
        .ok (i, { s with disk := setFatValue s.disk i takenCluster }) ∧
      setFat p i { s with disk := setFatValue s.disk i takenCluster } =
        .ok ((), { s with disk := linked }) ∧
      linked.origin ≤ fsStartAddr ∧ Path linked (front ++ [p] ++ [i]) ∧
      (i ≠ freeCluster → freeClusters linked = rest) ∧
      (∀ a n, fsStartAddr + 8190 ≤ a → linked.readBytes a n = s.disk.readBytes a n) := by
  have last : p ∈ front ++ [p] := List.mem_append_right _ List.mem_cons_self
  have pSmall := growing.path.count p last
  have iSmall := growing.small List.mem_cons_self
  have word : i < 0x1000 := by
    unfold clusterCount at iSmall
    omega
  have origin : (setFatValue s.disk i takenCluster).origin ≤ fsStartAddr :=
    (origin_setFatValue _ _ _).trans_le growing.mapped
  have taken := freeClusters_take growing.mapped growing.free
  refine ⟨setFatValue (setFatValue s.disk i takenCluster) p i, getFreeCluster_first growing.free,
    setFat_run _ pSmall i, (origin_setFatValue _ _ _).trans_le origin, ?_, fun used => ?_,
    fun a n behind => ?_⟩
  · apply path_extend growing.path
    · intro c inside
      have other : c ≠ p := by
        have apart := List.pairwise_append.mp (List.pairwise_append.mp growing.ordered).1
        exact Nat.ne_of_lt (apart.2.2 c inside p List.mem_cons_self)
      have below := growing.before (List.mem_append_left [p] inside) List.mem_cons_self
      rw [fatValue_setFatValue_other other, fatValue_setFatValue_other (Nat.ne_of_lt below)]
    · exact fatValue_setFatValue_same origin word
    · exact iSmall
  · rw [freeClusters_link origin word used, taken]
    rw [taken]
    intro inside
    exact Nat.lt_irrefl p (growing.before last (List.mem_cons_of_mem i inside))
  · rw [readBytes_setFatValue pSmall behind, readBytes_setFatValue iSmall behind]

theorem clusterBytes_behind {c : Nat} (small : c < clusterCount)
    (same : ∀ a n, fsStartAddr + 8190 ≤ a → disk'.readBytes a n = disk.readBytes a n) :
    clusterBytes disk' c = clusterBytes disk c :=
  same _ _ (cluster_inside (k := 0) (n := 0) small (by decide)).1

/-- One more cluster and the records that start in it. -/
theorem growChunk_run (records : RecordsAt s.heap files rs)
    (growing : Growing s.disk (front ++ [p]) (i :: e :: rest) rs first)
    (full : first = maxFilesInOneCluster * (front ++ [p]).length) (inside : first + m ≤ rs.length)
    (word : rs.length < 2 ^ 19) :
    ∃ linked disk, getFreeCluster s =
        .ok (i, { s with disk := setFatValue s.disk i takenCluster }) ∧
      setFat p i { s with disk := setFatValue s.disk i takenCluster } =
        .ok ((), { s with disk := linked }) ∧
      memcpy (clusterAddr i) (fileAt files first) (m * fileRecordSize) { s with disk := linked } =
        .ok ((), { s with disk := disk }) ∧
      Growing disk (front ++ [p] ++ [i]) (e :: rest) rs first ∧
      ∀ j (h : j < m), disk.readBytes (clusterAddr i + j * fileRecordSize) fileRecordSize =
        (rs[first + j]).bytes := by
  obtain ⟨linked, take, link, mapped, path, free, behind⟩ := growLink_run growing
  have small := growing.small List.mem_cons_self
  have eSmall := growing.small (List.mem_cons_of_mem i List.mem_cons_self)
  -- another free cluster follows, so the link is no marker value
  have used : i ≠ freeCluster := by
    have less := List.rel_of_pairwise_cons (List.pairwise_append.mp growing.ordered).2.1
      (show e ∈ e :: rest from List.mem_cons_self)
    unfold clusterCount at eSmall
    unfold freeCluster
    omega
  have place := cluster_inside (k := 0) (n := 0) small (by decide)
  have high : clusterAddr i + m * fileRecordSize ≤ fsStartAddr + fsSize := by
    rw [clusterAddr_eq small]
    unfold clusterCount at small
    unfold fileRecordSize fsSize
    omega
  obtain ⟨data, copy, size, placed⟩ := copyRecords_at (s := { s with disk := linked }) first m records
    inside (by omega) high mapped
  have entries : ∀ j < clusterCount,
      fatValue (linked.writeBytes (clusterAddr i) data) j = fatValue linked j := by
    intro j entry
    have below := entry_inside entry
    rw [fatValue, fatValue, ByteMemory.readBytes_writeBytes_outside _ _ _ _ _ (by omega)]
  have oldBytes : ∀ c ∈ front ++ [p],
      clusterBytes (linked.writeBytes (clusterAddr i) data) c = clusterBytes s.disk c := by
    intro c member
    have cSmall := growing.path.count c member
    have below := growing.before member List.mem_cons_self
    rw [← clusterBytes_behind cSmall behind, clusterBytes, clusterBytes]
    apply ByteMemory.readBytes_writeBytes_outside
    rw [clusterAddr_eq small, clusterAddr_eq cSmall]
    unfold clusterSize
    omega
  refine ⟨linked, _, take, link, copy, ⟨?_, ?_, ?_, ?_, ?_⟩, placed⟩
  · rw [ByteMemory.origin_writeBytes]
    exact mapped
  · refine ⟨linked_congr path.linked fun c member => ?_, path.count⟩
    exact entries c (path.count c (List.dropLast_subset _ member))
  · rw [List.append_assoc]
    exact growing.ordered
  · rw [← free used]
    exact freeClusters_congr entries
  · exact dirPrefix_append (dirPrefix_congr growing.dir (Nat.le_of_eq full) oldBytes)
      (Nat.le_of_eq full) [i]

/-- The records of a full cluster are stored in the chain. -/
theorem dirPrefix_full (dir : DirPrefix disk (cells ++ [i]) rs first)
    (full : first = maxFilesInOneCluster * cells.length) (some : cells ≠ [])
    (inside : first + maxFilesInOneCluster ≤ rs.length)
    (placed : ∀ j (h : j < maxFilesInOneCluster),
      disk.readBytes (clusterAddr i + j * fileRecordSize) fileRecordSize = (rs[first + j]).bytes) :
    DirPrefix disk (cells ++ [i]) rs (first + maxFilesInOneCluster) := by
  refine ⟨dir.head, dir.count, fun j h before => ?_⟩
  rcases Nat.lt_or_ge j first with old | new
  · exact dir.stored j h old
  · obtain ⟨k, rfl⟩ : ∃ k, j = first + k := ⟨j - first, by omega⟩
    obtain ⟨place, offset⟩ := recordPlace (i := i) (j := k) full some (by omega)
    rw [recordBytes, place, offset]
    exact placed k (by omega)

theorem growLoop_run (left first : Nat) (front : List Nat) (p : Nat) (frees : List Nat)
    (folder : Folder s files rs) (records : RecordsAt s.heap files rs)
    (growing : Growing s.disk (front ++ [p]) frees rs first)
    (full : first = maxFilesInOneCluster * (front ++ [p]).length)
    (inside : first + maxFilesInOneCluster * left ≤ rs.length) (room : left < frees.length)
    (word : rs.length < 2 ^ 19) :
    ∃ front' p' disk, saveClustersLoop left p first s =
        .ok ((p', first + maxFilesInOneCluster * left), { s with disk := disk }) ∧
      (front' ++ [p']).length = (front ++ [p]).length + left ∧
      Growing disk (front' ++ [p']) (frees.drop left) rs (first + maxFilesInOneCluster * left) := by
  induction left generalizing s first front p frees with
  | zero =>
    rw [Nat.mul_zero, Nat.add_zero, List.drop_zero]
    exact ⟨front, p, s.disk, rfl, rfl, growing⟩
  | succ left ih =>
    rw [Nat.mul_succ] at inside
    obtain ⟨i, e, rest, rfl⟩ : ∃ i e rest, frees = i :: e :: rest := by
      cases frees with
      | nil => exact absurd room (Nat.not_lt_zero _)
      | cons i more =>
        cases more with
        | nil =>
          rw [List.length_singleton] at room
          omega
        | cons e rest => exact ⟨i, e, rest, rfl⟩
    obtain ⟨linked, disk, take, link, copy, growing', placed⟩ :=
      growChunk_run (m := maxFilesInOneCluster) records growing full (by omega) word
    have dir := dirPrefix_full growing'.dir full (by simp) (by omega) placed
    have longer : (front ++ [p] ++ [i]).length = (front ++ [p]).length + 1 := by
      rw [List.length_append]
      rfl
    rw [List.length_cons] at room
    obtain ⟨front', p', disk', run, length, growing''⟩ :=
      ih (s := { s with disk := disk }) _ (front ++ [p]) i (e :: rest) (folder.onDisk disk) records
        { growing' with dir := dir } (by rw [full, longer, Nat.mul_succ]) (by omega) (by omega)
    have step : first + maxFilesInOneCluster * (left + 1) =
        first + maxFilesInOneCluster + maxFilesInOneCluster * left := by
      rw [Nat.mul_succ]
      omega
    refine ⟨front', p', disk', ?_, ?_, ?_⟩
    · unfold saveClustersLoop
      rw [run_bind take, run_bind link, run_bind (rootFiles_run (folder.onDisk linked)), run_bind copy,
        step]
      exact run
    · rw [length, longer]
      omega
    · rw [step, List.drop_succ_cons]
      exact growing''

/-- The EOF cluster; it may be the one whose index is the free marker. -/
theorem growEnd_run (growing : Growing s.disk (front ++ [p]) (e :: rest) rs k)
    (enough : k ≤ maxFilesInOneCluster * (front ++ [p]).length) :
    ∃ linked disk, getFreeCluster s =
        .ok (e, { s with disk := setFatValue s.disk e takenCluster }) ∧
      setFat p e { s with disk := setFatValue s.disk e takenCluster } =
        .ok ((), { s with disk := linked }) ∧
      setFat e eofCluster { s with disk := linked } = .ok ((), { s with disk := disk }) ∧
      Path disk (front ++ [p] ++ [e]) ∧ Ends disk (front ++ [p] ++ [e]) ∧
      DirPrefix disk (front ++ [p] ++ [e]) rs k ∧
      (∀ a n, fsStartAddr + 8190 ≤ a → disk.readBytes a n = s.disk.readBytes a n) := by
  obtain ⟨linked, take, link, mapped, path, _, behind⟩ := growLink_run growing
  have small := growing.small List.mem_cons_self
  have same : ∀ a n, fsStartAddr + 8190 ≤ a →
      (setFatValue linked e eofCluster).readBytes a n = s.disk.readBytes a n :=
    fun a n low => (readBytes_setFatValue small low).trans (behind a n low)
  refine ⟨linked, setFatValue linked e eofCluster, take, link, setFat_run _ small _, ⟨?_, path.count⟩,
    ⟨front ++ [p], e, rfl, by simp, fatValue_setFatValue_same mapped (by decide)⟩, ?_, same⟩
  · apply linked_congr path.linked
    intro c inside
    rw [List.dropLast_concat] at inside
    exact fatValue_setFatValue_other (Nat.ne_of_lt (growing.before inside List.mem_cons_self))
  · exact dirPrefix_append (dirPrefix_congr growing.dir enough fun c member =>
      clusterBytes_behind (growing.path.count c member) same) enough [e]

/-- `save_root_folder` for every directory, provided that the space check passes. -/
theorem saveRootFolder_stored (folder : Folder s files rs) (word : rs.length < 2 ^ 19)
    (mapped : s.disk.origin ≤ fsStartAddr) (taken : fatValue s.disk 0 ≠ freeCluster)
    (room : existsNFreeClustersLoop s.disk (dirClusters rs.length) clusterCount 0 0 = true) :
    ∃ cells disk, saveRootFolder s = .ok ((), { s with disk := disk }) ∧ StoredDir disk cells rs := by
  have needed := dirClusters_div (show rs.length < 2 ^ 27 by omega)
  have below := lastChunk_le (show rs.length < 2 ^ 27 by omega)
  have chunk : maxFilesInOneCluster = 2 := by decide
  have firstChunk : maxFilesInFirstCluster = 2 := by decide
  have count := enough_freeClusters.mp room
  obtain ⟨counted, saved, copyCount, copyFirst, origin, entries, _, dir⟩ :=
    saveFirst_stored folder mapped
  have enough : existsNFreeClusters (dirClusters rs.length) s = .ok (true, s) := by
    show Except.ok (existsNFreeClustersLoop s.disk (dirClusters rs.length) clusterCount 0 0, s) = _
    rw [room]
  have free : freeClusters saved = freeClusters s.disk := freeClusters_congr entries
  have growing : Growing saved ([] ++ [0]) (freeClusters s.disk) rs
      (min maxFilesInFirstCluster rs.length) := by
    refine ⟨origin.trans_le mapped, ⟨List.isChain_singleton 0, ?_⟩, ?_, free, dir⟩
    · intro c member
      rw [List.mem_singleton.mp member]
      decide
    · have ordered := freeClusters_ordered s.disk
      rw [List.nil_append, List.singleton_append, List.pairwise_cons]
      refine ⟨fun c member => ?_, ordered⟩
      apply Nat.pos_of_ne_zero
      rintro rfl
      exact taken (mem_freeClusters.mp member).2
  have size : getClusterCountNeeded (rootFolderSize rs.length) = dirClusters rs.length := rfl
  unfold saveRootFolder rootFirstStartCluster
  rw [run_bind (rootFileCount_run folder)]
  dsimp only
  rw [size, run_bind enough, run_bind (show ensure true _ s = .ok ((), s) from rfl),
    run_bind (show rootPointer s = .ok (s.root, s) from rfl), run_bind copyCount,
    run_bind (rootFiles_run (folder.onDisk counted)), run_bind copyFirst]
  by_cases few : rs.length ≤ maxFilesInFirstCluster
  · rw [if_pos few]
    obtain ⟨e, rest, more⟩ : ∃ e rest, freeClusters s.disk = e :: rest :=
      List.exists_cons_of_length_pos (by omega)
    rw [more] at growing
    obtain ⟨linked, disk, take, link, mark, path, ends, dir', _⟩ :=
      growEnd_run (s := { s with disk := saved }) growing (by simp [chunk, firstChunk])
    rw [run_bind take, run_bind link]
    have all : min maxFilesInFirstCluster rs.length = lastChunk rs.length := by
      rw [lastChunk, if_pos few]
      omega
    refine ⟨[e], disk, mark, path, ends, ?_, all ▸ dir', fun j h => ?_⟩
    · rw [List.length_singleton]
      omega
    · rw [lastChunk, if_pos few] at h
      omega
  · rw [if_neg few]
    have records : RecordsAt s.heap files rs := by
      rcases folder.array with ⟨_, none⟩ | records
      · rw [none] at few
        exact absurd (Nat.zero_le _) few
      · exact records
    have index : maxFilesInFirstCluster + maxFilesInOneCluster * (dirClusters rs.length - 2) =
        lastChunk rs.length := by
      rw [lastChunk, if_neg few, chunk, firstChunk]
      omega
    have loops : (dirClusters rs.length + wordModulus - 2) % wordModulus = dirClusters rs.length - 2 := by
      unfold wordModulus
      omega
    rw [Nat.min_eq_left (by omega)] at growing
    obtain ⟨front, p, looped, loop, length, growing'⟩ := growLoop_run (s := { s with disk := saved })
      (dirClusters rs.length - 2) maxFilesInFirstCluster [] 0 _ (folder.onDisk saved) records growing
      rfl (by omega) (by omega) word
    rw [index] at growing' loop
    obtain ⟨i, e, rest, more⟩ : ∃ i e rest,
        (freeClusters s.disk).drop (dirClusters rs.length - 2) = i :: e :: rest := by
      have left : 1 < ((freeClusters s.disk).drop (dirClusters rs.length - 2)).length := by
        rw [List.length_drop]
        omega
      cases more : (freeClusters s.disk).drop (dirClusters rs.length - 2) with
      | nil => simp [more] at left
      | cons i more' =>
        cases more' with
        | nil => simp [more] at left
        | cons e rest => exact ⟨i, e, rest, rfl⟩
    rw [more] at growing'
    have full : lastChunk rs.length = maxFilesInOneCluster * (front ++ [p]).length := by
      rw [length, ← index, chunk, firstChunk]
      simp only [List.nil_append, List.length_singleton]
      omega
    obtain ⟨linked, copied, take, link, copy, growing'', placed⟩ :=
      growChunk_run (s := { s with disk := looped }) (m := rs.length - lastChunk rs.length) records
        growing' full (by omega) word
    have longer : (front ++ [p] ++ [i]).length = (front ++ [p]).length + 1 := by
      rw [List.length_append]
      rfl
    obtain ⟨linkedEof, disk, takeEof, linkEof, mark, path, ends, dir', same⟩ :=
      growEnd_run (s := { s with disk := copied }) growing''
        (by rw [longer, Nat.mul_succ, ← full]; exact Nat.le_add_right _ _)
    have rest : (rs.length + wordModulus - lastChunk rs.length) * fileRecordSize % wordModulus =
        (rs.length - lastChunk rs.length) * fileRecordSize := by
      unfold fileRecordSize wordModulus
      omega
    rw [loops, run_bind loop]
    dsimp only
    rw [run_bind take, run_bind link, rest, run_bind copy, run_bind takeEof, run_bind linkEof]
    have shape := List.eq_cons_of_mem_head? (Option.mem_def.mpr dir'.head)
    have iSmall := growing'.small List.mem_cons_self
    refine ⟨(front ++ [p] ++ [i] ++ [e]).tail, disk, mark, shape ▸ path, shape ▸ ends, ?_,
      shape ▸ dir', fun j h => ?_⟩
    · rw [List.length_tail, List.length_append, longer, length]
      simp only [List.nil_append, List.length_singleton]
      omega
    · have reached : (0 :: (front ++ [p] ++ [i] ++ [e]).tail).getD (dirClusters rs.length - 1) 0 = i := by
        have place : dirClusters rs.length - 1 = (front ++ [p]).length := by
          rw [length]
          simp only [List.nil_append, List.length_singleton]
          omega
        rw [← shape, place, List.append_assoc (front ++ [p]),
          List.getD_append_right _ _ _ _ (Nat.le_refl _), Nat.sub_self]
        rfl
      rw [reached]
      refine (same _ _ ?_).trans (placed j (by omega))
      have addr := cluster_inside (k := 0) (n := 0) iSmall (by decide)
      omega

end

end Delos.Invariants
