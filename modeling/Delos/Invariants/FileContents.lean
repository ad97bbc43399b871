import Delos.Source.GuardedReads
import Delos.Invariants.FileInsert

/-!
# The size and the bytes of a file

`get_file_size` and `read` of an existing file. The bytes that `read` hands over are
those of the data clusters of its chain; the loops need no more of the disk than that
chain, and they do the same with tests that pass for its clusters.
-/
namespace Delos.Invariants
open Lib Source

section
variable {s : Fs} {others : List (Nat × Nat)} {dir lost : List Nat} {es : List Entry}
  {chains : List (List Nat)} {i k : Nat}

theorem getFileSize_run (filename : CString) (parked : Parked s others)
    (catalog : Catalog s.disk dir es lost)
    (found : position (normalizeFilename filename) es = some i) (small : i < es.length) :
    Completes (getFileSize filename) s fun res s' => ∃ heap, s' = { s with heap := heap, root := 0 } ∧
      Owned heap others ∧ Kept others s.heap heap ∧ res = es[i].record.size := by
  unfold getFileSize
  apply meets_call (loadCatalog_run parked catalog)
  rintro _ _ ⟨heap, root, files, rfl, loaded, kept⟩
  have nonzero := filePointer_nonzero loaded.records i
  have size := fileSize_run loaded.records (i := i) (by rwa [List.length_map])
  rw [List.getElem_map] at size
  obtain ⟨freed, discard, owned, keptFreed, _⟩ := freeRootDir_loaded loaded
  rw [meets_next (getFile_run loaded.folder (normalizeFilename_short filename)), findIdx_record, found,
    if_neg nonzero, show filePointer files (some i) = fileAt files i from rfl, meets_next size,
    meets_next discard]
  exact meets_pure.mpr ⟨freed, rfl, owned, kept_trans kept keptFreed, rfl⟩

/-! ## Accesses inside the window -/

/-- Every value of the FAT is less than the number of twelve-bit values. -/
def fatValues : Nat := 0x1000

theorem fatValue_small (disk : ByteMemory) (i : Nat) : fatValue disk i < fatValues :=
  Nat.mod_lt _ (by decide)

/-- The entry may be the two bytes behind the table. -/
theorem fat_window {c : Nat} (s : Fs) (small : c < fatValues) : fat c s = .ok (fatValue s.disk c, s) := by
  have place : fatAddr c = fsStartAddr + fatEntrySize * c := by
    unfold fatValues at small
    unfold fatAddr fsStartAddr fatEntrySize wordModulus
    omega
  have read : readMemory (fatAddr c) 2 s = .ok (s.disk.readBytes (fsStartAddr + fatEntrySize * c) 2, s) := by
    rw [place]
    apply readMemory_disk (Nat.le_add_right _ _)
    · unfold fatValues at small
      unfold fatEntrySize fsSize
      omega
    · omega
  unfold fat
  rw [run_bind read]
  rfl

theorem cluster_window {c n : Nat} (s : Fs) (small : c < fatValues) (fits : k + n ≤ clusterSize) :
    ∃ bytes, bytes.length = n ∧ readMemory (clusterAddr c + k) n s = .ok (bytes, s) := by
  have place : clusterAddr c = fsStartAddr + 8190 + 64 * c := by
    unfold fatValues at small
    unfold clusterAddr clusterStartAddr fsStartAddr fatEntrySize clusterCount clusterSize wordModulus
    omega
  refine ⟨_, ByteMemory.length_readBytes _ _ _, readMemory_disk ?_ ?_ ?_⟩
  · omega
  · unfold fatValues at small
    unfold clusterSize at fits
    unfold fsSize
    omega
  · omega

theorem followClusters_window {c : Nat} (n : Nat) (small : c < fatValues) :
    ∃ last < fatValues, followClusters n c s = .ok (last, s) := by
  induction n generalizing c with
  | zero => exact ⟨c, small, rfl⟩
  | succ n ih =>
    obtain ⟨last, here, run⟩ := ih (fatValue_small s.disk c)
    refine ⟨last, here, ?_⟩
    unfold followClusters
    rw [run_bind (fat_window s small)]
    exact run

/-- Wherever it starts, the loop ends with bytes or does not end. -/
theorem readLoop_window {c bytesRead : Nat} (len bound : Nat) (small : c < fatValues)
    (some : bytesRead ≤ len) :
    (∃ bytes, readLoop len bound c bytesRead s = .ok (bytes, s)) ∨
      readLoop len bound c bytesRead s = .error .endless := by
  induction bound generalizing c bytesRead with
  | zero => exact .inr rfl
  | succ bound ih =>
    unfold readLoop
    by_cases all : bytesRead = len
    · rw [if_pos all]
      exact .inl ⟨[], rfl⟩
    · rw [if_neg all]
      have next := fatValue_small s.disk c
      have fits : 0 + (if (bytesRead + clusterSize) % wordModulus ≤ len then clusterSize
          else len - bytesRead) ≤ clusterSize := by
        have modulus : wordModulus = 2 ^ 32 := rfl
        have size : clusterSize = 64 := rfl
        rw [modulus, size]
        split <;> omega
      have later : (bytesRead + (if (bytesRead + clusterSize) % wordModulus ≤ len then clusterSize
          else len - bytesRead)) % wordModulus ≤ len := by
        split
        · assumption
        · have : bytesRead + (len - bytesRead) = len := by omega
          rw [this]
          exact Nat.mod_le _ _
      obtain ⟨bytes, _, read⟩ := cluster_window s next fits
      rw [Nat.add_zero] at read
      rw [run_bind (fat_window s small), run_bind read]
      rcases ih next later with ⟨rest, more⟩ | endless
      · rw [run_bind more]
        exact .inl ⟨bytes ++ rest, rfl⟩
      · right
        show (readLoop len bound _ _ s >>= _) = _
        rw [endless]
        rfl

/-- A read that passes the test of its bounds. -/
theorem readRange_window {offset len start size : Nat} (small : start < fatValues)
    (passed : (offset + len) % wordModulus ≤ size) :
    (∃ bytes, min len (clusterSize - offset % clusterSize) ≤ bytes.length ∧
      (len ≤ clusterSize - offset % clusterSize → bytes.length = len) ∧
      readRange noTest noTest offset len start size s =
        .ok ((if len ≤ clusterSize - offset % clusterSize then 1 else 0, bytes), s)) ∨
      clusterSize - offset % clusterSize < len ∧
        readRange noTest noTest offset len start size s = .error .endless := by
  have part : offset % clusterSize < clusterSize := Nat.mod_lt _ (by decide)
  obtain ⟨last, near, follow⟩ := followClusters_window (s := s) (offset / clusterSize) small
  obtain ⟨bytes, count, read⟩ := cluster_window (k := offset % clusterSize)
    (n := min len (clusterSize - offset % clusterSize)) s near (by omega)
  unfold readRange
  simp only [followClustersTested_none, readLoopTested_none, noTest, pure_bind]
  rw [if_neg (by omega), run_bind follow, run_bind read]
  by_cases short : len ≤ clusterSize - offset % clusterSize
  · rw [if_pos short, if_pos short]
    exact .inl ⟨bytes, Nat.le_of_eq count.symm, fun _ => count.trans (Nat.min_eq_left short), rfl⟩
  · rw [if_neg short, if_neg short]
    have some : min len (clusterSize - offset % clusterSize) ≤ len := Nat.min_le_left _ _
    rcases readLoop_window (s := s) len (len + 1) near some with ⟨rest, more⟩ | endless
    · left
      refine ⟨bytes ++ rest, ?_, fun here => absurd here short, ?_⟩
      · rw [List.length_append, count]
        omega
      · rw [run_bind more]
        rfl
    · right
      refine ⟨Nat.lt_of_not_le short, ?_⟩
      show (readLoop len (len + 1) last _ s >>= _) = _
      rw [endless]
      rfl

theorem readRange_refused (link data : Nat → Kernel Unit) (start : Nat) {offset len size : Nat}
    (beyond : size < (offset + len) % wordModulus) :
    ∃ screen, readRange link data offset len start size s = .ok ((1, []), { s with screen := screen }) := by
  unfold readRange
  rw [if_pos beyond]
  exact ⟨_, rfl⟩

/-! ## Along the chain of a file -/

/-- The test passes for the clusters and changes nothing. -/
def Passes (test : Nat → Kernel Unit) (cells : List Nat) : Prop :=
  ∀ c ∈ cells, ∀ s, test c s = .ok ((), s)

theorem passes_noTest (cells : List Nat) : Passes noTest cells := fun _ _ _ => rfl

theorem passes_within (cells : List Nat) : Passes (within cells) cells := fun c member s => by
  rw [within, if_pos member]
  rfl

theorem followClustersTested_run {link : Nat → Kernel Unit} (front : List Nat) (c : Nat)
    (back lead : List Nat) (path : Path s.disk (lead ++ (front ++ c :: back))) (passes : Passes link front) :
    followClustersTested link front.length ((front ++ [c]).headD 0) s = .ok (c, s) := by
  induction front generalizing lead with
  | nil => rfl
  | cons d rest ih =>
    obtain ⟨next, tail, shape⟩ : ∃ next tail, rest ++ c :: back = next :: tail :=
      List.exists_cons_of_ne_nil (by simp)
    have head : (rest ++ [c]).headD 0 = next := by
      cases rest with
      | nil => exact (List.cons.inj shape).1
      | cons e rest => exact (List.cons.inj shape).1
    have links := path
    rw [List.cons_append, shape] at links
    obtain ⟨small, _, link', _⟩ := path_link_at lead d next tail links
    have later := ih (lead ++ [d]) (by rw [List.append_assoc]; exact path)
      fun e member => passes e (List.mem_cons_of_mem _ member)
    rw [List.length_cons, List.cons_append, List.headD_cons]
    unfold followClustersTested
    rw [run_bind (passes d List.mem_cons_self s), run_bind (fat_run s small), link', ← head]
    exact later

theorem take_dataBytes (disk : ByteMemory) (c : Nat) (rest : List Nat) (n : Nat) :
    (dataBytes disk (c :: rest)).take n =
      (clusterBytes disk c).take (min clusterSize n) ++ (dataBytes disk rest).take (n - clusterSize) := by
  have bytes : dataBytes disk (c :: rest) = clusterBytes disk c ++ dataBytes disk rest := List.flatMap_cons
  have whole : (clusterBytes disk c).take clusterSize = clusterBytes disk c :=
    List.take_of_length_le (by rw [length_clusterBytes])
  rw [bytes, List.take_append, length_clusterBytes, Nat.min_comm, ← List.take_take, whole]

/-- From one data cluster on. -/
theorem readLoopTested_run {link data : Nat → Kernel Unit} {len : Nat} (bound : Nat) (lead : List Nat)
    (c : Nat) (post : List Nat) (marker bytesRead : Nat)
    (path : Path s.disk (lead ++ c :: (post ++ [marker]))) (links : Passes link (c :: post))
    (reads : Passes data post) (some : bytesRead ≤ len) (word : len + clusterSize < wordModulus)
    (enough : len - bytesRead < bound) (stored : len - bytesRead ≤ clusterSize * post.length) :
    readLoopTested link data len bound c bytesRead s =
      .ok ((dataBytes s.disk post).take (len - bytesRead), s) := by
  induction bound generalizing lead c post bytesRead with
  | zero => omega
  | succ bound ih =>
    have size : clusterSize = 64 := rfl
    unfold readLoopTested
    by_cases all : bytesRead = len
    · rw [if_pos all, all, Nat.sub_self, List.take_zero]
      rfl
    · rw [if_neg all]
      cases post with
      | nil =>
        rw [List.length_nil] at stored
        omega
      | cons next rest =>
        rw [List.cons_append] at path
        obtain ⟨cSmall, nextSmall, link', _⟩ := path_link_at lead c next (rest ++ [marker]) path
        have amount : (if (bytesRead + clusterSize) % wordModulus ≤ len then clusterSize
            else len - bytesRead) = min clusterSize (len - bytesRead) := by
          rw [Nat.mod_eq_of_lt (by omega)]
          split <;> omega
        have progress : (bytesRead + min clusterSize (len - bytesRead)) % wordModulus =
            bytesRead + min clusterSize (len - bytesRead) := Nat.mod_eq_of_lt (by omega)
        have left : len - (bytesRead + min clusterSize (len - bytesRead)) =
            len - bytesRead - clusterSize := by omega
        have later := ih (lead ++ [c]) next rest (bytesRead + min clusterSize (len - bytesRead))
          (by rw [List.append_assoc]; exact path)
          (fun e member => links e (List.mem_cons_of_mem _ member))
          (fun e member => reads e (List.mem_cons_of_mem _ member)) (by omega) (by omega)
          (by rw [List.length_cons] at stored; rw [size] at stored ⊢; omega)
        have read := readCluster_run (k := 0) (n := min clusterSize (len - bytesRead)) s nextSmall (by omega)
        rw [Nat.add_zero] at read
        rw [run_bind (links c List.mem_cons_self s), run_bind (fat_run s cSmall), link', amount,
          run_bind (reads next List.mem_cons_self s), run_bind read, progress, run_bind later, left]
        have part := readCluster_part s.disk next (k := 0) (n := min clusterSize (len - bytesRead)) (by omega)
        rw [Nat.add_zero, List.drop_zero] at part
        rw [part, take_dataBytes]
        rfl

/-- A range inside the data clusters. -/
theorem readRange_run {link data : Nat → Kernel Unit} {cells : List Nat} {marker offset len start size : Nat}
    (path : Path s.disk (cells ++ [marker])) (headed : (cells ++ [marker]).headD 0 = start)
    (few : cells.length ≤ clusterCount) (links : Passes link cells) (reads : Passes data cells)
    (range : offset + len ≤ size) (word : size < wordModulus)
    (inside : offset + len ≤ clusterSize * cells.length) (before : offset < clusterSize * cells.length) :
    readRange link data offset len start size s =
      .ok ((if len ≤ clusterSize - offset % clusterSize then 1 else 0,
        ((dataBytes s.disk cells).drop offset).take len), s) := by
  have size64 : clusterSize = 64 := rfl
  have part64 : offset % clusterSize < clusterSize := Nat.mod_lt _ (by decide)
  obtain ⟨front, curr, post, shape, count, split⟩ :=
    cells_at (k := offset / clusterSize) (rfl : cells ++ [marker] = cells ++ [marker])
      (by rw [size64] at before ⊢; omega)
  have whole : cells ++ [marker] = front ++ curr :: (post ++ [marker]) := by
    rw [shape]
    simp
  have start' : (front ++ [curr]).headD 0 = start := by
    rw [← headed, whole]
    cases front <;> rfl
  have inFront : Passes link front := fun c member => links c (by rw [split]; simp [member])
  have behind : Passes link (curr :: post) := fun c member => links c (by
    rw [split]
    rcases List.mem_cons.mp member with rfl | later
    · simp
    · simp [later])
  have readBehind : Passes data post := fun c member => reads c (by rw [split]; simp [member])
  rw [whole] at path
  have steps := followClustersTested_run front curr (post ++ [marker]) [] path inFront
  rw [count, start'] at steps
  have currSmall := path.count curr (by simp)
  have offsets : offset = clusterSize * front.length + offset % clusterSize := by
    rw [count]
    exact (Nat.div_add_mod offset clusterSize).symm
  have dropped : (dataBytes s.disk cells).drop offset =
      (clusterBytes s.disk curr).drop (offset % clusterSize) ++ dataBytes s.disk post := by
    conv_lhs => rw [split, offsets]
    exact drop_dataBytes _ _ _ _ (by omega)
  have read := readCluster_run (k := offset % clusterSize)
    (n := min len (clusterSize - offset % clusterSize)) s currSmall (by omega)
  have part := readCluster_part s.disk curr (k := offset % clusterSize)
    (n := min len (clusterSize - offset % clusterSize)) (by omega)
  have rest : ((clusterBytes s.disk curr).drop (offset % clusterSize)).length =
      clusterSize - offset % clusterSize := by
    rw [List.length_drop, length_clusterBytes]
  have count' : clusterCount = 4095 := rfl
  have modulus : wordModulus = 2 ^ 32 := rfl
  have total : cells.length = front.length + 1 + post.length := by
    rw [split]
    simp
    omega
  unfold readRange
  rw [if_neg (by rw [Nat.mod_eq_of_lt (by omega)]; omega)]
  dsimp only
  rw [run_bind steps, run_bind (reads curr (by rw [split]; simp) s), run_bind read, part, dropped,
    List.take_append, rest]
  by_cases short : len ≤ clusterSize - offset % clusterSize
  · rw [if_pos short, if_pos short, Nat.min_eq_left short, Nat.sub_eq_zero_of_le short, List.take_zero,
      List.append_nil]
    rfl
  · have full : min len (clusterSize - offset % clusterSize) = clusterSize - offset % clusterSize := by
      omega
    have word' : len + clusterSize < wordModulus := by
      rw [size64] at inside ⊢
      omega
    have stored : len - (clusterSize - offset % clusterSize) ≤ clusterSize * post.length := by
      rw [total] at inside
      rw [size64] at *
      omega
    have loop := readLoopTested_run (len + 1) front curr post marker
      (clusterSize - offset % clusterSize) path behind readBehind (by omega) word' (by omega) stored
    rw [if_neg short, if_neg short, full, run_bind loop]
    have all : ((clusterBytes s.disk curr).drop (offset % clusterSize)).take len =
        (clusterBytes s.disk curr).drop (offset % clusterSize) := List.take_of_length_le (by omega)
    rw [all, List.take_of_length_le (Nat.le_of_eq rest)]
    rfl

/-! ## Behind the search for the file -/

/-- The root folder can be loaded, and these are its records. -/
def Loads (s : Fs) (others : List (Nat × Nat)) (rs : List Record) : Prop :=
  Completes loadRootFolder s fun _ s' => ∃ heap root files,
    s' = { s with heap := heap, root := root } ∧ Loaded s' others files rs ∧ Kept others s.heap heap

theorem withFile_meets {α : Type} {f : Nat → Nat → Kernel α} {filename : CString} {rs : List Record}
    {allowed : Stop → Prop} {post : α → Fs → Prop} (loads : Loads s others rs)
    (short : filename.bytes.length < fileNameLen) (found : rs.findIdx? (Named filename) = some i)
    (small : i < rs.length) (full : allowed .outOfMemory)
    (rest : ∀ heap, Owned heap others → Kept others s.heap heap →
      Meets allowed (f rs[i].startCluster rs[i].size) { s with heap := heap, root := 0 } post) :
    Meets allowed (withFile filename f) s post := by
  unfold withFile
  apply meets_call (meets_allow loads fun _ same => same ▸ full)
  rintro _ _ ⟨heap, root, files, rfl, loaded, kept⟩
  obtain ⟨freed, discard, owned, keptFreed, records⟩ := freeRootDir_loaded loaded
  have start := fileStartClusterIndex_run (s := { s with heap := freed, root := 0 }) records small
  have size := fileSize_run (s := { s with heap := freed, root := 0 }) records small
  have search := getFile_run loaded.folder short
  rw [found] at search
  rw [meets_next search, meets_next discard, filePointer, meets_next start, meets_next size]
  exact rest freed owned (kept_trans kept keptFreed)

/-- Two programs that do the same behind the search. -/
theorem withFile_agree {α : Type} {f g : Nat → Nat → Kernel α} {filename : CString} {rs : List Record}
    (loads : Loads s others rs) (short : filename.bytes.length < fileNameLen)
    (found : rs.findIdx? (Named filename) = some i) (small : i < rs.length)
    (same : ∀ heap, f rs[i].startCluster rs[i].size { s with heap := heap, root := 0 } =
      g rs[i].startCluster rs[i].size { s with heap := heap, root := 0 }) :
    withFile filename f s = withFile filename g s := by
  unfold withFile
  apply bind_agree
  intro _ s1 load
  obtain ⟨heap, root, files, rfl, loaded, _⟩ := completes_result loads load
  obtain ⟨freed, discard, _, _, records⟩ := freeRootDir_loaded loaded
  have start := fileStartClusterIndex_run (s := { s with heap := freed, root := 0 }) records small
  have size := fileSize_run (s := { s with heap := freed, root := 0 }) records small
  have search := getFile_run loaded.folder short
  rw [found] at search
  rw [run_bind search, run_bind search, run_bind discard, run_bind discard, filePointer, run_bind start,
    run_bind start, run_bind size, run_bind size]
  exact same freed

/-- A range inside the data clusters of an existing file. -/
theorem read_run (filename : CString) (offset len : Nat) (parked : Parked s others)
    (catalog : Catalog s.disk dir es lost)
    (found : position (normalizeFilename filename) es = some i) (small : i < es.length)
    (range : offset + len ≤ es[i].record.size)
    (inside : offset + len ≤ clusterSize * es[i].data.length) (before : offset < clusterSize * es[i].data.length) :
    Completes (Source.read filename offset len) s fun p s' =>
      ∃ heap, s' = { s with heap := heap, root := 0 } ∧ Owned heap others ∧ Kept others s.heap heap ∧
        p.2 = ((dataBytes s.disk es[i].data).drop offset).take len := by
  have placed := catalog.files _ (List.getElem_mem small)
  obtain ⟨front, p, marker, chain⟩ := placed_chain placed
  have dataShape : es[i].data = front ++ [p] := by rw [Entry.data, chain.shape, List.dropLast_concat]
  have shape : es[i].cells = es[i].data ++ [marker] := by rw [dataShape, chain.shape]
  have volume := catalog_front catalog small
  have path := volume_path volume
  have headed : (es[i].data ++ [marker]).headD 0 = es[i].record.startCluster := by
    rw [chain.start, dataShape]
    cases front <;> rfl
  have few := lowFree_eq volume
  rw [List.flatten_cons, shape] at few
  simp only [List.length_append, List.length_singleton] at few
  have count : takenCluster < clusterCount := by decide
  rw [shape] at path
  have records : (es.map Entry.record).length = es.length := List.length_map _
  rw [← readGuarded_none]
  unfold readGuarded
  refine withFile_meets (loadCatalog_run parked catalog) (normalizeFilename_short filename)
    (by rw [findIdx_record, found]) (by rwa [records]) rfl ?_
  intro heap owned kept
  rw [List.getElem_map]
  have run := readRange_run (s := { s with heap := heap, root := 0 }) path headed (by omega)
    (passes_noTest _) (passes_noTest _) range (Record.size_lt _) inside before
  exact meets_run run ⟨heap, rfl, owned, kept, rfl⟩

end

end Delos.Invariants
