import Mathlib.Data.List.TakeWhile
import Delos.Invariants.FileContents
import Delos.Invariants.DiskDecoding

/-!
# Files on any disk

A disk on which the directory can be loaded and the chain of one file reaches EOF behind
enough clusters for its size, whatever the rest of the disk is like. `read` and `cat`
of that file use nothing but its data clusters.
-/
namespace Delos.Invariants
open Lib Source

/-- `r` is the record of an existing file, and its chain holds the file. -/
structure StoredFile (disk : ByteMemory) (filename : CString) (r : Record) : Prop where
  directory : ∃ cells rs, StoredDir disk cells rs ∧ rs.length ≤ maxFilesInOneCluster * clusterCount ∧
    rs.find? (Named (normalizeFilename filename)) = some r
  ends : ∃ marker ∈ (chainOf disk r.startCluster).getLast?, marker < clusterCount ∧
    fatValue disk marker = eofCluster
  enough : getClusterCountNeeded r.size ≤ (dataClusters disk r).length

section
variable {s : Fs} {others : List (Nat × Nat)} {filename : CString} {r : Record} {offset len : Nat}

theorem StoredFile.loads (parked : Parked s others) (stored : StoredFile s.disk filename r) :
    ∃ rs i, Loads s others rs ∧ rs.findIdx? (Named (normalizeFilename filename)) = some i ∧
      ∃ small : i < rs.length, rs[i] = r := by
  obtain ⟨cells, rs, dir, few, found⟩ := stored.directory
  obtain ⟨named, i, small, here, before⟩ := List.find?_eq_some_iff_getElem.mp found
  have room : maxFilesInOneCluster * clusterCount = 8190 := by decide
  have walk := dirClusters_div (show rs.length < 2 ^ 27 by omega)
  refine ⟨rs, i, ?_, ?_, small, here⟩
  · apply meets_mono (loadStored_run (discards_parked parked) dir (by omega) (by unfold walkBound; omega))
    rintro _ s' ⟨heap, root, files, same, loaded, kept, _⟩
    exact ⟨heap, root, files, same, loaded, kept⟩
  · refine List.findIdx?_eq_some_iff_getElem.mpr ⟨small, by rwa [here], fun j less => ?_⟩
    exact Bool.not_eq_true _ ▸ (Bool.not_eq_true' _).mp (before j less)

/-- The data clusters up to the marker. -/
theorem StoredFile.chain (stored : StoredFile s.disk filename r) :
    ∃ marker, marker < clusterCount ∧ fatValue s.disk marker = eofCluster ∧
      Path s.disk (dataClusters s.disk r ++ [marker]) ∧
      (dataClusters s.disk r ++ [marker]).headD 0 = r.startCluster ∧
      (dataClusters s.disk r).length ≤ clusterCount := by
  obtain ⟨marker, last, small, eof⟩ := stored.ends
  obtain ⟨path, head⟩ := walk_path clusterCount r.startCluster last small
  have shape : dataClusters s.disk r ++ [marker] = chainOf s.disk r.startCluster :=
    List.dropLast_append_getLast? marker last
  have few := length_walk s.disk clusterCount r.startCluster
  refine ⟨marker, small, eof, shape ▸ path, shape ▸ head, ?_⟩
  have whole := congrArg List.length shape
  rw [List.length_append, chainOf] at whole
  omega

theorem StoredFile.size_le (stored : StoredFile s.disk filename r) :
    r.size ≤ clusterSize * (dataClusters s.disk r).length := by
  have enough := stored.enough
  have size : clusterSize = 64 := rfl
  unfold getClusterCountNeeded at enough
  rw [size] at enough ⊢
  split at enough <;> omega

theorem StoredFile.length_contents (stored : StoredFile s.disk filename r) :
    (contents s.disk r).length = r.size := by
  rw [contents, List.length_take, length_dataBytes]
  exact Nat.min_eq_left stored.size_le

theorem StoredFile.start (stored : StoredFile s.disk filename r) : r.startCluster < fatValues := by
  obtain ⟨marker, _, _, path, head, _⟩ := stored.chain
  have small : (dataClusters s.disk r ++ [marker]).headD 0 < clusterCount := by
    apply path.count
    cases dataClusters s.disk r <;> simp
  rw [head] at small
  unfold clusterCount at small
  unfold fatValues
  omega

/-- A file of a disk with a catalog. -/
theorem catalog_stored {dir lost : List Nat} {es : List Entry} {disk : ByteMemory} {e : Entry}
    (catalog : Catalog disk dir es lost) (inside : e ∈ es)
    (named : e.record.name = (normalizeFilename filename).bytes)
    (enough : getClusterCountNeeded e.record.size ≤ e.data.length) : StoredFile disk filename e.record := by
  have directory := catalog.directory
  have few := (fits_iff _).mp directory.fits
  have room : maxFilesInOneCluster * clusterCount = 8190 := by decide
  obtain ⟨front, p, marker, chain⟩ := placed_chain (catalog.files e inside)
  have low := volume_flatten_count catalog.volume marker
    (List.mem_append_right _ (cells_subset inside (by rw [chain.shape]; simp)))
  refine ⟨⟨dir, es.map Entry.record, ?_, by omega, ?_⟩, ⟨marker, ?_, low, chain.eof⟩, ?_⟩
  · exact storedDir_fits (s := ⟨disk, disk, disk, 0, []⟩) catalog.volume directory.ends directory.length
      directory.stored directory.fits
  · obtain ⟨r, found⟩ : ∃ r, (es.map Entry.record).find? (Named (normalizeFilename filename)) = some r := by
      apply Option.isSome_iff_exists.mp
      rw [List.find?_isSome]
      exact ⟨e.record, List.mem_map.mpr ⟨e, inside, rfl⟩, decide_eq_true named⟩
    obtain ⟨e', inside', rfl⟩ := List.mem_map.mp (List.mem_of_find?_eq_some found)
    have named' : e'.record.name = (normalizeFilename filename).bytes :=
      of_decide_eq_true (List.find?_some found :)
    rw [found, List.inj_on_of_nodup_map catalog.names inside inside' (named.trans named'.symm)]
  · rw [catalog_file catalog inside, chain.shape]
    simp
  · rwa [catalog_data catalog inside]

/-! ## Reading -/

/-- Behind the search, for a range that is not empty. -/
theorem StoredFile.range {link data : Nat → Kernel Unit} {heap : ByteMemory} {root : Nat}
    (stored : StoredFile s.disk filename r) (links : Passes link (dataClusters s.disk r))
    (reads : Passes data (dataClusters s.disk r)) (inside : offset + len ≤ r.size) (positive : 0 < len) :
    readRange link data offset len r.startCluster r.size { s with heap := heap, root := root } =
      .ok ((if len ≤ clusterSize - offset % clusterSize then 1 else 0,
        ((contents s.disk r).drop offset).take len), { s with heap := heap, root := root }) := by
  obtain ⟨marker, _, _, path, head, few⟩ := stored.chain
  have size := stored.size_le
  have part : ((contents s.disk r).drop offset).take len =
      ((dataBytes s.disk (dataClusters s.disk r)).drop offset).take len := by
    rw [contents, List.drop_take, List.take_take, Nat.min_eq_left (by omega)]
  rw [part]
  exact readRange_run (s := { s with heap := heap, root := root }) path head few links reads inside
    (Record.size_lt r) (by omega) (by omega)

theorem readStored_run (parked : Parked s others) (stored : StoredFile s.disk filename r)
    (inside : offset + len ≤ r.size) :
    Completes (Source.read filename offset len) s fun p s' => ∃ heap,
      s' = { s with heap := heap, root := 0 } ∧ Kept others s.heap heap ∧
      p.1 = (if len ≤ clusterSize - offset % clusterSize then 1 else 0) ∧
      p.2 = ((contents s.disk r).drop offset).take len := by
  obtain ⟨rs, i, loads, found, small, rfl⟩ := stored.loads parked
  rw [← readGuarded_none]
  unfold readGuarded
  refine withFile_meets loads (normalizeFilename_short filename) found small rfl ?_
  intro heap _ kept
  cases len with
  | zero =>
    have word := Record.size_lt rs[i]
    have passed : (offset + 0) % wordModulus ≤ rs[i].size := by
      rw [Nat.mod_eq_of_lt (Nat.lt_of_le_of_lt inside word)]
      exact inside
    rcases readRange_window (s := { s with heap := heap, root := 0 }) stored.start passed with
      ⟨bytes, _, count, run⟩ | ⟨more, _⟩
    · obtain rfl := List.eq_nil_of_length_eq_zero (count (Nat.zero_le _))
      exact meets_run run ⟨heap, rfl, kept, rfl, List.take_zero.symm⟩
    · exact absurd more (Nat.not_lt_zero _)
  | succ n =>
    exact meets_run (stored.range (passes_noTest _) (passes_noTest _) inside (Nat.succ_pos n))
      ⟨heap, rfl, kept, rfl, rfl⟩

/-- A test that passes for the data clusters makes no difference. -/
theorem readStored_agree {link data : Nat → Kernel Unit} (parked : Parked s others)
    (stored : StoredFile s.disk filename r) (links : Passes link (dataClusters s.disk r))
    (reads : Passes data (dataClusters s.disk r)) (inside : offset + len ≤ r.size) (positive : 0 < len) :
    readGuarded link data filename offset len s = Source.read filename offset len s := by
  obtain ⟨rs, i, loads, found, small, rfl⟩ := stored.loads parked
  rw [← readGuarded_none]
  unfold readGuarded
  apply withFile_agree loads (normalizeFilename_short filename) found small
  intro heap
  rw [stored.range links reads inside positive, stored.range (passes_noTest _) (passes_noTest _) inside positive]

/-- A read that the test of its bounds refuses. -/
theorem readStored_refused (parked : Parked s others) (stored : StoredFile s.disk filename r)
    (beyond : r.size < (offset + len) % wordModulus) :
    Completes (Source.read filename offset len) s (fun p _ => p = (1, [])) ∧
    ∀ link, readGuarded link noTest filename offset len s = Source.read filename offset len s := by
  obtain ⟨rs, i, loads, found, small, rfl⟩ := stored.loads parked
  have short := normalizeFilename_short filename
  rw [← readGuarded_none]
  unfold readGuarded
  constructor
  · refine withFile_meets loads short found small rfl fun heap _ _ => ?_
    obtain ⟨screen, run⟩ := readRange_refused (s := { s with heap := heap, root := 0 }) noTest noTest
      rs[i].startCluster beyond
    exact meets_run run rfl
  · intro link
    apply withFile_agree loads short found small
    intro heap
    unfold readRange
    rw [if_pos beyond, if_pos beyond]

/-- A read that the test lets pass copies from its first cluster, wherever that is. -/
theorem readStored_passed (parked : Parked s others) (stored : StoredFile s.disk filename r)
    (passed : (offset + len) % wordModulus ≤ r.size) :
    Meets (fun e => e = .outOfMemory ∨ e = .endless) (Source.read filename offset len) s
      fun p _ => min len (clusterSize - offset % clusterSize) ≤ p.2.length := by
  obtain ⟨rs, i, loads, found, small, rfl⟩ := stored.loads parked
  rw [← readGuarded_none]
  unfold readGuarded
  refine withFile_meets loads (normalizeFilename_short filename) found small (.inl rfl) fun heap _ _ => ?_
  rcases readRange_window (s := { s with heap := heap, root := 0 }) stored.start passed with
    ⟨bytes, copied, _, run⟩ | ⟨_, endless⟩
  · exact meets_run run copied
  · unfold Meets
    rw [endless]
    exact .inr rfl

/-! ## Printing -/

/-- The test passes as long as the bytes are those of `file_buffer`. -/
def PassesInside (store : Nat → Kernel Unit) : Prop :=
  ∀ stop ≤ screenBufferSize, ∀ s, store stop s = .ok ((), s)

theorem passesInside_noTest : PassesInside noTest := fun _ _ _ => rfl

theorem passesInside_insideBuffer : PassesInside insideBuffer := fun stop inside s => by
  rw [insideBuffer, if_pos inside]
  rfl

/-- What the loop prints and leaves in the buffer is what was in it and what was missing. -/
structure Printed (rest : List UInt8) (whole : List UInt8) (texts : List (List UInt8)) : Prop where
  bytes : texts.flatten ++ rest = whole
  short : ∀ text ∈ texts, text.length < screenBufferSize
  fits : rest.length < screenBufferSize

theorem upToNul_whole {bytes : List UInt8} (noNul : 0 ∉ bytes) : upToNul bytes = bytes := by
  refine List.takeWhile_eq_self_iff.mpr fun byte inside => decide_eq_true ?_
  rintro rfl
  exact noNul inside

/-- What is printed before the next bytes are stored, and what stays in the buffer. -/
def flushed (buffer : List UInt8) (n : Nat) : List (List UInt8) × List UInt8 :=
  if buffer.length + n ≥ screenBufferSize then ([buffer], []) else ([], buffer)

theorem flush_run {store : Nat → Kernel Unit} {buffer : List UInt8} (n : Nat) (passes : PassesInside store)
    (fits : buffer.length < screenBufferSize) (noNul : 0 ∉ buffer) :
    doIf (decide (buffer.length + n ≥ screenBufferSize) = true) (do
        store (buffer.length + 1)
        emit (.kprintfBytes (upToNul buffer))) s =
      .ok ((), { s with screen := s.screen ++ (flushed buffer n).1.map .kprintfBytes }) := by
  unfold doIf flushed
  by_cases full : buffer.length + n ≥ screenBufferSize
  · rw [if_pos (decide_eq_true full), if_pos full, run_bind (passes _ fits s), upToNul_whole noNul]
    rfl
  · rw [if_neg (by simpa using full), if_neg full]
    simp only [List.map_nil, List.append_nil]
    rfl

/-- One turn of the loop. -/
theorem catLoopTested_step {store : Nat → Kernel Unit} {size c readBytes : Nat} {buffer : List UInt8}
    (passes : PassesInside store) (bound : Nat) (small : c < clusterCount)
    (notEof : fatValue s.disk c ≠ eofCluster) (fits : buffer.length < screenBufferSize) (noNul : 0 ∉ buffer)
    (some : readBytes ≤ size) (word : size < wordModulus) :
    catLoopTested store size (bound + 1) c readBytes buffer s =
      catLoopTested store size bound (fatValue s.disk c) (readBytes + min clusterSize (size - readBytes))
        ((flushed buffer (min clusterSize (size - readBytes))).2 ++
          (clusterBytes s.disk c).take (min clusterSize (size - readBytes)))
        { s with screen := s.screen ++
          (flushed buffer (min clusterSize (size - readBytes))).1.map .kprintfBytes } := by
  have left : (size + wordModulus - readBytes) % wordModulus = size - readBytes := by
    unfold wordModulus at *
    omega
  have progress : (readBytes + min clusterSize (size - readBytes)) % wordModulus =
      readBytes + min clusterSize (size - readBytes) := Nat.mod_eq_of_lt (by omega)
  have flush := flush_run (s := s) (min clusterSize (size - readBytes)) passes fits noNul
  have buffered : (if decide (buffer.length + min clusterSize (size - readBytes) ≥ screenBufferSize) = true
      then [] else buffer) = (flushed buffer (min clusterSize (size - readBytes))).2 := by
    unfold flushed
    by_cases full : buffer.length + min clusterSize (size - readBytes) ≥ screenBufferSize
    · rw [if_pos (decide_eq_true full), if_pos full]
    · rw [if_neg (by simpa using full), if_neg full]
  have inside : (flushed buffer (min clusterSize (size - readBytes))).2.length +
      min clusterSize (size - readBytes) ≤ screenBufferSize := by
    have narrow : clusterSize ≤ screenBufferSize := by decide
    unfold flushed
    split
    · rw [List.length_nil]
      omega
    · dsimp only
      omega
  have read := readCluster_run (k := 0) (n := min clusterSize (size - readBytes))
    { s with screen := s.screen ++ (flushed buffer (min clusterSize (size - readBytes))).1.map .kprintfBytes }
    small (by omega)
  have part := readCluster_part s.disk c (k := 0) (n := min clusterSize (size - readBytes)) (by omega)
  rw [Nat.add_zero] at read part
  rw [List.drop_zero] at part
  rw [catLoopTested, run_bind (fat_run s small), if_pos notEof]
  dsimp only
  rw [left, run_bind flush, buffered, run_bind (passes _ inside _), run_bind read, progress, part]

theorem flushed_bytes (buffer : List UInt8) (n : Nat) :
    (flushed buffer n).1.flatten ++ (flushed buffer n).2 = buffer := by
  unfold flushed
  split <;> simp

theorem length_flushed (buffer : List UInt8) {n : Nat} (small : n < screenBufferSize) :
    (flushed buffer n).2.length + n < screenBufferSize := by
  unfold flushed
  split
  · rw [List.length_nil]
    omega
  · dsimp only
    omega

theorem flushed_short {buffer : List UInt8} (n : Nat) (fits : buffer.length < screenBufferSize) :
    ∀ text ∈ (flushed buffer n).1, text.length < screenBufferSize := by
  unfold flushed
  split <;> simp [fits]

/-- Along the data clusters that are left, with what is in the buffer. -/
theorem catLoopTested_run {size : Nat} (bound : Nat) (post : List Nat) (marker readBytes : Nat)
    (buffer : List UInt8) (eof : fatValue s.disk marker = eofCluster) (path : Path s.disk (post ++ [marker]))
    (enough : post.length < bound) (fits : buffer.length < screenBufferSize) (some : readBytes ≤ size)
    (word : size < wordModulus) (stored : size - readBytes ≤ clusterSize * post.length)
    (noNul : 0 ∉ buffer ++ (dataBytes s.disk post).take (size - readBytes)) :
    ∃ texts rest, (∀ store, PassesInside store →
        catLoopTested store size bound ((post ++ [marker]).headD 0) readBytes buffer s =
          .ok (rest, { s with screen := s.screen ++ texts.map .kprintfBytes })) ∧
      Printed rest (buffer ++ (dataBytes s.disk post).take (size - readBytes)) texts := by
  induction bound generalizing s post readBytes buffer with
  | zero => omega
  | succ bound ih =>
    cases post with
    | nil =>
      rw [List.length_nil] at stored
      have small := path.count marker (by simp)
      refine ⟨[], buffer, fun store _ => ?_, ?_, by simp, fits⟩
      · rw [List.nil_append, List.headD_cons, catLoopTested, run_bind (fat_run s small), eof,
          if_neg (not_not.mpr rfl), List.map_nil, List.append_nil]
        rfl
      · rw [Nat.sub_eq_zero_of_le (by omega), List.take_zero, List.append_nil, List.flatten_nil, List.nil_append]
    | cons c rest =>
      obtain ⟨next, tail, shape⟩ : ∃ next tail, rest ++ [marker] = next :: tail :=
        List.exists_cons_of_ne_nil (by simp)
      have links := path
      rw [List.cons_append, shape] at links
      obtain ⟨small, _, link, notEof⟩ := path_link_at [] c next tail links
      have clean : 0 ∉ buffer := fun inside => noNul (List.mem_append_left _ inside)
      have step := fun store (passes : PassesInside store) =>
        catLoopTested_step passes bound small (link ▸ notEof) fits clean some word
      rw [take_dataBytes] at noNul ⊢
      rw [link] at step
      generalize amount : min clusterSize (size - readBytes) = n at step noNul ⊢
      have further : size - readBytes - clusterSize = size - (readBytes + n) := by omega
      rw [further] at noNul ⊢
      have taken : ((clusterBytes s.disk c).take n).length ≤ n := List.length_take_le _ _
      have narrow : n < screenBufferSize := by
        have : clusterSize < screenBufferSize := by decide
        omega
      have kept := length_flushed buffer narrow
      have left : size - (readBytes + n) ≤ clusterSize * rest.length := by
        rw [List.length_cons, Nat.mul_add_one] at stored
        omega
      have head : (rest ++ [marker]).headD 0 = next := by rw [shape, List.headD_cons]
      have whole := flushed_bytes buffer n
      obtain ⟨texts, buffer', run, printed⟩ := ih
        (s := { s with screen := s.screen ++ (flushed buffer n).1.map .kprintfBytes })
        rest (readBytes + n) ((flushed buffer n).2 ++ (clusterBytes s.disk c).take n) eof
        ⟨path.linked.tail, fun d member => path.count d (List.mem_cons_of_mem _ member)⟩
        (by rw [List.length_cons] at enough; omega) (by rw [List.length_append]; omega) (by omega)
        left (fun inside => noNul (by
          rw [← whole]
          simp only [List.mem_append] at inside ⊢
          tauto))
      rw [head] at run
      refine ⟨(flushed buffer n).1 ++ texts, buffer', fun store passes => ?_, ?_, ?_, printed.fits⟩
      · rw [List.cons_append, List.headD_cons, step store passes, run store passes, List.map_append,
          List.append_assoc]
      · rw [List.flatten_append, List.append_assoc, printed.bytes]
        conv_rhs => rw [← whole]
        simp only [List.append_assoc]
      · intro text inside
        rcases List.mem_append.mp inside with early | later
        · exact flushed_short n fits text early
        · exact printed.short text later

/-- `cat` behind the search for the file. -/
theorem printFile_run {cells : List Nat} {marker size : Nat} (eof : fatValue s.disk marker = eofCluster)
    (path : Path s.disk (cells ++ [marker])) (few : cells.length ≤ clusterCount) (word : size < wordModulus)
    (stored : size ≤ clusterSize * cells.length) (noNul : 0 ∉ (dataBytes s.disk cells).take size) :
    ∃ texts : List (List UInt8), (∀ store, PassesInside store →
        printFile store ((cells ++ [marker]).headD 0) size s =
          .ok (0, { s with screen := s.screen ++ texts.map .kprintfBytes })) ∧
      texts.flatten = (dataBytes s.disk cells).take size ∧ ∀ text ∈ texts, text.length < screenBufferSize := by
  obtain ⟨texts, rest, loop, printed⟩ := catLoopTested_run walkBound cells marker 0 [] eof path
    (Nat.lt_of_le_of_lt few (by decide)) (by decide) (Nat.zero_le _) word stored noNul
  have bytes : texts.flatten ++ rest = (dataBytes s.disk cells).take size := printed.bytes
  have clean : 0 ∉ rest := fun inside => noNul (bytes ▸ List.mem_append_right _ inside)
  refine ⟨texts ++ [rest], fun store passes => ?_, by simpa using bytes, fun text inside => ?_⟩
  · rw [printFile, run_bind (loop store passes), run_bind (passes _ printed.fits _), upToNul_whole clean, List.map_append,
      ← List.append_assoc]
    rfl
  · rcases List.mem_append.mp inside with early | last
    · exact printed.short text early
    · rw [List.mem_singleton.mp last]
      exact printed.fits

theorem StoredFile.printed (stored : StoredFile s.disk filename r) (noNul : 0 ∉ contents s.disk r)
    (heap : ByteMemory) :
    ∃ texts : List (List UInt8), (∀ store, PassesInside store →
        printFile store r.startCluster r.size { s with heap := heap, root := 0 } =
          .ok (0, { s with heap := heap, root := 0, screen := s.screen ++ texts.map .kprintfBytes })) ∧
      texts.flatten = contents s.disk r ∧ ∀ text ∈ texts, text.length < screenBufferSize := by
  obtain ⟨marker, _, eof, path, head, few⟩ := stored.chain
  have printed := printFile_run (s := { s with heap := heap, root := 0 }) eof path few (Record.size_lt r)
    stored.size_le noNul
  rwa [head] at printed

theorem printFound_run {heap : ByteMemory} {root files i : Nat} {rs : List Record}
    (loaded : Loaded { s with heap := heap, root := root } others files rs) (small : i < rs.length)
    (stored : StoredFile s.disk filename rs[i]) (noNul : 0 ∉ contents s.disk rs[i]) :
    ∃ (freed : ByteMemory) (texts : List (List UInt8)), Kept others heap freed ∧
      (∀ store, PassesInside store → printFound store (fileAt files i) { s with heap := heap, root := root } =
        .ok (0, { s with heap := freed, root := 0, screen := s.screen ++ texts.map .kprintfBytes })) ∧
      texts.flatten = contents s.disk rs[i] ∧ ∀ text ∈ texts, text.length < screenBufferSize := by
  obtain ⟨freed, discard, _, kept, _⟩ := freeRootDir_loaded loaded
  obtain ⟨texts, printed, bytes, short⟩ := stored.printed noNul freed
  have start := fileStartClusterIndex_run loaded.records small
  have size := fileSize_run loaded.records small
  have nonzero : fileAt files i ≠ 0 := filePointer_nonzero loaded.records i
  refine ⟨freed, texts, kept, fun store passes => ?_, bytes, short⟩
  rw [printFound, if_neg nonzero, run_bind start, run_bind size, run_bind discard]
  exact printed store passes

/-- `cat` of a file prints its bytes, and a test that passes inside the buffer makes no difference. -/
theorem catStored_run (parked : Parked s others) (stored : StoredFile s.disk filename r)
    (noNul : 0 ∉ contents s.disk r) :
    Completes (cat filename) s (fun res s' => ∃ (heap : ByteMemory) (texts : List (List UInt8)),
      s' = { s with heap := heap, root := 0, screen := s.screen ++ texts.map .kprintfBytes } ∧
      Kept others s.heap heap ∧ res = 0 ∧ texts.flatten = contents s.disk r ∧
      ∀ text ∈ texts, text.length < screenBufferSize) ∧
    ∀ store, PassesInside store → catGuarded store filename s = cat filename s := by
  obtain ⟨rs, i, loads, found, small, rfl⟩ := stored.loads parked
  have short := normalizeFilename_short filename
  simp only [← catGuarded_none]
  unfold catGuarded
  constructor
  · apply meets_call loads
    rintro _ _ ⟨heap, root, files, rfl, loaded, kept⟩
    obtain ⟨freed, texts, keptFreed, run, bytes, shortTexts⟩ := printFound_run loaded small stored noNul
    have search := getFile_run loaded.folder short
    rw [found] at search
    rw [meets_next search, filePointer]
    exact meets_run (run noTest passesInside_noTest)
      ⟨freed, texts, rfl, kept_trans kept keptFreed, rfl, bytes, shortTexts⟩
  · intro store passes
    apply bind_agree
    intro _ s1 load
    obtain ⟨heap, root, files, rfl, loaded, _⟩ := completes_result loads load
    obtain ⟨freed, texts, _, run, _⟩ := printFound_run loaded small stored noNul
    have search := getFile_run loaded.folder short
    rw [found] at search
    rw [run_bind search, run_bind search, filePointer, run store passes, run noTest passesInside_noTest]

end

end Delos.Invariants
