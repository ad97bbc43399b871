import Delos.Invariants.FileArrays

/-!
# Creating a file

`create_file` builds the longer array, takes the first cluster and the EOF
cluster of the new file and installs the array. The two clusters and those of
the longer directory have to be free.
-/
namespace Delos.Invariants
open Lib Source

/-- What the fields of a new record say. -/
structure NewRecord (filename : CString) (start : Nat) (r : Record) : Prop where
  name : r.name = filename.bytes
  startCluster : r.startCluster = start
  size : r.size = 0
  closed : r.isOpen = false

section
variable {s : Fs} {others live : List (Nat × Nat)} {files new : Nat} {dir lost : List Nat}
  {rs a : List Record} {chains : List (List Nat)} {es : List Entry} {filename : CString}

/-- The array of a folder with one record appended. -/
theorem append_of_getElem? (length : a.length = rs.length + 1)
    (front : ∀ j < rs.length, a[j]? = rs[j]?) :
    ∃ r, a = rs ++ [r] := by
  have last : rs.length < a.length := by omega
  refine ⟨a[rs.length], List.ext_getElem? fun j => ?_⟩
  rcases Nat.lt_trichotomy j rs.length with small | rfl | large
  · rw [front j small, List.getElem?_append_left small]
  · rw [List.getElem?_append_right (Nat.le_refl _), Nat.sub_self, List.getElem?_eq_getElem last]
    rfl
  · rw [List.getElem?_eq_none (by omega), List.getElem?_eq_none (by
      rw [List.length_append, List.length_singleton]
      omega)]

/-- Writing a field of the record behind the copied ones. -/
theorem writeLast_run (k : Nat) {r : Record} (bytes : List UInt8)
    (buffered : Buffered s.heap live new (rs ++ [r])) (fits : k + bytes.length ≤ fileRecordSize) :
    ∃ heap, writeMemory (fileAt new rs.length + k) bytes s = .ok ((), { s with heap := heap }) ∧
      Buffered heap live new (rs ++ [r.overwrite k bytes fits]) ∧
      SameBeyond [(new, (rs.length + 1) * fileRecordSize)] s.heap heap := by
  have small : rs.length < (rs ++ [r]).length := by
    rw [List.length_append, List.length_singleton]
    exact Nat.lt_succ_self _
  obtain ⟨heap, write, after, same⟩ := writeBuffered_run buffered small fits
  rw [List.length_append, List.length_singleton] at same
  refine ⟨heap, write, ?_, same⟩
  rw [List.set_append_right _ _ (Nat.le_refl _), Nat.sub_self, List.set_cons_zero] at after
  rw [List.getElem_append_right (Nat.le_refl _)] at after
  simpa using after

/-- Reading a field of that record. -/
theorem readLast_run {k len : Nat} {r : Record} (buffered : Buffered s.heap live new (rs ++ [r]))
    (fits : k + len ≤ fileRecordSize) :
    readMemory (fileAt new rs.length + k) len s = .ok (r.field k len, s) := by
  have small : rs.length < (rs ++ [r]).length := by
    rw [List.length_append, List.length_singleton]
    exact Nat.lt_succ_self _
  rw [readField_run buffered.records small fits, List.getElem_append_right (Nat.le_refl _)]
  simp

theorem setLastFlag_run {r : Record} (bit : Nat) (v : Bool)
    (buffered : Buffered s.heap live new (rs ++ [r])) :
    ∃ heap, setFileFlag bit (fileAt new rs.length) v s = .ok ((), { s with heap := heap }) ∧
      Buffered heap live new (rs ++ [r.setFlag bit v]) ∧
      SameBeyond [(new, (rs.length + 1) * fileRecordSize)] s.heap heap := by
  unfold setFileFlag
  rw [run_bind (readLast_run buffered (by decide))]
  exact writeLast_run _ _ buffered _

/-- The fields of the record that are filled in before a cluster is taken. -/
theorem writeNewRecord_run {r : Record} (short : filename.bytes.length < fileNameLen)
    (buffered : Buffered s.heap live new (rs ++ [r])) {f : Unit → Kernel Unit} {post : Unit → Fs → Prop}
    (rest : ∀ heap r', Buffered heap live new (rs ++ [r']) →
      SameBeyond [(new, (rs.length + 1) * fileRecordSize)] s.heap heap → r'.name = filename.bytes →
        r'.size = 0 → r'.isOpen = false → r'.isSystem = false →
      Completes (f ()) { s with heap := heap } post) :
    Completes (do
      strcpy (fileAt new rs.length) filename
      setFileSize (fileAt new rs.length) 0
      setFileOpen (fileAt new rs.length) false
      let p ← setFileSystem (fileAt new rs.length) false
      f p) s post := by
  have nonzero : fileAt new rs.length ≠ 0 := by
    have low := buffered.records.low
    have positive : 0 < kernelHeap.addr := by decide
    unfold fileAt
    omega
  have fits : 0 + (filename.bytes ++ [0, 0]).length ≤ fileRecordSize := by
    unfold fileNameLen at short
    unfold fileRecordSize
    rw [List.length_append]
    simp only [List.length_cons, List.length_nil]
    omega
  obtain ⟨named, name, buffered, same⟩ := writeLast_run _ _ buffered fits
  obtain ⟨sized, size, buffered, sameSize⟩ := writeLast_run (s := { s with heap := named }) 20
    (ByteMemory.leBytes 4 0) buffered (by decide)
  obtain ⟨closed, close, buffered, sameOpen⟩ :=
    setLastFlag_run (s := { s with heap := sized }) 0 false buffered
  obtain ⟨free, user, buffered, sameSystem⟩ :=
    setLastFlag_run (s := { s with heap := closed }) 1 false buffered
  unfold Completes
  rw [meets_next (show strcpy (fileAt new rs.length) filename s = _ by
    rw [strcpy, if_neg nonzero]; exact name)]
  rw [meets_next (show setFileSize (fileAt new rs.length) 0 { s with heap := named } = _ from size)]
  rw [meets_next (show setFileOpen (fileAt new rs.length) false { s with heap := sized } = _ from close)]
  rw [meets_next (show setFileSystem (fileAt new rs.length) false { s with heap := closed } = _ from user)]
  have all := sameBeyond_trans same (sameBeyond_trans sameSize (sameBeyond_trans sameOpen sameSystem))
  refine rest free _ buffered all ?_ ?_ ?_ ?_
  · rw [Record.name_setFlag, Record.name_setFlag]
    exact (Record.name_setSize _ _).trans (Record.name_overwrite_start _ _ filename.plain short _)
  · rw [Record.size_setFlag, Record.size_setFlag]
    exact Record.size_setSize _ (v := 0) (by decide)
  · rw [Record.isOpen_setFlag_system, Record.isOpen_setFlag_open]
  · rw [Record.isSystem_setFlag_system]

theorem createFile_run (loaded : Loaded s others files rs)
    (short : filename.bytes.length < fileNameLen) (volume : Volume s.disk chains lost)
    (room : 2 ≤ lowFree s.disk) (few : rs.length < 2 ^ 16) :
    Completes (createFile filename) s fun _ s' => ∃ heap disk new start eof r,
      s' = { s with heap := heap, disk := disk } ∧ Loaded s' others new (rs ++ [r]) ∧
        Kept others s.heap heap ∧ ArrayReplaced s.heap s.root files new (rs.length + 1) heap ∧
        NewRecord filename start r ∧ r.isSystem = false ∧
        Volume disk ([start, eof] :: chains) lost ∧ Ends disk [start, eof] ∧
        SameOn chains.flatten s.disk disk ∧ lowFree disk + 2 = lowFree s.disk := by
  have enough : existsNFreeClusters 2 s = .ok (true, s) := by
    show Except.ok (existsNFreeClustersLoop s.disk 2 clusterCount 0 0, s) = _
    rw [(existsNFreeClusters_iff volume _).mpr (by omega)]
  have size : (rs.length + 1) * fileRecordSize % wordModulus = (rs.length + 1) * fileRecordSize := by
    unfold fileRecordSize wordModulus
    omega
  unfold createFile
  unfold Completes
  rw [meets_next enough, if_neg (by decide), meets_next (rootFileCount_run loaded.folder), size]
  refine meets_call (kmalloc_found loaded.owned
    (by unfold fileRecordSize blockHeaderSize wordModulus; omega)) ?_
  rintro new _ ⟨grown, rfl, owned, keptGrown, placed⟩
  have inner : (files, rs.length * fileRecordSize) ∈
      (files, rs.length * fileRecordSize) :: (s.root, folderSize) :: others := List.mem_cons_self
  have folder : Folder { s with heap := grown } files rs := by
    have kept := root_kept (kept_tail keptGrown)
    exact ⟨loaded.folder.rootLow, loaded.folder.rootHigh, kept.1.trans loaded.count,
      kept.2.trans loaded.pointer, Or.inr (records_kept loaded.records keptGrown inner)⟩
  rw [meets_next (rootFiles_run folder)]
  obtain ⟨a, length, buffered⟩ := buffered_fresh owned
  obtain ⟨copied, a, copy, length', buffered', front, sameCopied⟩ :=
    copyFiles_run (s := { s with heap := grown }) rs.length 0 (Nat.zero_add _) (by omega) buffered
      (records_kept loaded.records keptGrown inner) inner (fun j h => absurd h (Nat.not_lt_zero j))
  rw [length] at sameCopied
  obtain ⟨r, rfl⟩ := append_of_getElem? (length'.trans length) front
  rw [meets_next copy]
  dsimp only
  refine writeNewRecord_run (s := { s with heap := copied }) short buffered' ?_
  intro heap r' buffered same name size closed user
  obtain ⟨start, take, volume', sameTake⟩ := getFreeCluster_run (s := { s with heap := heap }) volume
    (by simp only; omega)
  have before := lowFree_eq volume
  have between := lowFree_eq volume'
  simp only [List.flatten_cons, List.length_append, List.length_singleton] at before between
  have small := volume_low volume' List.mem_cons_self List.mem_cons_self
  have word : start < wordModulus := by
    have : takenCluster < wordModulus := by decide
    omega
  obtain ⟨started, write, buffered, sameStart⟩ := writeLast_run
    (s := { s with heap := heap, disk := setFatValue s.disk start takenCluster }) 16
    (ByteMemory.leBytes 4 start) buffered (by rw [ByteMemory.length_leBytes]; decide)
  obtain ⟨eof, linked, disk, takeEof, link, mark, closedVolume, ends, sameEof, _, count⟩ :=
    closeChain_run (s := { s with heap := started, disk := setFatValue s.disk start takenCluster }) []
      start volume' (by simp only; omega)
  have read : ∀ disk', fileStartClusterIndex (fileAt new rs.length)
      { s with heap := started, disk := disk' } =
        .ok (start, { s with heap := started, disk := disk' }) := fun disk' => by
    unfold fileStartClusterIndex readWord
    rw [run_bind (readLast_run (s := { s with heap := started, disk := disk' }) buffered (by decide))]
    exact congrArg (fun v => Except.ok (v, _)) (Record.startCluster_setStartCluster r' start word)
  have length : ((rs ++ [r'.setStartCluster start]).length) = rs.length + 1 := by
    rw [List.length_append, List.length_singleton]
  obtain ⟨installed, install, loaded', keptInstall, sameInstall⟩ :=
    installFiles_run (s := { s with heap := started, disk := disk }) buffered
  rw [show (rs ++ [r'.overwrite 16 (ByteMemory.leBytes 4 start) _]).length = rs.length + 1 from length]
    at install
  refine (meets_next take).mpr ?_
  rw [meets_next (show setFileStartClusterIndex (fileAt new rs.length) start _ = _ from write)]
  rw [meets_next takeEof, meets_next (read _), meets_next link, meets_next mark]
  have stores := sameBeyond_trans sameCopied (sameBeyond_trans same sameStart)
  refine meets_run install ⟨installed, disk, new, start, eof, r'.setStartCluster start, rfl, loaded', ?_,
    ⟨grown, started, placed, stores, sameInstall⟩, ?_, ?_, closedVolume, ends, ?_, ?_⟩
  · exact kept_trans (kept_tail (kept_tail (kept_trans keptGrown (kept_beyond owned stores)))) keptInstall
  · exact ⟨(Record.name_setStartCluster _ _).trans name,
      Record.startCluster_setStartCluster _ _ word, (Record.size_setStartCluster _ _).trans size,
      (congrArg (flagBit · 0) (Record.flags_setStartCluster r' start)).trans closed⟩
  · exact (congrArg (flagBit · 1) (Record.flags_setStartCluster r' start)).trans user
  · exact sameOn_trans sameTake sameEof
  · simp only at count
    omega

/-- The clusters a new file takes, and those of the directory that names it. -/
structure CreateRoom (free fileCount : Nat) : Prop where
  file : 2 ≤ free
  directory : dirClusters (fileCount + 1) + 2 ≤ free + dirClusters fileCount
  fits : Fits (fileCount + 1)

instance (free fileCount : Nat) : Decidable (CreateRoom free fileCount) :=
  decidable_of_iff (2 ≤ free ∧ dirClusters (fileCount + 1) + 2 ≤ free + dirClusters fileCount ∧
      Fits (fileCount + 1))
    ⟨fun ⟨file, directory, fits⟩ => ⟨file, directory, fits⟩,
      fun ⟨file, directory, fits⟩ => ⟨file, directory, fits⟩⟩

/-- The result of `touch`. -/
inductive Touched (filename : CString) (es : List Entry) : Nat → List Entry → Prop
  | present (found : position filename es ≠ none) : Touched filename es 1 es
  | created (missing : position filename es = none) {start : Nat} (eof : Nat) {r : Record}
      (new : NewRecord filename start r) : Touched filename es 0 (es ++ [Entry.mk r [start, eof]])

/-- A file of a user on clusters that were free. -/
def NewFile (disk : ByteMemory) (e : Entry) : Prop :=
  e.record.isSystem = false ∧ ∀ c ∈ e.cells, fatValue disk c = freeCluster

theorem volume_fresh {disk disk' : ByteMemory} {cells : List Nat} {c : Nat}
    (volume : Volume disk chains lost) (grown : Volume disk' (cells :: chains) lost) (member : c ∈ cells) :
    fatValue disk c = freeCluster := by
  refine (volume.ledger.free c (volume_count grown List.mem_cons_self member)).mpr fun taken => ?_
  have apart := grown.ledger.apart
  rw [List.flatten_cons, List.append_assoc] at apart
  exact (List.disjoint_of_nodup_append apart) member taken

variable (filename) in
/-- With the result comes what happened to the folder in the heap. -/
theorem touch_placed (parked : Parked s others) (catalog : Catalog s.disk dir es lost)
    (ready : position (normalizeFilename filename) es = none → CreateRoom (lowFree s.disk) es.length) :
    Completes (touch filename) s fun res s' => ∃ dir' es', Parked s' others ∧
      Catalog s'.disk dir' es' lost ∧ Kept others s.heap s'.heap ∧
      SameOn (es.map Entry.cells).flatten s.disk s'.disk ∧
      Touched (normalizeFilename filename) es res es' ∧
      (res = 0 → s'.root = 0 ∧ FolderReplaced s others (es.map Entry.record) (es.length + 1) s'.heap) ∧
      (res = 1 → s'.disk = s.disk ∧ ∃ files, Loaded s' others files (es.map Entry.record) ∧
        LoadedFrom s s'.root files es.length s'.heap) ∧
      ∀ e ∈ es', e ∈ es ∨ NewFile s.disk e := by
  have short := normalizeFilename_short filename
  have fits := (fits_iff _).mp catalog.directory.fits
  have length := catalog.directory.length
  rw [List.length_map] at fits length
  unfold touch
  refine meets_call (loadCatalog_placed parked catalog) ?_
  rintro _ _ ⟨heap, root, files, rfl, loaded, kept, placedFolder⟩
  rw [meets_next (existsFile_run loaded.folder short), findIdx_record]
  cases found : position (normalizeFilename filename) es with
  | some i =>
    exact meets_pure.mpr ⟨dir, es, loaded.parked, catalog, kept, sameOn_refl,
      .present (by rw [found]; exact Option.some_ne_none i), fun zero => absurd zero (by decide),
      fun _ => ⟨rfl, files, loaded, placedFolder⟩, fun e inside => .inl inside⟩
  | none =>
    obtain ⟨free, room, fits'⟩ := ready found
    refine meets_call (createFile_run loaded short catalog.volume free
      (by rw [List.length_map]; omega)) ?_
    rintro _ _ ⟨heap', disk, new, start, eof, r, rfl, loaded', kept', replaced, record, user, volume, ends,
      same, count⟩
    rw [List.flatten_cons] at same
    have whole : (es ++ [Entry.mk r [start, eof]]).length = es.length + 1 := by
      rw [List.length_append, List.length_singleton]
    have order : Volume disk ((0 :: dir) :: (es ++ [Entry.mk r [start, eof]]).map Entry.cells) lost := by
      rw [List.map_append]
      exact volume_perm volume (List.perm_append_singleton _ _).symm
    have sameDir := sameOn_subset same (List.subset_append_left (0 :: dir) _)
    have sameFiles := sameOn_subset same (List.subset_append_right (0 :: dir) _)
    have placed : ∀ e ∈ es ++ [Entry.mk r [start, eof]], e.Placed disk := fun e inside => by
      rcases List.mem_append.mp inside with old | new
      · exact placed_same (catalog.files e old) fun c member =>
          sameFiles.fat c (cells_subset old member)
      · obtain rfl := List.mem_singleton.mp new
        exact ⟨congrArg some record.startCluster.symm, ends⟩
    have names : ((es ++ [Entry.mk r [start, eof]]).map fun e => e.record.name).Nodup := by
      rw [List.map_append]
      refine List.nodup_append.mpr ⟨catalog.names, List.nodup_singleton _, ?_⟩
      intro name old name' new
      obtain ⟨e, inside, rfl⟩ := List.mem_map.mp old
      rw [List.map_singleton, List.mem_singleton, record.name] at new
      exact fun same => position_none found e inside (same.trans new)
    rw [← List.map_singleton (f := Entry.record) (a := Entry.mk r [start, eof]), ← List.map_append] at loaded'
    obtain ⟨heap'', disk', dir', freed, run, owned, kept'', _, catalog', sameStore, _⟩ :=
      storeCatalog_discards loaded' order (ends_same catalog.directory.ends sameDir.fat) placed names
        (by rwa [whole]) (by rw [whole]; simp only at count ⊢; omega)
    refine (meets_next run).mpr (meets_pure.mpr ⟨dir', _, .empty rfl owned, catalog',
      kept_trans kept (kept_trans kept' kept''), sameOn_trans sameFiles ?_, .created found eof record,
      fun _ => ⟨rfl, ?_⟩, fun one => absurd one (by decide), ?_⟩)
    · refine sameOn_subset sameStore ?_
      rw [List.map_append, List.flatten_append]
      exact List.subset_append_left _ _
    · rw [List.length_map] at replaced
      refine ⟨_, files, new, heap', loaded, ?_, replaced, freed⟩
      rwa [List.length_map]
    · intro e inside
      rcases List.mem_append.mp inside with old | new
      · exact .inl old
      · obtain rfl := List.mem_singleton.mp new
        exact .inr ⟨user, fun c member => volume_fresh catalog.volume volume member⟩

variable (filename) in
/-- Without two free clusters nothing is created, and the directory is stored as it was. -/
theorem touch_full (parked : Parked s others) (catalog : Catalog s.disk dir es lost)
    (missing : position (normalizeFilename filename) es = none)
    (full : existsNFreeClustersLoop s.disk 2 clusterCount 0 0 = false) :
    Completes (touch filename) s fun res s' => ∃ dir', res = 0 ∧ Parked s' others ∧
      Catalog s'.disk dir' es lost ∧ SameOn (es.map Entry.cells).flatten s.disk s'.disk := by
  have fits := catalog.directory.fits
  have length := catalog.directory.length
  rw [List.length_map] at fits length
  unfold touch
  apply meets_call (loadCatalog_run parked catalog)
  rintro _ _ ⟨heap, root, files, rfl, loaded, _⟩
  rw [meets_next (existsFile_run loaded.folder (normalizeFilename_short filename)), findIdx_record, missing]
  have refused : createFile (normalizeFilename filename) { s with heap := heap, root := root } = .ok ((), { s with
      heap := heap, root := root,
      screen := s.screen ++ [.kprintf "there is not enough space to create a file"] }) := by
    have asked : existsNFreeClusters 2 { s with heap := heap, root := root } =
        .ok (false, { s with heap := heap, root := root }) := congrArg (fun b => Except.ok (b, _)) full
    unfold createFile
    rw [run_bind asked, if_pos rfl]
    rfl
  obtain ⟨heap', disk, dir', run, owned, _, _, catalog', same, _⟩ :=
    storeCatalog_run (s := { s with heap := heap, root := root, screen := s.screen ++
        [.kprintf "there is not enough space to create a file"] })
      ⟨loaded.owned, loaded.count, loaded.pointer, loaded.holds⟩ catalog.volume catalog.directory.ends
      catalog.files catalog.names fits (by rw [length]; exact Nat.le_add_left _ _)
  rw [Option.isSome_none, if_neg Bool.false_ne_true, meets_next refused, meets_next run]
  exact meets_pure.mpr ⟨dir', rfl, .empty rfl owned, catalog', same⟩

variable (filename) in
theorem touch_run (parked : Parked s others) (catalog : Catalog s.disk dir es lost)
    (ready : position (normalizeFilename filename) es = none → CreateRoom (lowFree s.disk) es.length) :
    Completes (touch filename) s fun res s' => ∃ dir' es', Parked s' others ∧
      Catalog s'.disk dir' es' lost ∧ Kept others s.heap s'.heap ∧
      SameOn (es.map Entry.cells).flatten s.disk s'.disk ∧
      Touched (normalizeFilename filename) es res es' := by
  apply meets_mono (touch_placed filename parked catalog ready)
  rintro res s' ⟨dir', es', parked', catalog', kept, same, result, _⟩
  exact ⟨dir', es', parked', catalog', kept, same, result⟩

end

end Delos.Invariants
