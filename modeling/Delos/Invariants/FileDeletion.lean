import Delos.Invariants.FileArrays

/-!
# Deleting a file

`delete_file` copies the other records into a shorter array and frees the whole
chain of the file. `rm` refuses system files, `delete_system_file` does not.
-/
namespace Delos.Invariants
open Lib Source

/-- The result of `delete_system_file`. -/
inductive Deleted (filename : CString) (es : List Entry) : Nat → List Entry → Prop
  | missing (missing : position filename es = none) : Deleted filename es 1 es
  | deleted {i : Nat} (found : position filename es = some i) : Deleted filename es 0 (es.eraseIdx i)

/-- The result of `rm`. -/
inductive Removed (filename : CString) (es : List Entry) : Nat → List Entry → Prop
  | systemFile {i : Nat} (found : position filename es = some i) (small : i < es.length)
      (system : es[i].record.isSystem = true) : Removed filename es 1 es
  | missing (missing : position filename es = none) : Removed filename es 1 es
  | removed {i : Nat} (found : position filename es = some i) (small : i < es.length)
      (user : es[i].record.isSystem = false) : Removed filename es 0 (es.eraseIdx i)

section
variable {s : Fs} {others live : List (Nat × Nat)} {files new old : Nat} {dir lost : List Nat}
  {rs a : List Record} {es : List Entry} {filename : CString} {i : Nat}

theorem copyOtherFiles_run {pos : Nat} (left i j : Nat) (whole : i + left = rs.length)
    (inside : pos < rs.length) (length : a.length + 1 = rs.length)
    (shift : j = if i ≤ pos then i else i - 1) (buffered : Buffered s.heap live new a)
    (records : RecordsAt s.heap old rs) (member : (old, rs.length * fileRecordSize) ∈ live)
    (before : ∀ k < j, a[k]? = (rs.eraseIdx pos)[k]?) :
    ∃ heap, copyOtherFiles new old pos left i j s = .ok ((), { s with heap := heap }) ∧
      Buffered heap live new (rs.eraseIdx pos) ∧
      SameBeyond [(new, a.length * fileRecordSize)] s.heap heap := by
  induction left generalizing s i j a with
  | zero =>
    have same : a = rs.eraseIdx pos := by
      refine List.ext_getElem? fun k => ?_
      rcases Nat.lt_or_ge k j with small | large
      · exact before k small
      · rw [if_neg (by omega)] at shift
        rw [List.getElem?_eq_none (by omega), List.getElem?_eq_none (by
          rw [List.length_eraseIdx_of_lt inside]
          omega)]
    exact ⟨s.heap, rfl, same ▸ buffered, sameBeyond_refl⟩
  | succ left ih =>
    unfold copyOtherFiles
    by_cases here : i = pos
    · rw [if_pos here]
      exact ih (i + 1) j (by omega) length (by
        rw [shift, if_pos (by omega), if_neg (by omega), Nat.add_sub_cancel]) buffered records before
    · rw [if_neg here]
      have dest : j < a.length := by
        rw [shift]
        split <;> omega
      obtain ⟨heap, copy, after, same⟩ := copyRecord_run buffered records
        (show i < rs.length by omega) dest
      have records' := records_kept records (kept_beyond buffered.owned same) member
      obtain ⟨heap', run, final, same'⟩ := ih (s := { s with heap := heap }) (i + 1) (j + 1)
        (by omega) (by rwa [List.length_set])
        (by
          rw [shift]
          by_cases low : i ≤ pos
          · rw [if_pos low, if_pos (by omega)]
          · rw [if_neg low, if_neg (by omega)]
            omega) after records' (fun k small => by
          rw [List.getElem?_set]
          by_cases last : j = k
          · rw [if_pos last, if_pos dest, ← last, List.getElem?_eraseIdx, shift]
            by_cases low : i ≤ pos
            · rw [if_pos low, if_pos (by omega), List.getElem?_eq_getElem]
            · rw [if_neg low, if_neg (by omega), Nat.sub_add_cancel (by omega),
                List.getElem?_eq_getElem]
          · rw [if_neg last]
            exact before k (by omega))
      rw [List.length_set] at same'
      refine ⟨heap', ?_, final, sameBeyond_trans same same'⟩
      rw [run_bind copy]
      exact run

/-- The whole chain of a file is freed. -/
theorem freeFile_run {e : Entry} {chains : List (List Nat)} (placed : e.Placed s.disk)
    (volume : Volume s.disk (e.cells :: chains) lost) :
    ∃ freed disk, freeAllOccupiedClusters e.record.startCluster s = .ok ((), { s with disk := freed }) ∧
      setFat e.record.startCluster freeCluster { s with disk := freed } =
        .ok ((), { s with disk := disk }) ∧
      Volume disk chains lost ∧ SameOn chains.flatten s.disk disk := by
  obtain ⟨tail, shape⟩ : ∃ tail, e.cells = e.record.startCluster :: tail :=
    ⟨_, List.eq_cons_of_mem_head? (Option.mem_def.mpr placed.head)⟩
  have ends := placed.ends
  rw [shape] at ends volume
  obtain ⟨freed, run, volume', same, _⟩ := freeAllOccupiedClusters_run ends volume
  have small := volume_count volume' List.mem_cons_self List.mem_cons_self
  exact ⟨freed, setFatValue freed e.record.startCluster freeCluster, run, setFat_run _ small _,
    volume_drop_nil (volume_free_head volume'),
    sameOn_trans same (sameOn_assign volume' List.mem_cons_self)⟩

theorem deleteFile_run (loaded : Loaded s others files (es.map Entry.record))
    (catalog : Catalog s.disk dir es lost) (short : filename.bytes.length < fileNameLen)
    (found : position filename es = some i) :
    Completes (deleteFile filename) s fun _ s' => ∃ heap disk new,
      s' = { s with heap := heap, disk := disk } ∧
        Loaded s' others new ((es.eraseIdx i).map Entry.record) ∧ Kept others s.heap heap ∧
        ArrayReplaced s.heap s.root files new (es.length - 1) heap ∧
        Volume disk ((0 :: dir) :: (es.eraseIdx i).map Entry.cells) lost ∧
        SameOn ((0 :: dir) :: (es.eraseIdx i).map Entry.cells).flatten s.disk disk := by
  obtain ⟨small, named⟩ := position_some found
  have fits := (fits_iff _).mp catalog.directory.fits
  have whole : (es.map Entry.record).length = es.length := List.length_map _
  have size : (es.length + wordModulus - 1) * fileRecordSize % wordModulus =
      (es.length - 1) * fileRecordSize := by
    unfold fileRecordSize wordModulus
    omega
  have less : (es.length + wordModulus - 1) % wordModulus = es.length - 1 := by
    unfold wordModulus
    omega
  unfold deleteFile
  unfold Completes
  rw [meets_next (fileIndexOf_run loaded.folder short), findIdx_record, found,
    meets_next (rootFileCount_run loaded.folder), whole]
  dsimp only [Option.getD_some]
  rw [size, less]
  refine meets_call (kmalloc_found loaded.owned
    (by unfold fileRecordSize blockHeaderSize wordModulus; omega)) ?_
  rintro new _ ⟨grown, rfl, owned, keptGrown, placed⟩
  have inner : (files, (es.map Entry.record).length * fileRecordSize) ∈
      (files, (es.map Entry.record).length * fileRecordSize) :: (s.root, folderSize) :: others :=
    List.mem_cons_self
  have records := records_kept loaded.records keptGrown inner
  have folder : Folder { s with heap := grown } files (es.map Entry.record) := by
    have kept := root_kept (kept_tail keptGrown)
    exact ⟨loaded.folder.rootLow, loaded.folder.rootHigh, kept.1.trans loaded.count,
      kept.2.trans loaded.pointer, Or.inr records⟩
  rw [meets_next (rootFiles_run folder)]
  obtain ⟨a, length, buffered⟩ := buffered_fresh owned
  obtain ⟨copied, copy, buffered, sameCopied⟩ :=
    copyOtherFiles_run (s := { s with heap := grown }) es.length 0 0 (by omega)
      (show i < (es.map Entry.record).length by omega) (by omega) (by simp) buffered records inner (fun k h => absurd h (Nat.not_lt_zero k))
  rw [length] at sameCopied
  have keptCopied := kept_beyond owned sameCopied
  have records' := records_kept records keptCopied inner
  have start := fileStartClusterIndex_run (s := { s with heap := copied }) records'
    (show i < (es.map Entry.record).length by omega)
  rw [List.getElem_map] at start
  obtain ⟨freed, disk, free, clear, volume, same⟩ := freeFile_run (s := { s with heap := copied })
    (catalog.files _ (List.getElem_mem small)) (catalog_front catalog small)
  obtain ⟨installed, install, loaded', keptInstall, sameInstall⟩ :=
    installFiles_run (s := { s with heap := copied, disk := disk }) buffered
  have count : ((es.map Entry.record).eraseIdx i).length = es.length - 1 := by
    rw [List.length_eraseIdx_of_lt (by omega), whole]
  have rest : (es.length - 1) % wordModulus = es.length - 1 := Nat.mod_eq_of_lt (by
    unfold wordModulus
    omega)
  rw [count, rest] at install
  rw [List.eraseIdx_map] at loaded'
  rw [meets_next copy, meets_next start, meets_next free, meets_next clear]
  exact meets_run install ⟨installed, disk, new, rfl, loaded', kept_trans (kept_tail (kept_tail
    (kept_trans keptGrown keptCopied))) keptInstall, ⟨grown, copied, placed, sameCopied, sameInstall⟩,
    volume, same⟩

/-- A shorter directory takes no more clusters. -/
theorem dirClusters_pred {n : Nat} (fits : Fits n) (fits' : Fits (n - 1)) :
    dirClusters (n - 1) ≤ dirClusters n := by
  rw [dirClusters_eq fits, dirClusters_eq fits']
  omega

theorem deleteLoadedFile_run (loaded : Loaded s others files (es.map Entry.record))
    (catalog : Catalog s.disk dir es lost) (short : filename.bytes.length < fileNameLen)
    (ready : position filename es ≠ none → Fits (es.length - 1)) :
    Completes (deleteLoadedFile filename) s fun res s' => ∃ dir' es', Parked s' others ∧
      Catalog s'.disk dir' es' lost ∧ Kept others s.heap s'.heap ∧
      Undisturbed filename.bytes s.disk s'.disk es es' ∧ Deleted filename es res es' ∧
      (res = 0 → s'.root = 0 ∧ ∃ new replaced, ArrayReplaced s.heap s.root files new (es.length - 1) replaced ∧
        s'.heap = discardedHeap new s.root replaced) := by
  have fits := catalog.directory.fits
  have length := catalog.directory.length
  rw [List.length_map] at fits length
  unfold deleteLoadedFile
  unfold Completes
  rw [meets_next (existsFile_run loaded.folder short), findIdx_record]
  cases found : position filename es with
  | none =>
    obtain ⟨heap, discard, owned, kept, _⟩ := freeRootDir_loaded loaded
    rw [if_pos (by rfl), meets_next discard]
    exact meets_pure.mpr ⟨dir, es, .empty rfl owned, catalog, kept, undisturbed_refl, .missing found,
      fun zero => absurd zero (by decide)⟩
  | some i =>
    obtain ⟨small, named⟩ := position_some found
    have fits' := ready (by rw [found]; exact Option.some_ne_none i)
    rw [if_neg (by simp)]
    refine meets_call (deleteFile_run loaded catalog short found) ?_
    rintro _ _ ⟨heap, disk, new, rfl, loaded', kept, replaced, volume, same⟩
    rw [List.flatten_cons] at same
    have sameDir := sameOn_subset same (List.subset_append_left (0 :: dir) _)
    have sameFiles := sameOn_subset same (List.subset_append_right (0 :: dir) _)
    have shorter : (es.eraseIdx i).length = es.length - 1 := List.length_eraseIdx_of_lt small
    have less := dirClusters_pred fits fits'
    obtain ⟨heap', disk', dir', freed, run, owned, kept', _, catalog', sameStore, _⟩ :=
      storeCatalog_discards loaded' volume (ends_same catalog.directory.ends sameDir.fat)
        (fun e inside => placed_same (catalog.files e (List.mem_of_mem_eraseIdx inside))
          fun c member => sameFiles.fat c (cells_subset inside member))
        (by
          have names := catalog.names.sublist ((List.eraseIdx_sublist es i).map fun e => e.record.name)
          exact names)
        (by rwa [shorter]) (by rw [shorter, length]; omega)
    rw [meets_next run]
    refine meets_pure.mpr ⟨dir', _, .empty rfl owned, catalog', kept_trans kept kept', ?_,
      .deleted found, fun _ => ⟨rfl, new, heap, replaced, freed⟩⟩
    intro e inside other
    have rest : e ∈ es.eraseIdx i := by
      rcases (mem_entries small).mp inside with here | rest
      · subst here
        exact absurd named other
      · exact rest
    exact ⟨rest, sameOn_subset (sameOn_trans sameFiles sameStore) (cells_subset rest)⟩

variable (filename) in
theorem deleteSystemFile_run (parked : Parked s others) (catalog : Catalog s.disk dir es lost)
    (ready : position (normalizeFilename filename) es ≠ none → Fits (es.length - 1)) :
    Completes (deleteSystemFile filename) s fun res s' => ∃ dir' es', Parked s' others ∧
      Catalog s'.disk dir' es' lost ∧ Kept others s.heap s'.heap ∧
      Undisturbed (normalizeFilename filename).bytes s.disk s'.disk es es' ∧
      Deleted (normalizeFilename filename) es res es' := by
  unfold deleteSystemFile
  refine meets_call (loadCatalog_run parked catalog) ?_
  rintro _ _ ⟨heap, root, files, rfl, loaded, kept⟩
  refine meets_mono (deleteLoadedFile_run loaded catalog (normalizeFilename_short filename) ready) ?_
  rintro res s' ⟨dir', es', after, catalog', kept', same, result, _⟩
  exact ⟨dir', es', after, catalog', kept_trans kept kept', same, result⟩

variable (filename) in
/-- With the result comes what happened to the folder in the heap. -/
theorem rm_placed (parked : Parked s others) (catalog : Catalog s.disk dir es lost)
    (ready : ∀ e ∈ es, e.record.name = (normalizeFilename filename).bytes →
      e.record.isSystem = false → Fits (es.length - 1)) :
    Completes (rm filename) s fun res s' => ∃ dir' es', Parked s' others ∧
      Catalog s'.disk dir' es' lost ∧ Kept others s.heap s'.heap ∧
      Undisturbed (normalizeFilename filename).bytes s.disk s'.disk es es' ∧
      Removed (normalizeFilename filename) es res es' ∧
      (res = 0 → s'.root = 0 ∧ FolderReplaced s others (es.map Entry.record) (es.length - 1) s'.heap) := by
  have short := normalizeFilename_short filename
  unfold rm
  refine meets_call (loadCatalog_placed parked catalog) ?_
  rintro _ _ ⟨heap, root, files, rfl, loaded, kept, placedFolder⟩
  obtain ⟨freed, discard, owned, keptFreed, _⟩ := freeRootDir_loaded loaded
  rw [meets_next (getFile_run loaded.folder short), findIdx_record]
  cases found : position (normalizeFilename filename) es with
  | none =>
    obtain ⟨system, read⟩ : ∃ system, fileSystem 0 { s with heap := heap, root := root } =
      .ok (system, { s with heap := heap, root := root }) := ⟨_, rfl⟩
    rw [filePointer, meets_next read]
    cases system with
    | true =>
      rw [if_pos rfl, meets_next discard]
      exact meets_pure.mpr ⟨dir, es, .empty rfl owned, catalog, kept_trans kept keptFreed,
        undisturbed_refl, .missing found, fun zero => absurd zero (by decide)⟩
    | false =>
      rw [if_neg Bool.false_ne_true]
      refine meets_mono (deleteLoadedFile_run loaded catalog short fun some => absurd found some) ?_
      rintro res s' ⟨dir', es', after, catalog', kept', same, result, _⟩
      refine ⟨dir', es', after, catalog', kept_trans kept kept', same, ?_⟩
      cases result with
      | missing missing => exact ⟨.missing missing, fun zero => absurd zero (by decide)⟩
      | deleted found' => exact absurd (found.symm.trans found') (by simp)
  | some i =>
    obtain ⟨small, named⟩ := position_some found
    have read := fileFlag_run loaded.records (i := i) (by rwa [List.length_map]) 1
    rw [List.getElem_map] at read
    rw [filePointer, show fileSystem = fileFlag 1 from rfl, meets_next read]
    cases system : flagBit es[i].record.flags 1 with
    | true =>
      rw [if_pos rfl, meets_next discard]
      exact meets_pure.mpr ⟨dir, es, .empty rfl owned, catalog, kept_trans kept keptFreed,
        undisturbed_refl, .systemFile found small system, fun zero => absurd zero (by decide)⟩
    | false =>
      rw [if_neg Bool.false_ne_true]
      refine meets_mono (deleteLoadedFile_run loaded catalog short fun _ =>
        ready _ (List.getElem_mem small) named system) ?_
      rintro res s' ⟨dir', es', after, catalog', kept', same, result, freed⟩
      refine ⟨dir', es', after, catalog', kept_trans kept kept', same, ?_⟩
      cases result with
      | missing missing => exact absurd (found.symm.trans missing) (by simp)
      | deleted found' =>
        obtain rfl : i = _ := Option.some.inj (found.symm.trans found')
        refine ⟨.removed found small system, fun zero => ?_⟩
        obtain ⟨rooted, new, replaced, array, discarded⟩ := freed zero
        refine ⟨rooted, { s with heap := heap, root := root }, files, new, replaced, loaded, ?_, array, discarded⟩
        rwa [List.length_map]

variable (filename) in
theorem rm_run (parked : Parked s others) (catalog : Catalog s.disk dir es lost)
    (ready : ∀ e ∈ es, e.record.name = (normalizeFilename filename).bytes →
      e.record.isSystem = false → Fits (es.length - 1)) :
    Completes (rm filename) s fun res s' => ∃ dir' es', Parked s' others ∧
      Catalog s'.disk dir' es' lost ∧ Kept others s.heap s'.heap ∧
      Undisturbed (normalizeFilename filename).bytes s.disk s'.disk es es' ∧
      Removed (normalizeFilename filename) es res es' := by
  apply meets_mono (rm_placed filename parked catalog ready)
  rintro res s' ⟨dir', es', parked', catalog', kept, same, result, _⟩
  exact ⟨dir', es', parked', catalog', kept, same, result⟩

end

end Delos.Invariants
