import Delos.Invariants.FileCatalog

/-!
# Opening, closing and protecting files

The three operations read the open flag through `is_file_open` and then store
one flag bit. For a missing file the bit goes to address 24, which is no field
of any file, and the directory is stored unchanged.
-/
namespace Delos.Invariants
open Lib Source

def OpenIn (filename : CString) (es : List Entry) : Prop :=
  ∃ e ∈ es, e.record.name = filename.bytes ∧ e.record.isOpen = true

def Entry.withFlag (e : Entry) (bit : Nat) (v : Bool) : Entry :=
  ⟨e.record.setFlag bit v, e.cells⟩

/-- The entries behind a change of one flag of the named file. -/
def flagChanged (filename : CString) (bit : Nat) (v : Bool) (es : List Entry) : List Entry :=
  match position filename es with
  | some i => es.modify i fun e => e.withFlag bit v
  | none => es

section
variable {s : Fs} {others : List (Nat × Nat)} {files : Nat} {dir lost : List Nat} {rs : List Record}
  {es : List Entry} {filename : CString} {disk : ByteMemory} {e e' : Entry} {bit : Nat} {v : Bool}

theorem entry_unique (names : (es.map fun e => e.record.name).Nodup) (left : e ∈ es) (right : e' ∈ es)
    (same : e.record.name = e'.record.name) : e = e' :=
  List.inj_on_of_nodup_map names left right same

/-- `is_file_open` changes only the heap. -/
theorem isFileOpen_run (parked : Parked s others) (catalog : Catalog s.disk dir es lost)
    (short : filename.bytes.length < fileNameLen) :
    Completes (isFileOpen filename) s fun res s' => ∃ heap,
      s' = { s with heap := heap, root := 0 } ∧ Owned heap others ∧ Kept others s.heap heap ∧
        (OpenIn filename es ∧ res = 1 ∨ ¬ OpenIn filename es ∧ res = 0) := by
  unfold isFileOpen
  rw [normalizeFilename_of_short short]
  refine meets_call (loadCatalog_run parked catalog) ?_
  rintro _ _ ⟨heap, root, files, rfl, loaded, kept⟩
  obtain ⟨freed, discard, owned, keptFreed, records⟩ := freeRootDir_loaded loaded
  rw [meets_next (getFile_run loaded.folder short), meets_next discard, findIdx_record]
  cases found : position filename es with
  | none =>
    rw [filePointer, if_pos rfl]
    refine meets_pure.mpr ⟨freed, rfl, owned, kept_trans kept keptFreed, Or.inr ⟨?_, rfl⟩⟩
    rintro ⟨e, inside, named, _⟩
    exact position_none found e inside named
  | some i =>
    obtain ⟨small, named⟩ := position_some found
    have some : fileAt files i ≠ 0 := filePointer_nonzero records i
    rw [filePointer, if_neg some]
    have read := fileFlag_run (s := { s with heap := freed, root := 0 }) records
      (by rwa [List.length_map]) 0
    rw [List.getElem_map] at read
    rw [show fileOpen = fileFlag 0 from rfl, meets_next read]
    refine meets_pure.mpr ⟨freed, rfl, owned, kept_trans kept keptFreed, ?_⟩
    cases opened : flagBit es[i].record.flags 0 with
    | true => exact Or.inl ⟨⟨es[i], List.getElem_mem small, named, opened⟩, rfl⟩
    | false =>
      refine Or.inr ⟨?_, rfl⟩
      rintro ⟨e, inside, same, opened'⟩
      rw [entry_unique catalog.names inside (List.getElem_mem small) (same.trans named.symm)] at opened'
      exact absurd (opened.symm.trans opened') (by decide)

/-- A flag of a file that does not exist. -/
theorem setFlag_missing (s : Fs) (bit : Nat) (v : Bool) :
    ∃ page0, setFileFlag bit 0 v s = .ok ((), { s with page0 := page0 }) := ⟨_, rfl⟩

theorem placed_withFlag (placed : e.Placed disk) : (e.withFlag bit v).Placed disk :=
  ⟨by rw [Entry.withFlag, Record.startCluster_setFlag]; exact placed.head, placed.ends⟩

/-- The common end of the three operations. -/
theorem updateFlag_run (bit : Nat) (v : Bool) (parked : Parked s others)
    (catalog : Catalog s.disk dir es lost) (short : filename.bytes.length < fileNameLen) :
    Completes (updateFlag (setFileFlag bit · v) filename) s fun res s' => ∃ dir',
      Parked s' others ∧ Catalog s'.disk dir' (flagChanged filename bit v es) lost ∧
        SameOn (es.map Entry.cells).flatten s.disk s'.disk ∧ Kept others s.heap s'.heap ∧ res = 0 := by
  have fits := catalog.directory.fits
  have length := catalog.directory.length
  rw [List.length_map] at fits length
  unfold updateFlag
  refine meets_call (loadCatalog_run parked catalog) ?_
  rintro _ _ ⟨heap, root, files, rfl, loaded, kept⟩
  rw [meets_next (getFile_run loaded.folder short), findIdx_record, flagChanged]
  cases found : position filename es with
  | none =>
    obtain ⟨page0, write⟩ := setFlag_missing { s with heap := heap, root := root } bit v
    rw [filePointer, meets_next write]
    have loaded' : Loaded { s with heap := heap, root := root, page0 := page0 } others files
        (es.map Entry.record) := ⟨loaded.owned, loaded.count, loaded.pointer, loaded.holds⟩
    obtain ⟨heap', disk, dir', run, owned, kept', _, catalog', same, _⟩ :=
      storeCatalog_run loaded' catalog.volume catalog.directory.ends catalog.files catalog.names fits
        (by rw [length]; exact Nat.le_add_left _ _)
    rw [meets_next run]
    exact meets_pure.mpr ⟨dir', .empty rfl owned, catalog', same, kept_trans kept kept', rfl⟩
  | some i =>
    obtain ⟨small, named⟩ := position_some found
    obtain ⟨changed, write, loaded', keptChanged⟩ := setFileFlag_run loaded
      (by rwa [List.length_map]) bit v
    rw [List.getElem_map] at loaded'
    rw [filePointer, meets_next write]
    obtain ⟨heap', disk, dir', run, owned, kept', _, catalog', same, same', _⟩ :=
      storeChanged_run (es[i].withFlag bit v) small (Record.name_setFlag _ _ _) loaded'
        (catalog_front catalog small) catalog.directory.ends
        (placed_withFlag (catalog.files _ (List.getElem_mem small)))
        (fun e inside => catalog.files e (List.mem_of_mem_eraseIdx inside)) catalog.names fits
        (by rw [length]; exact Nat.le_add_left _ _)
    rw [meets_next run]
    have modified : es.modify i (fun e => e.withFlag bit v) = es.set i (es[i].withFlag bit v) := by
      rw [List.modify_eq_set_getElem?, List.getElem?_eq_getElem small]
      rfl
    rw [show (match some i with
      | some i => es.modify i fun e => e.withFlag bit v
      | none => es) = es.modify i fun e => e.withFlag bit v from rfl, modified]
    refine meets_pure.mpr ⟨dir', .empty rfl owned, catalog', ?_,
      kept_trans kept (kept_trans keptChanged kept'), rfl⟩
    exact sameOn_entries small same' same

/-- The flag is stored unless `is_file_open` returned the value that refuses it. -/
theorem checkedFlag_run (refuse bit : Nat) (v : Bool) (parked : Parked s others)
    (catalog : Catalog s.disk dir es lost) (short : filename.bytes.length < fileNameLen) :
    Completes (do
      let opened ← isFileOpen filename
      if opened = refuse then pure 1 else updateFlag (setFileFlag bit · v) filename) s fun res s' =>
      ∃ dir' es' opened, Parked s' others ∧ Catalog s'.disk dir' es' lost ∧
        SameOn (es.map Entry.cells).flatten s.disk s'.disk ∧ Kept others s.heap s'.heap ∧
        (OpenIn filename es ∧ opened = 1 ∨ ¬ OpenIn filename es ∧ opened = 0) ∧
        (opened = refuse ∧ res = 1 ∧ es' = es ∨
          opened ≠ refuse ∧ res = 0 ∧ es' = flagChanged filename bit v es) := by
  refine meets_call (isFileOpen_run parked catalog short) ?_
  rintro opened _ ⟨heap, rfl, owned, kept, status⟩
  by_cases refused : opened = refuse
  · rw [if_pos refused]
    exact meets_pure.mpr ⟨dir, es, opened, .empty rfl owned, catalog, sameOn_refl, kept, status,
      Or.inl ⟨refused, rfl, rfl⟩⟩
  · rw [if_neg refused]
    have parked' : Parked { s with heap := heap, root := 0 } others := .empty rfl owned
    refine meets_mono (updateFlag_run bit v parked' catalog short) ?_
    rintro res s' ⟨dir', after, catalog', same, kept', result⟩
    exact ⟨dir', _, opened, after, catalog', same, kept_trans kept kept', status,
      Or.inr ⟨refused, result, rfl⟩⟩

variable (filename) in
theorem openFile_run (parked : Parked s others) (catalog : Catalog s.disk dir es lost) :
    Completes (openFile filename) s fun res s' => ∃ dir' es', Parked s' others ∧
      Catalog s'.disk dir' es' lost ∧ SameOn (es.map Entry.cells).flatten s.disk s'.disk ∧
      Kept others s.heap s'.heap ∧
      (OpenIn (normalizeFilename filename) es ∧ res = 1 ∧ es' = es ∨
        ¬ OpenIn (normalizeFilename filename) es ∧ res = 0 ∧
          es' = flagChanged (normalizeFilename filename) 0 true es) := by
  refine meets_mono (checkedFlag_run 1 0 true parked catalog (normalizeFilename_short filename)) ?_
  rintro res s' ⟨dir', es', opened, after, catalog', same, kept, status, result⟩
  refine ⟨dir', es', after, catalog', same, kept, ?_⟩
  grind

variable (filename) in
theorem closeFile_run (parked : Parked s others) (catalog : Catalog s.disk dir es lost) :
    Completes (closeFile filename) s fun res s' => ∃ dir' es', Parked s' others ∧
      Catalog s'.disk dir' es' lost ∧ SameOn (es.map Entry.cells).flatten s.disk s'.disk ∧
      Kept others s.heap s'.heap ∧
      (¬ OpenIn (normalizeFilename filename) es ∧ res = 1 ∧ es' = es ∨
        OpenIn (normalizeFilename filename) es ∧ res = 0 ∧
          es' = flagChanged (normalizeFilename filename) 0 false es) := by
  refine meets_mono (checkedFlag_run 0 0 false parked catalog (normalizeFilename_short filename)) ?_
  rintro res s' ⟨dir', es', opened, after, catalog', same, kept, status, result⟩
  refine ⟨dir', es', after, catalog', same, kept, ?_⟩
  grind

variable (filename) in
theorem setAsSystemFile_run (parked : Parked s others) (catalog : Catalog s.disk dir es lost) :
    Completes (setAsSystemFile filename) s fun res s' => ∃ dir' es', Parked s' others ∧
      Catalog s'.disk dir' es' lost ∧ SameOn (es.map Entry.cells).flatten s.disk s'.disk ∧
      Kept others s.heap s'.heap ∧
      (OpenIn (normalizeFilename filename) es ∧ res = 1 ∧ es' = es ∨
        ¬ OpenIn (normalizeFilename filename) es ∧ res = 0 ∧
          es' = flagChanged (normalizeFilename filename) 1 true es) := by
  refine meets_mono (checkedFlag_run 1 1 true parked catalog (normalizeFilename_short filename)) ?_
  rintro res s' ⟨dir', es', opened, after, catalog', same, kept, status, result⟩
  refine ⟨dir', es', after, catalog', same, kept, ?_⟩
  grind

end

end Delos.Invariants
