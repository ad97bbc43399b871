import Delos.Source.FileCalls
import Delos.Invariants.FileContents
import Delos.Invariants.FileReading
import Delos.Invariants.FileSystemRuns
import Delos.Invariants.WriteContents

/-!
# Calls that name files

A call that looks a file up and finds it uses a pointer into the loaded folder. Then the
tested call does the same as the call; behind a name that is missing no other pointer but
that of `rm` is used.
-/
namespace Delos.Invariants
open Lib Source

section
variable {α : Type} {s : Fs} {others : List (Nat × Nat)} {dir lost : List Nat} {es : List Entry}
  {filename : CString} {file : Nat}

/-! ## Tested pointers -/

theorem deref_nonzero (access : Nat → Kernel α) (nonzero : file ≠ 0) : deref access file = access file :=
  if_neg nonzero

/-- Behind a search that finds the file only pointers that are not NULL matter. -/
theorem load_agree {F G : Nat → Kernel α} (parked : Parked s others) (catalog : Catalog s.disk dir es lost)
    (short : filename.bytes.length < fileNameLen) (found : position filename es ≠ none)
    (same : ∀ file, file ≠ 0 → F file = G file) :
    (loadRootFolder >>= fun _ => getFile filename >>= F) s =
      (loadRootFolder >>= fun _ => getFile filename >>= G) s := by
  apply bind_agree
  intro _ s1 load
  obtain ⟨heap, root, files, rfl, loaded, _⟩ := completes_result (loadCatalog_run parked catalog) load
  have search := getFile_run loaded.folder short
  obtain ⟨i, here⟩ := Option.ne_none_iff_exists'.mp found
  rw [findIdx_record, here] at search
  rw [run_bind search, run_bind search, same _ (filePointer_nonzero loaded.records i)]

theorem rm_agree (parked : Parked s others) (catalog : Catalog s.disk dir es lost)
    (found : position (normalizeFilename filename) es ≠ none) : rmTested filename s = rm filename s := by
  unfold rmTested rm
  apply load_agree parked catalog (normalizeFilename_short filename) found
  intro file nonzero
  rw [deref_nonzero _ nonzero]

theorem read_agree {offset len : Nat} (parked : Parked s others) (catalog : Catalog s.disk dir es lost)
    (found : position (normalizeFilename filename) es ≠ none) :
    readTested filename offset len s = Source.read filename offset len s := by
  unfold readTested Source.read
  apply load_agree parked catalog (normalizeFilename_short filename) found
  intro file nonzero
  simp only [deref_nonzero _ nonzero]

theorem updateFlag_agree {set : Nat → Kernel Unit} (parked : Parked s others)
    (catalog : Catalog s.disk dir es lost) (short : filename.bytes.length < fileNameLen)
    (found : position filename es ≠ none) : updateFlagTested set filename s = updateFlag set filename s := by
  unfold updateFlagTested updateFlag
  apply load_agree parked catalog short found
  intro file nonzero
  rw [deref_nonzero _ nonzero]

theorem openFile_agree (parked : Parked s others) (catalog : Catalog s.disk dir es lost)
    (found : position (normalizeFilename filename) es ≠ none) : openFileTested filename s = openFile filename s := by
  have short := normalizeFilename_short filename
  unfold openFileTested openFile
  apply bind_agree
  intro opened s1 asked
  obtain ⟨heap, rfl, owned, _⟩ := completes_result (isFileOpen_run parked catalog short) asked
  by_cases refused : opened = 1
  · rw [if_pos refused, if_pos refused]
  · rw [if_neg refused, if_neg refused]
    exact updateFlag_agree (.empty rfl owned) catalog short found

/-- A file that is open exists. -/
theorem closeFile_agree (parked : Parked s others) (catalog : Catalog s.disk dir es lost) :
    closeFileTested filename s = closeFile filename s := by
  have short := normalizeFilename_short filename
  unfold closeFileTested closeFile
  apply bind_agree
  intro opened s1 asked
  obtain ⟨heap, rfl, owned, _, status⟩ := completes_result (isFileOpen_run parked catalog short) asked
  by_cases refused : opened = 0
  · rw [if_pos refused, if_pos refused]
  · rw [if_neg refused, if_neg refused]
    refine updateFlag_agree (s := { s with heap := heap, root := 0 }) (.empty rfl owned) catalog short ?_
    rcases status with ⟨⟨e, inside, named, _⟩, _⟩ | ⟨_, zero⟩
    · exact fun missing => position_none missing e inside named
    · exact absurd zero refused

/-- The call is made only if the file exists. -/
theorem whenKnown_agree {x y : Kernel Nat} (listed : Bool) (parked : Parked s others)
    (catalog : Catalog s.disk dir es lost)
    (same : position (normalizeFilename filename) es ≠ none → ∀ heap, Owned heap others →
      x { s with heap := heap, root := 0 } = y { s with heap := heap, root := 0 }) :
    whenKnown filename listed x s = whenKnown filename listed y s := by
  unfold whenKnown
  apply bind_agree
  intro known s1 asked
  obtain ⟨heap, rfl, owned, _, answer⟩ := completes_result (fileExists_run filename parked catalog) asked
  by_cases allowed : (known && listed) = true
  · rw [if_pos allowed, if_pos allowed]
    apply same ?_ heap owned
    rw [(Bool.and_eq_true _ _).mp allowed |>.1] at answer
    exact Option.isSome_iff_ne_none.mp answer.symm
  · rw [if_neg allowed, if_neg allowed]

/-- A run is told apart by its first call only through that call. -/
theorem bind_same {x y : Kernel α} {β : Type} {f : α → Kernel β} (same : x s = y s) :
    (x >>= f) s = (y >>= f) s := by
  have left : (x >>= f) s = (x s >>= fun p => f p.1 p.2) := rfl
  have right : (y >>= f) s = (y s >>= fun p => f p.1 p.2) := rfl
  rw [left, right, same]

theorem existsNFreeClusters_run (n : Nat) (s : Fs) :
    existsNFreeClusters n s = .ok (existsNFreeClustersLoop s.disk n clusterCount 0 0, s) := rfl

theorem cp_agree {src des : CString} (parked : Parked s others) (catalog : Catalog s.disk dir es lost)
    (ready : ∀ e ∈ es, e.record.name = (normalizeFilename src).bytes →
      normalizeFilename src ≠ normalizeFilename des →
      CopyReady (lowFree s.disk) e.data.length es (normalizeFilename des)) :
    cpTested src des s = cp src des s := by
  have shortSrc := normalizeFilename_short src
  have short := normalizeFilename_short des
  unfold cpTested cp
  generalize normalizeFilename src = src at *
  generalize normalizeFilename des = des at *
  by_cases equal : src = des
  · rw [if_pos equal, if_pos equal]
  rw [if_neg equal, if_neg equal]
  apply bind_agree
  intro _ s1 load
  obtain ⟨heap, root, files, rfl, loaded, _⟩ := completes_result (loadCatalog_run parked catalog) load
  obtain ⟨freed, discard, owned, _⟩ := freeRootDir_loaded loaded
  have search := getFile_run loaded.folder shortSrc
  have searchDes := getFile_run loaded.folder short
  rw [findIdx_record] at search searchDes
  rw [run_bind search, run_bind search]
  cases found : position src es with
  | none => rw [filePointer, if_pos rfl, if_pos rfl]
  | some i =>
    obtain ⟨small, named⟩ := position_some found
    have fits := ready _ (List.getElem_mem small) named equal
    have nonzero := filePointer_nonzero loaded.records i
    have start := fileStartClusterIndex_run loaded.records (i := i) (by rwa [List.length_map])
    rw [if_neg nonzero, if_neg nonzero, show filePointer files (some i) = fileAt files i from rfl,
      run_bind start, run_bind start, run_bind searchDes, run_bind searchDes, run_bind discard, run_bind discard]
    have unloaded : Parked { s with heap := freed, root := 0 } others := .empty rfl owned
    have known : filePointer files (position des es) ≠ 0 ↔ position des es ≠ none := by
      cases position des es with
      | none => simp [filePointer]
      | some k => simp [filePointer_nonzero loaded.records k]
    have removal : doIf (filePointer files (position des es) ≠ 0) (do let _ ← rmTested des)
        { s with heap := freed, root := 0 } =
          doIf (filePointer files (position des es) ≠ 0) (do let _ ← rm des) { s with heap := freed, root := 0 } := by
      unfold doIf
      by_cases present : filePointer files (position des es) ≠ 0
      · rw [if_pos present, if_pos present]
        apply bind_same
        apply rm_agree unloaded catalog
        rw [normalizeFilename_of_short short]
        exact known.mp present
      · rw [if_neg present, if_neg present]
    rw [bind_same removal]
    apply bind_agree
    intro _ s2 removed
    apply bind_agree
    intro res s3 touched
    have prepare : (do
        doIf (filePointer files (position des es) ≠ 0) do
          let _ ← rm des
        touch des) { s with heap := freed, root := 0 } = .ok (res, s3) := by
      rw [run_bind removed]
      exact touched
    obtain ⟨dir', es', j, parked', catalog', _, _, found', _⟩ :=
      completes_result (prepare_run known short unloaded catalog fits) prepare
    apply bind_agree
    intro size s4 read
    obtain ⟨screen, rfl⟩ := meets_result (readWord_calm _ s3) read
    have asked := existsNFreeClusters_run (getClusterCountNeeded size) { s3 with screen := screen }
    rw [run_bind asked, run_bind asked]
    generalize existsNFreeClustersLoop _ _ _ _ _ = enough
    cases enough with
    | false => rw [if_pos rfl, if_pos rfl]
    | true =>
      rw [if_neg (by decide), if_neg (by decide)]
      refine load_agree (s := { s3 with screen := screen }) (parked'.onScreen screen) catalog' short
        (by rw [found']; exact Option.some_ne_none j) ?_
      intro file nonzero
      simp only [deref_nonzero _ nonzero]

/-! ## Reads along the FAT -/

/-- No access is outside the windows. -/
abbrev Tame (x : Kernel α) (s : Fs) : Prop := Meets (· ≠ Stop.wildAccess) x s fun _ _ => True

theorem completes_inside {e : Stop} (allowed : e = .outOfMemory) : e ≠ .wildAccess := by
  rw [allowed]
  decide

theorem tame_of_completes {x : Kernel α} {post : α → Fs → Prop} (completes : Completes x s post) : Tame x s :=
  meets_mono (meets_allow completes fun _ => completes_inside) fun _ _ _ => trivial

theorem tame_call {x : Kernel α} {β : Type} {f : α → Kernel β} {mid : α → Fs → Prop}
    (callee : Completes x s mid) (rest : ∀ a s', mid a s' → Tame (f a) s') : Tame (x >>= f) s :=
  meets_call (meets_allow callee fun _ => completes_inside) rest

theorem tame_access {x : Kernel α} (tame : Tame x s) : x s ≠ .error .wildAccess := by
  intro stopped
  unfold Tame Meets at tame
  rw [stopped] at tame
  exact tame rfl

theorem tame_pure (a : α) : Tame (pure a : Kernel α) s := meets_pure.mpr trivial

theorem tame_next {x : Kernel α} {β : Type} {f : α → Kernel β} {a : α} {s' : Fs} (run : x s = .ok (a, s'))
    (rest : Tame (f a) s') : Tame (x >>= f) s := (meets_next run).mpr rest

variable {c : Nat}

theorem doIf_emit (p : Prop) [Decidable p] (call : ScreenCall) (s : Fs) :
    ∃ screen, doIf p (emit call) s = .ok ((), { s with screen := screen }) := by
  unfold doIf
  split
  · exact ⟨_, rfl⟩
  · exact ⟨s.screen, rfl⟩

theorem catLoop_tame (size bound readBytes : Nat) (buffer : List UInt8) (small : c < fatValues) :
    Tame (catLoop size bound c readBytes buffer) s := by
  induction bound generalizing s c readBytes buffer with
  | zero =>
    apply meets_throw.mpr
    decide
  | succ bound ih =>
    unfold catLoop
    apply tame_next (fat_window s small)
    split
    · dsimp only
      obtain ⟨screen, shown⟩ := doIf_emit
        (decide (buffer.length + min clusterSize ((size + wordModulus - readBytes) % wordModulus) ≥
          screenBufferSize) = true) (.kprintfBytes (upToNul buffer)) s
      obtain ⟨bytes, _, read⟩ := cluster_window (k := 0) (n := min clusterSize ((size + wordModulus - readBytes) %
        wordModulus)) { s with screen := screen } small (by omega)
      rw [Nat.add_zero] at read
      apply tame_next shown
      apply tame_next read
      exact ih _ _ (fatValue_small s.disk c)
    · exact tame_pure buffer

theorem startCluster_window {e : Entry} (catalog : Catalog s.disk dir es lost) (inside : e ∈ es) :
    e.record.startCluster < fatValues := by
  have first := (catalog.files e inside).head
  have member := List.mem_of_head? first
  have small := volume_flatten_count catalog.volume e.record.startCluster
    (List.mem_append_right _ (cells_subset inside member))
  unfold clusterCount at small
  unfold fatValues
  omega

theorem read_tame (offset len : Nat) (parked : Parked s others) (catalog : Catalog s.disk dir es lost)
    (found : position (normalizeFilename filename) es ≠ none) : Tame (Source.read filename offset len) s := by
  obtain ⟨i, here⟩ := Option.ne_none_iff_exists'.mp found
  obtain ⟨small, _⟩ := position_some here
  have start := startCluster_window catalog (List.getElem_mem small)
  have records : (es.map Entry.record).length = es.length := List.length_map _
  rw [← readGuarded_none]
  unfold readGuarded
  refine withFile_meets (loadCatalog_run parked catalog) (normalizeFilename_short filename)
    (by rw [findIdx_record, here]) (by rwa [records]) (by decide) ?_
  intro heap _ _
  rw [List.getElem_map]
  by_cases beyond : es[i].record.size < (offset + len) % wordModulus
  · obtain ⟨screen, refused⟩ := readRange_refused (s := { s with heap := heap, root := 0 })
      noTest noTest es[i].record.startCluster beyond
    exact meets_run refused trivial
  · rcases readRange_window (s := { s with heap := heap, root := 0 }) start (Nat.le_of_not_lt beyond) with
      ⟨bytes, _, _, run⟩ | ⟨_, endless⟩
    · exact meets_run run trivial
    · unfold Meets
      rw [endless]
      decide

/-- A file that is missing is reported. -/
theorem cat_missing (parked : Parked s others) (catalog : Catalog s.disk dir es lost)
    (missing : position (normalizeFilename filename) es = none) :
    Completes (cat filename) s fun res s' => res = 1 ∧ s'.disk = s.disk := by
  unfold cat
  apply meets_call (loadCatalog_run parked catalog)
  rintro _ _ ⟨heap, root, files, rfl, loaded, _⟩
  have search := getFile_run loaded.folder (normalizeFilename_short filename)
  rw [findIdx_record, missing] at search
  rw [meets_next search, filePointer, if_pos rfl]
  apply (meets_next (show emit _ _ = .ok ((), _) from rfl)).mpr
  obtain ⟨freed, discard, _⟩ := freeRootDir_parked (loaded.parked.onScreen _)
  rw [meets_next discard]
  exact meets_pure.mpr ⟨rfl, rfl⟩

theorem cat_tame (parked : Parked s others) (catalog : Catalog s.disk dir es lost) : Tame (cat filename) s := by
  cases here : position (normalizeFilename filename) es with
  | none => exact tame_of_completes (cat_missing parked catalog here)
  | some i =>
    obtain ⟨small, _⟩ := position_some here
    have start := startCluster_window catalog (List.getElem_mem small)
    unfold cat
    apply tame_call (loadCatalog_run parked catalog)
    rintro _ _ ⟨heap, root, files, rfl, loaded, _⟩
    obtain ⟨freed, discard, _, _, records⟩ := freeRootDir_loaded loaded
    have search := getFile_run loaded.folder (normalizeFilename_short filename)
    have inside : i < (es.map Entry.record).length := by rwa [List.length_map]
    have first := fileStartClusterIndex_run loaded.records inside
    have size := fileSize_run loaded.records inside
    rw [findIdx_record, here] at search
    rw [List.getElem_map] at first
    apply tame_next search
    rw [if_neg (filePointer_nonzero loaded.records i)]
    apply tame_next first
    apply tame_next size
    apply tame_next discard
    apply meets_call (catLoop_tame _ _ _ _ start)
    intro buffer s1 _
    exact tame_next (show emit _ _ = .ok ((), _) from rfl) (tame_pure _)

/-! ## Names that are missing -/

theorem whenKnown_missing {x : Kernel Nat} {listed : Bool} (parked : Parked s others)
    (catalog : Catalog s.disk dir es lost) (missing : position (normalizeFilename filename) es = none) :
    Completes (whenKnown filename listed x) s fun res s' => res = 1 ∧ s'.disk = s.disk := by
  unfold whenKnown
  apply meets_call (fileExists_run filename parked catalog)
  rintro _ _ ⟨heap, rfl, _, _, rfl⟩
  rw [missing, if_neg (by simp)]
  exact meets_pure.mpr ⟨rfl, rfl⟩

theorem whenKnown_tame {x : Kernel Nat} {listed : Bool} (parked : Parked s others)
    (catalog : Catalog s.disk dir es lost)
    (callee : position (normalizeFilename filename) es ≠ none → ∀ heap, Owned heap others →
      Tame x { s with heap := heap, root := 0 }) : Tame (whenKnown filename listed x) s := by
  unfold whenKnown
  apply tame_call (fileExists_run filename parked catalog)
  rintro _ _ ⟨heap, rfl, owned, _, rfl⟩
  split
  next allowed =>
    apply callee ?_ heap owned
    exact Option.isSome_iff_ne_none.mp ((Bool.and_eq_true _ _).mp allowed).1
  next => exact tame_pure 1

theorem position_present : position filename es ≠ none ↔ ∃ e ∈ es, e.record.name = filename.bytes := by
  constructor
  · intro found
    obtain ⟨i, here⟩ := Option.ne_none_iff_exists'.mp found
    obtain ⟨small, named⟩ := position_some here
    exact ⟨es[i], List.getElem_mem small, named⟩
  · rintro ⟨e, inside, named⟩ missing
    exact position_none missing e inside named

/-- A write does not take the name away. -/
theorem written_present {disk disk' : ByteMemory} {es' : List Entry} {buffer : List UInt8} {offset res : Nat}
    (written : Written filename disk disk' es buffer offset res es') (present : position filename es ≠ none) :
    position filename es' ≠ none := by
  have replaced : ∀ {i : Nat} {e' : Entry} (small : i < es.length), position filename es = some i →
      e'.record.name = es[i].record.name → position filename (es.set i e') ≠ none := by
    intro i e' small found same
    obtain ⟨_, named⟩ := position_some found
    exact position_present.mpr ⟨e', (mem_set_entries small e').mpr (.inl rfl), same.trans named⟩
  cases written with
  | missing missing same => exact present
  | beyond found small outside same => exact present
  | refused found small inside full same => exact present
  | appended found small last appended => exact replaced small found (appended_name appended)
  | inserted found small inside room inserted => exact replaced small found (inserted_name inserted)

/-- The folder stays loaded. -/
theorem getFileSize_missing (parked : Parked s others) (catalog : Catalog s.disk dir es lost)
    (missing : position (normalizeFilename filename) es = none) :
    Completes (getFileSize filename) s fun res s' => res = 0 ∧ Parked s' others ∧ s'.disk = s.disk := by
  unfold getFileSize
  apply meets_call (loadCatalog_run parked catalog)
  rintro _ _ ⟨heap, root, files, rfl, loaded, _⟩
  have search := getFile_run loaded.folder (normalizeFilename_short filename)
  rw [findIdx_record, missing] at search
  rw [meets_next search, filePointer, if_pos rfl]
  exact meets_pure.mpr ⟨rfl, loaded.parked, rfl⟩

/-- What is free once a file was created. -/
def createdFree (free fileCount : Nat) : Nat := free + dirClusters fileCount - (dirClusters (fileCount + 1) + 2)

/-- The new file behind `touch`. -/
theorem touch_created (parked : Parked s others) (catalog : Catalog s.disk dir es lost)
    (missing : position (normalizeFilename filename) es = none) (room : CreateRoom (lowFree s.disk) es.length) :
    Completes (touch filename) s fun _ s' => ∃ dir' e, Parked s' others ∧ Catalog s'.disk dir' (es ++ [e]) lost ∧
      e.record.name = (normalizeFilename filename).bytes ∧ e.record.size = 0 ∧
      lowFree s'.disk = createdFree (lowFree s.disk) es.length := by
  apply meets_mono (touch_run filename parked catalog fun _ => room)
  rintro _ s' ⟨dir', es', parked', catalog', _, _, created⟩
  cases created with
  | present found => exact absurd missing found
  | @created _ start eof r new =>
    refine ⟨dir', _, parked', catalog', new.name, new.size, ?_⟩
    have before := catalog_room catalog
    have after := catalog_room catalog'
    rw [List.map_append, List.flatten_append, List.length_append, List.length_append] at after
    simp only [List.map_singleton, List.flatten_singleton, List.length_cons, List.length_nil,
      Nat.zero_add] at after
    unfold createdFree
    omega

/-- A text that fits into the new file. -/
theorem writeReady_created {disk : ByteMemory} {e d : Entry} {len : Nat}
    (missing : position (normalizeFilename filename) es = none) (size : e.record.size = 0)
    (fits : AppendReady (lowFree disk) 0 len) (inside : d ∈ es ++ [e])
    (named : d.record.name = (normalizeFilename filename).bytes) :
    WriteReady (lowFree disk) d.record.size 0 len d.data.length := by
  have here : d = e := by
    rcases List.mem_append.mp inside with old | last
    · exact absurd named (position_none missing d old)
    · exact List.mem_singleton.mp last
  rw [here, size]
  exact ⟨fun _ => fits, fun less => absurd less (Nat.lt_irrefl 0)⟩

/-- What `file_append` needs for a file that does not exist: room for it and its text, or
not even room for an empty one. -/
structure AppendRoom (disk : ByteMemory) (fileCount len : Nat) : Prop where
  room : existsNFreeClustersLoop disk 2 clusterCount 0 0 = false ∨
    CreateRoom (lowFree disk) fileCount ∧ AppendReady (createdFree (lowFree disk) fileCount) 0 len

/-- The missing file is created, or the call fails and the files are as before. -/
theorem fileAppend_missing (buffer : List UInt8) (parked : Parked s others)
    (catalog : Catalog s.disk dir es lost) (missing : position (normalizeFilename filename) es = none)
    (ready : AppendRoom s.disk es.length buffer.length) :
    Completes (fileAppend filename buffer) s fun res s' => ∃ dir' es' lost', Catalog s'.disk dir' es' lost' ∧
      (position (normalizeFilename filename) es' ≠ none ∨
        res ≠ 0 ∧ es' = es ∧ SameOn (es.map Entry.cells).flatten s.disk s'.disk) := by
  unfold fileAppend
  apply meets_call (getFileSize_missing parked catalog missing)
  rintro size s1 ⟨rfl, parked1, disk⟩
  rw [← disk] at catalog ready ⊢
  apply meets_call (fileExists_run filename parked1 catalog)
  rintro _ _ ⟨heap, rfl, owned, _, rfl⟩
  rw [missing, if_neg (by simp)]
  have unloaded : Parked { s1 with heap := heap, root := 0 } others := .empty rfl owned
  rcases ready.room with full | ⟨room, fits⟩
  · apply meets_call (touch_full filename unloaded catalog missing full)
    rintro _ s2 ⟨dir2, rfl, parked2, catalog2, same⟩
    apply meets_mono (write_run filename buffer 0 parked2 catalog2 ?_)
    · rintro res s' ⟨dir', es', lost', _, catalog', _, _, _, written⟩
      cases written with
      | missing _ disk' =>
        refine ⟨dir', es, lost', catalog', .inr ⟨Nat.one_ne_zero, rfl, ?_⟩⟩
        rw [disk']
        exact same
      | beyond found => exact absurd (missing.symm.trans found) (by simp)
      | refused found => exact absurd (missing.symm.trans found) (by simp)
      | appended found => exact absurd (missing.symm.trans found) (by simp)
      | inserted found => exact absurd (missing.symm.trans found) (by simp)
    · exact fun e inside named => absurd named (position_none missing e inside)
  · apply meets_call (touch_created unloaded catalog missing room)
    rintro _ s2 ⟨dir2, e, parked2, catalog2, name, size, free⟩
    have present : position (normalizeFilename filename) (es ++ [e]) ≠ none :=
      position_present.mpr ⟨e, List.mem_append_right _ List.mem_cons_self, name⟩
    rw [← free] at fits
    apply meets_mono (write_run filename buffer 0 parked2 catalog2 ?_)
    · rintro res s' ⟨dir', es', lost', _, catalog', _, _, _, written⟩
      exact ⟨dir', es', lost', catalog', .inl (written_present written present)⟩
    · exact fun d inside named => writeReady_created missing size fits inside named

theorem fileAppend_present (buffer : List UInt8) (parked : Parked s others)
    (catalog : Catalog s.disk dir es lost) (present : position (normalizeFilename filename) es ≠ none)
    (ready : ∀ e ∈ es, e.record.name = (normalizeFilename filename).bytes →
      AppendReady (lowFree s.disk) e.record.size buffer.length) :
    Completes (fileAppend filename buffer) s fun _ _ => True := by
  obtain ⟨i, found⟩ := Option.ne_none_iff_exists'.mp present
  obtain ⟨small, named⟩ := position_some found
  unfold fileAppend
  apply meets_call (getFileSize_run filename parked catalog found small)
  rintro _ _ ⟨heap, rfl, owned, _, rfl⟩
  apply meets_call (fileExists_run (s := { s with heap := heap, root := 0 }) filename (.empty rfl owned) catalog)
  rintro _ _ ⟨heap', rfl, owned', _, rfl⟩
  rw [found, if_pos Option.isSome_some]
  have written := write_run (s := { s with heap := heap', root := 0 }) filename buffer es[i].record.size
    (.empty rfl owned') catalog fun e inside same => by
      rw [entry_unique catalog.names inside (List.getElem_mem small) (same.trans named.symm)]
      exact ⟨fun _ => ready _ (List.getElem_mem small) named, fun less => absurd less (Nat.lt_irrefl _)⟩
  exact meets_mono written fun _ _ _ => trivial

end

end Delos.Invariants
