import Delos.Invariants.FileStore
import Delos.Invariants.OpenFiles
import Delos.Invariants.FileCalls
import Delos.Invariants.StoredFiles
import Delos.Invariants.FileSystemRuns

/-!
# One operation on the store

`Shows` says that the catalog of a disk is that of a store: the files stand in the same order,
and no chain has a cluster more than its file needs. Every operation keeps it and answers as the
one of the store does.
-/
namespace Delos.Invariants
open Lib Source

def Entry.content (e : Entry) (disk : ByteMemory) : List UInt8 := (dataBytes disk e.data).take e.record.size

/-- What the disk holds of an entry. -/
def Entry.file (disk : ByteMemory) (e : Entry) : File :=
  ⟨e.record.name, e.content disk, e.record.isOpen, e.record.isSystem⟩

structure Catalogued (disk : ByteMemory) (es : List Entry) (σ : Store) : Prop where
  files : σ.items = es.map (Entry.file disk)
  tight : ∀ e ∈ es, e.cells.length = fileClusters e.record.size
  few : es.length ≤ 6

inductive Shows (others : List (Nat × Nat)) (s : Fs) (σ : Store) : Prop
  | mk {dir : List Nat} {es : List Entry} (parked : Parked s others) (catalog : Catalog s.disk dir es [])
      (catalogued : Catalogued s.disk es σ)

section
variable {s s' : Fs} {disk disk' : ByteMemory} {others : List (Nat × Nat)} {dir lost : List Nat} {es es' : List Entry}
  {e e' : Entry} {σ σ' : Store} {i : Nat} {filename : CString} {buffer : List UInt8} {offset len : Nat}

/-! ## Files and entries -/

theorem length_content (tight : e.cells.length = fileClusters e.record.size) :
    (e.content disk).length = e.record.size := by
  have size : clusterSize = 64 := rfl
  rw [Entry.content, List.length_take, length_dataBytes, length_data, tight, Nat.min_eq_left]
  unfold fileClusters getClusterCountNeeded
  rw [size]
  split <;> omega

theorem file_holds (tight : e.cells.length = fileClusters e.record.size) : e.Holds disk (e.content disk) := by
  have size : (e.content disk).length = e.record.size := length_content tight
  refine ⟨?_, size.symm, ?_⟩
  · rw [size]
    exact tight
  · rw [size]
    rfl

theorem holds_content {text : List UInt8} (holds : e.Holds disk text) :
    e.content disk = text ∧ e.cells.length = fileClusters e.record.size := by
  constructor
  · rw [Entry.content, holds.size]
    exact holds.bytes
  · rw [holds.size]
    exact holds.clusters

theorem file_same (same : SameOn e.cells disk disk') : e.file disk' = e.file disk := by
  have bytes : dataBytes disk' e.data = dataBytes disk e.data :=
    dataBytes_congr fun c member => same.bytes c ((List.dropLast_sublist _).subset member)
  unfold Entry.file Entry.content
  rw [bytes]

/-! ## A catalog and a store -/

theorem catalogued_length (catalogued : Catalogued disk es σ) : σ.items.length = es.length := by
  rw [catalogued.files, List.length_map]

theorem catalogued_find (catalogued : Catalogued disk es σ) (found : position filename es = some i)
    (small : i < es.length) : σ.find filename.bytes = some (es[i].file disk) := by
  rw [Keyed.find_iff, catalogued.files]
  obtain ⟨_, named⟩ := position_some found
  exact ⟨List.mem_map.mpr ⟨es[i], List.getElem_mem small, rfl⟩, named⟩

theorem catalogued_missing (catalogued : Catalogued disk es σ) (missing : position filename es = none) :
    σ.find filename.bytes = none := by
  rw [Keyed.find_none, catalogued.files]
  intro f inside
  obtain ⟨e, member, rfl⟩ := List.mem_map.mp inside
  exact position_none missing e member

theorem catalogued_free (catalog : Catalog disk dir es []) (catalogued : Catalogued disk es σ) :
    lowFree disk = σ.free := by
  have room := lowFree_catalog catalog
  have clusters : (es.map Entry.cells).flatten.length = (σ.items.map fun f => fileClusters f.content.length).sum := by
    rw [List.length_flatten, catalogued.files, List.map_map, List.map_map]
    congr 1
    apply List.map_congr_left
    intro e inside
    have tight := catalogued.tight e inside
    simp only [Function.comp_apply, Entry.file, length_content tight]
    exact tight
  rw [clusters, List.length_nil, ← catalogued_length catalogued] at room
  unfold Store.free
  omega

theorem catalogued_kept (catalogued : Catalogued disk es σ) (kept : ∀ e ∈ es, e.file disk' = e.file disk) :
    Catalogued disk' es σ := by
  refine ⟨?_, catalogued.tight, catalogued.few⟩
  rw [catalogued.files]
  apply List.map_congr_left
  intro e inside
  exact (kept e inside).symm

theorem catalogued_same (catalogued : Catalogued disk es σ) (same : SameOn (es.map Entry.cells).flatten disk disk') :
    Catalogued disk' es σ :=
  catalogued_kept catalogued fun _ inside => file_same (sameOn_subset same (cells_subset inside))

/-- No file has the name. -/
theorem catalogued_rest (catalogued : Catalogued disk es σ) (missing : position filename es = none)
    (rest : Undisturbed filename.bytes disk disk' es es') : Catalogued disk' es σ :=
  catalogued_kept catalogued fun e inside => file_same (rest e inside (position_none missing e inside)).2

theorem catalogued_add {v : File} (catalogued : Catalogued disk es σ)
    (same : SameOn (es.map Entry.cells).flatten disk disk') (file : e.file disk' = v) (fresh : σ.find v.name = none)
    (tight : e.cells.length = fileClusters e.record.size) (few : es.length < 6) :
    Catalogued disk' (es ++ [e]) (Keyed.add σ v fresh) := by
  have before := catalogued_same catalogued same
  refine ⟨?_, ?_, ?_⟩
  · rw [Keyed.items_add, before.files, List.map_append, List.map_singleton, file]
  · intro d inside
    rcases List.mem_append.mp inside with old | new
    · exact before.tight d old
    · obtain rfl := List.mem_singleton.mp new
      exact tight
  · rw [List.length_append, List.length_singleton]
    exact few

theorem other_name {j : Nat} (names : (es.map fun e => e.record.name).Nodup) (small : i < es.length) (small' : j < es.length)
    (named : es[i].record.name = filename.bytes) (apart : i ≠ j) : es[j].record.name ≠ filename.bytes := fun same =>
  apart (position_unique names small small' (named.trans same.symm))

theorem catalogued_remove (catalogued : Catalogued disk es σ) (names : (es.map fun e => e.record.name).Nodup)
    (small : i < es.length) (named : es[i].record.name = filename.bytes)
    (rest : Undisturbed filename.bytes disk disk' es (es.eraseIdx i)) :
    Catalogued disk' (es.eraseIdx i) (Keyed.remove σ filename.bytes) := by
  have length := catalogued_length catalogued
  have small' : i < σ.items.length := by rwa [length]
  have key : σ.items[i].name = filename.bytes := by
    simp [catalogued.files, Entry.file, named]
  refine ⟨?_, ?_, ?_⟩
  · rw [Keyed.items_remove small' key, catalogued.files, List.eraseIdx_map]
    apply List.map_congr_left
    intro e inside
    obtain ⟨j, less, apart, rfl⟩ := List.mem_eraseIdx_iff_getElem.mp inside
    exact (file_same (rest _ (List.getElem_mem less) (other_name names small less named apart.symm)).2).symm
  · exact fun e inside => catalogued.tight e (List.mem_of_mem_eraseIdx inside)
  · have fewer := List.length_eraseIdx_le es i
    have few := catalogued.few
    omega

theorem catalogued_change {f : File → File} (catalogued : Catalogued disk es σ)
    (names : (es.map fun e => e.record.name).Nodup) (small : i < es.length) (named : es[i].record.name = filename.bytes)
    (rest : Undisturbed filename.bytes disk disk' es (es.set i e')) (changed : e'.file disk' = f (es[i].file disk))
    (tight : e'.cells.length = fileClusters e'.record.size) (keeps : ∀ v, (f v).name = v.name) :
    Catalogued disk' (es.set i e') (Keyed.change σ filename.bytes f keeps) := by
  have length := catalogued_length catalogued
  have small' : i < σ.items.length := by rwa [length]
  have here : σ.items[i] = es[i].file disk := by simp [catalogued.files]
  have key : σ.items[i].name = filename.bytes := by rw [here, Entry.file, named]
  refine ⟨?_, ?_, ?_⟩
  · rw [Keyed.items_change small' key, here, ← changed, catalogued.files]
    apply List.ext_getElem
    · simp
    · intro j h h'
      have less : j < es.length := by simpa using h
      rw [List.getElem_map, List.getElem_set, List.getElem_set, List.getElem_map]
      by_cases same : i = j
      · rw [if_pos same, if_pos same]
      · rw [if_neg same, if_neg same]
        exact (file_same (rest _ (List.getElem_mem less) (other_name names small less named same)).2).symm
  · intro d inside
    rcases List.mem_or_eq_of_mem_set inside with old | rfl
    · exact catalogued.tight d old
    · exact tight
  · rw [List.length_set]
    exact catalogued.few

theorem catalogued_openIn (catalog : Catalog disk dir es lost) (catalogued : Catalogued disk es σ) :
    σ.openIn filename.bytes = true ↔ OpenIn filename es := by
  unfold Store.openIn OpenIn
  cases found : position filename es with
  | none =>
    rw [catalogued_missing catalogued found]
    have missing := position_none found
    simp only [Option.map_none, Option.getD_none, Bool.false_eq_true, false_iff]
    rintro ⟨e, inside, named, _⟩
    exact missing e inside named
  | some i =>
    obtain ⟨small, named⟩ := position_some found
    rw [catalogued_find catalogued found small]
    simp only [Option.map_some, Option.getD_some, Entry.file]
    constructor
    · exact fun opened => ⟨_, List.getElem_mem small, named, opened⟩
    · rintro ⟨e, inside, named', opened⟩
      rwa [← entry_unique catalog.names inside (List.getElem_mem small) (named'.trans named.symm)]

/-! ## Creating and deleting -/

variable (filename) in
theorem shows_touch (shows : Shows others s σ)
    (ready : σ.find (normalizeFilename filename).bytes = none → CreateRoom σ.free σ.items.length) :
    Completes (Source.touch filename) s fun res s' => res = (Store.touch σ (normalizeFilename filename).bytes).1 ∧
      Shows others s' (Store.touch σ (normalizeFilename filename).bytes).2 := by
  obtain @⟨dir, es, parked, catalog, catalogued⟩ := shows
  rw [← catalogued_free catalog catalogued, catalogued_length catalogued] at ready
  apply meets_mono (touch_placed filename parked catalog fun missing => ready (catalogued_missing catalogued missing))
  rintro res s' ⟨dir', es', parked', catalog', _, same, touched, _, _, new⟩
  unfold Store.touch
  cases touched with
  | present found =>
    obtain ⟨i, found⟩ := Option.ne_none_iff_exists'.mp found
    obtain ⟨small, _⟩ := position_some found
    rw [dif_neg (by simp [catalogued_find catalogued found small])]
    exact ⟨rfl, parked', catalog', catalogued_same catalogued same⟩
  | @created missing start eof r record =>
    have fresh := catalogued_missing catalogued missing
    have six := (fits_iff _).mp (ready fresh).fits
    rw [dif_pos fresh]
    have user : r.isSystem = false := by
      rcases new ⟨r, [start, eof]⟩ (List.mem_append_right _ (List.mem_singleton.mpr rfl)) with old | new
      · exact absurd record.name (position_none missing _ old)
      · exact new.1
    refine ⟨rfl, parked', catalog', catalogued_add catalogued same ?_ fresh ?_ ?_⟩
    · unfold Entry.file Entry.content
      simp only [record.name, record.size, record.closed, user, List.take_zero]
    · rw [record.size]
      rfl
    · have few := catalogued.few
      omega

/-- A system file is left alone. -/
theorem rm_system (parked : Parked s others) (catalog : Catalog s.disk dir es lost)
    (found : position (normalizeFilename filename) es = some i) (small : i < es.length)
    (system : es[i].record.isSystem = true) :
    Completes (Source.rm filename) s fun res s' => res = 1 ∧ Parked s' others ∧ s'.disk = s.disk := by
  unfold Source.rm
  apply meets_call (loadCatalog_run parked catalog)
  rintro _ _ ⟨heap, root, files, rfl, loaded, _⟩
  obtain ⟨freed, discard, owned, _⟩ := freeRootDir_loaded loaded
  have read := fileFlag_run loaded.records (i := i) (by rwa [List.length_map]) 1
  rw [List.getElem_map] at read
  rw [meets_next (getFile_run loaded.folder (normalizeFilename_short filename)), findIdx_record, found, filePointer,
    show fileSystem = fileFlag 1 from rfl, meets_next read,
    if_pos (show flagBit es[i].record.flags 1 = true from system), meets_next discard]
  exact meets_pure.mpr ⟨rfl, .empty rfl owned, rfl⟩

variable (filename) in
theorem shows_rm (shows : Shows others s σ) :
    Completes (Source.rm filename) s fun res s' => res = (Store.rm σ (normalizeFilename filename).bytes).1 ∧
      Shows others s' (Store.rm σ (normalizeFilename filename).bytes).2 := by
  obtain @⟨dir, es, parked, catalog, catalogued⟩ := shows
  have few := catalogued.few
  have removed := rm_run filename parked catalog fun _ _ _ _ => (fits_iff _).mpr (by omega)
  unfold Store.rm
  cases found : position (normalizeFilename filename) es with
  | none =>
    rw [catalogued_missing catalogued found]
    apply meets_mono removed
    rintro res s' ⟨dir', es', parked', catalog', _, rest, result⟩
    have same : res = 1 ∧ es' = es := by
      cases result with
      | missing missing => exact ⟨rfl, rfl⟩
      | systemFile other small system => exact absurd (found.symm.trans other) (by simp)
      | removed other small user => exact absurd (found.symm.trans other) (by simp)
    obtain ⟨rfl, rfl⟩ := same
    exact ⟨rfl, parked', catalog', catalogued_rest catalogued found rest⟩
  | some i =>
    obtain ⟨small, named⟩ := position_some found
    rw [catalogued_find catalogued found small]
    cases system : es[i].record.isSystem with
    | true =>
      apply meets_mono (rm_system parked catalog found small system)
      rintro res s' ⟨refused, parked', disk⟩
      simp only [Entry.file, system, if_true]
      exact ⟨refused, parked', by rwa [disk], by rwa [disk]⟩
    | false =>
      apply meets_mono removed
      rintro res s' ⟨dir', es', parked', catalog', _, rest, result⟩
      simp only [Entry.file, system, Bool.false_eq_true, if_false]
      cases result with
      | missing missing => exact absurd (found.symm.trans missing) (by simp)
      | systemFile other small' protected' =>
        obtain rfl := Option.some.inj (found.symm.trans other)
        exact absurd (system.symm.trans protected') (by decide)
      | removed other small' user =>
        obtain rfl := Option.some.inj (found.symm.trans other)
        exact ⟨rfl, parked', catalog', catalogued_remove catalogued catalog.names small named rest⟩

variable (filename) in
theorem shows_deleteSystemFile (shows : Shows others s σ) :
    Completes (Source.deleteSystemFile filename) s fun res s' =>
      res = (Store.deleteSystemFile σ (normalizeFilename filename).bytes).1 ∧
        Shows others s' (Store.deleteSystemFile σ (normalizeFilename filename).bytes).2 := by
  obtain @⟨dir, es, parked, catalog, catalogued⟩ := shows
  have few := catalogued.few
  apply meets_mono (deleteSystemFile_run filename parked catalog fun _ => (fits_iff _).mpr (by omega))
  rintro res s' ⟨dir', es', parked', catalog', _, rest, deleted⟩
  unfold Store.deleteSystemFile
  cases deleted with
  | missing missing =>
    rw [if_pos (catalogued_missing catalogued missing)]
    exact ⟨rfl, parked', catalog', catalogued_rest catalogued missing rest⟩
  | @deleted i found =>
    obtain ⟨small, named⟩ := position_some found
    rw [if_neg (by simp [catalogued_find catalogued found small])]
    exact ⟨rfl, parked', catalog', catalogued_remove catalogued catalog.names small named rest⟩

/-! ## Flags -/

theorem flagChanged_set {bit : Nat} {v : Bool} (found : position filename es = some i) (small : i < es.length) :
    flagChanged filename bit v es = es.set i (es[i].withFlag bit v) := by
  unfold flagChanged
  rw [found]
  show es.modify i _ = _
  rw [List.modify_eq_set_getElem?, List.getElem?_eq_getElem small]
  rfl

/-- One flag of the named file, or nothing when there is none. -/
theorem catalogued_flag {bit : Nat} {v : Bool} {f : File → File}
    (catalog : Catalog disk dir es lost) (catalogued : Catalogued disk es σ)
    (same : SameOn (es.map Entry.cells).flatten disk disk')
    (changed : ∀ e : Entry, (e.withFlag bit v).file disk' = f (e.file disk')) (keeps : ∀ v, (f v).name = v.name) :
    Catalogued disk' (flagChanged filename bit v es) (Keyed.change σ filename.bytes f keeps) := by
  have rest : Undisturbed filename.bytes disk disk' es (flagChanged filename bit v es) := flagChanged_undisturbed same
  cases found : position filename es with
  | none =>
    have missing := catalogued_missing catalogued found
    have unchanged : flagChanged filename bit v es = es := by
      unfold flagChanged
      rw [found]
    rw [unchanged, Keyed.change_missing missing]
    exact catalogued_same catalogued same
  | some i =>
    obtain ⟨small, named⟩ := position_some found
    rw [flagChanged_set found small] at rest ⊢
    have here := sameOn_subset same (cells_subset (List.getElem_mem small))
    apply catalogued_change catalogued catalog.names small named rest _ _ keeps
    · rw [changed, file_same here]
    · show es[i].cells.length = fileClusters (es[i].record.setFlag bit v).size
      rw [Record.size_setFlag]
      exact catalogued.tight _ (List.getElem_mem small)

theorem isSystem_setFlag_open (r : Record) (v : Bool) : (r.setFlag 0 v).isSystem = r.isSystem := by
  rw [Record.isSystem, Record.flags_setFlag, Record.flagBit_other (by decide) (by decide) (by decide), Record.isSystem]

theorem file_withOpen (v : Bool) (e : Entry) : (e.withFlag 0 v).file disk = (e.file disk).setOpen v := by
  simp [File.setOpen, isSystem_setFlag_open, Entry.withFlag, Entry.file, Entry.content, Entry.data]

theorem file_withSystem (v : Bool) (e : Entry) : (e.withFlag 1 v).file disk = (e.file disk).setSystem v := by
  simp [File.setSystem, Entry.withFlag, Entry.file, Entry.content, Entry.data]

variable (filename) in
theorem shows_openFile (shows : Shows others s σ) :
    Completes (Source.openFile filename) s fun res s' => res = (Store.openFile σ (normalizeFilename filename).bytes).1 ∧
      Shows others s' (Store.openFile σ (normalizeFilename filename).bytes).2 := by
  obtain @⟨dir, es, parked, catalog, catalogued⟩ := shows
  apply meets_mono (openFile_run filename parked catalog)
  rintro res s' ⟨dir', es', parked', catalog', same, _, ⟨opened, rfl, rfl⟩ | ⟨closed, rfl, rfl⟩⟩
  all_goals rw [← catalogued_openIn catalog catalogued] at *; unfold Store.openFile
  · rw [if_pos opened]
    exact ⟨rfl, parked', catalog', catalogued_same catalogued same⟩
  · rw [if_neg closed]
    exact ⟨rfl, parked', catalog', catalogued_flag catalog catalogued same (file_withOpen true) fun _ => rfl⟩

variable (filename) in
theorem shows_closeFile (shows : Shows others s σ) :
    Completes (Source.closeFile filename) s fun res s' => res = (Store.closeFile σ (normalizeFilename filename).bytes).1 ∧
      Shows others s' (Store.closeFile σ (normalizeFilename filename).bytes).2 := by
  obtain @⟨dir, es, parked, catalog, catalogued⟩ := shows
  apply meets_mono (closeFile_run filename parked catalog)
  rintro res s' ⟨dir', es', parked', catalog', same, _, ⟨closed, rfl, rfl⟩ | ⟨opened, rfl, rfl⟩⟩
  all_goals rw [← catalogued_openIn catalog catalogued] at *; unfold Store.closeFile
  · rw [if_neg closed]
    exact ⟨rfl, parked', catalog', catalogued_same catalogued same⟩
  · rw [if_pos opened]
    exact ⟨rfl, parked', catalog', catalogued_flag catalog catalogued same (file_withOpen false) fun _ => rfl⟩

variable (filename) in
theorem shows_setAsSystemFile (shows : Shows others s σ) :
    Completes (Source.setAsSystemFile filename) s fun res s' =>
      res = (Store.setAsSystemFile σ (normalizeFilename filename).bytes).1 ∧
        Shows others s' (Store.setAsSystemFile σ (normalizeFilename filename).bytes).2 := by
  obtain @⟨dir, es, parked, catalog, catalogued⟩ := shows
  apply meets_mono (setAsSystemFile_run filename parked catalog)
  rintro res s' ⟨dir', es', parked', catalog', same, _, ⟨opened, rfl, rfl⟩ | ⟨closed, rfl, rfl⟩⟩
  all_goals rw [← catalogued_openIn catalog catalogued] at *; unfold Store.setAsSystemFile
  · rw [if_pos opened]
    exact ⟨rfl, parked', catalog', catalogued_same catalogued same⟩
  · rw [if_neg closed]
    exact ⟨rfl, parked', catalog', catalogued_flag catalog catalogued same (file_withSystem true) fun _ => rfl⟩

/-! ## Writing -/

theorem appendStart_inCluster (tight : e.cells.length = fileClusters e.record.size) (aligned : InCluster e.record.size len)
    (some : len ≠ 0) : appendStart e = e.record.size := by
  have size : clusterSize = 64 := rfl
  have inside := aligned.resolve_left some
  unfold appendStart
  rw [tight]
  unfold fileClusters getClusterCountNeeded
  rw [size] at inside ⊢
  split <;> omega

theorem catalog_bounds (catalog : Catalog disk dir es lost) (inside : e ∈ es) :
    lowFree disk + e.cells.length ≤ takenCluster := by
  have room := lowFree_catalog catalog
  have part := (List.sublist_flatten_of_mem (List.mem_map.mpr ⟨e, inside, rfl⟩ :
    e.cells ∈ es.map Entry.cells)).length_le
  omega

/-- What an append leaves of the file. -/
theorem file_appended (tight : e.cells.length = fileClusters e.record.size) (aligned : InCluster e.record.size buffer.length)
    (room : appendNeed e.record.size buffer.length ≤ lowFree disk) (few : lowFree disk + e.cells.length ≤ takenCluster)
    (appended : Appended disk disk' e buffer buffer.length e') :
    e'.file disk' = (e.file disk).splice e.record.size buffer ∧
      e'.cells.length = fileClusters e'.record.size := by
  have size : (e.content disk).length = e.record.size := length_content tight
  have bound := appendNeed_bound (Nat.le_trans room (by omega))
  have word : e.record.size + buffer.length < wordModulus := by
    have limit : takenCluster = 4093 := rfl
    rw [tight] at few
    unfold fileClusters getClusterCountNeeded clusterSize at few
    unfold wordModulus
    split at few <;> omega
  rw [← size] at aligned room word
  obtain ⟨holds, flags, _⟩ := holds_append (file_holds tight) aligned room word appended
  obtain ⟨content, tight'⟩ := holds_content holds
  refine ⟨?_, tight'⟩
  unfold Entry.file File.splice
  rw [content, appended_name appended, ← size, List.take_length, List.drop_length, List.append_nil]
  unfold Record.isOpen Record.isSystem
  rw [flags]

/-- Nothing of the file is written over when the append is refused. -/
theorem file_refused (tight : e.cells.length = fileClusters e.record.size) (aligned : InCluster e.record.size buffer.length)
    (full : lowFree disk + 2 < appendNeed e.record.size buffer.length)
    (appended : Appended disk disk' e buffer buffer.length e') : e' = e ∧ e.file disk' = e.file disk := by
  cases appended with
  | stored cells _ room _ _ => omega
  | refused _ content =>
    have some : buffer.length ≠ 0 := by
      intro none
      rw [none] at full
      have zero : appendNeed e.record.size 0 = 0 := by simp [appendNeed, getClusterCountNeeded]
      omega
    rw [appendStart_inCluster tight aligned some] at content
    refine ⟨rfl, ?_⟩
    unfold Entry.file Entry.content
    rw [content]

theorem InsertFits.insertable {free : Nat} (fits : InsertFits free e.record.size offset len)
    (tight : e.cells.length = fileClusters e.record.size) (inside : offset < e.record.size) :
    Insertable free e.record.size offset len e.data.length ∧ e.data.length = offset / clusterSize + 1 := by
  obtain ⟨last, unfilled, aligned, room⟩ := fits
  have count : e.data.length = e.record.size / clusterSize + 1 := by
    rw [length_data, tight]
    unfold fileClusters getClusterCountNeeded
    rw [if_pos unfilled, Nat.add_sub_cancel]
    exact Nat.max_eq_right (Nat.le_add_left 1 _)
  exact ⟨⟨inside, count, unfilled, aligned, room⟩, by rw [count, last]⟩

theorem appended_cells {data : List UInt8} {bytes : Nat} (appended : Appended disk disk' e data bytes e')
    (room : appendNeed e.record.size bytes ≤ lowFree disk) :
    e'.cells.length = e.cells.length + appendNeed e.record.size bytes := by
  cases appended with
  | stored cells length _ _ _ => exact length
  | refused full _ => omega

theorem clusterCountNeeded_eq (size : Nat) : getClusterCountNeeded size = (size + 63) / 64 := by
  have block : clusterSize = 64 := rfl
  unfold getClusterCountNeeded
  rw [block]
  split <;> omega

/-- Both appends of an insertion together take the clusters that the longer file needs. -/
theorem insert_clusters {size : Nat} (inside : offset < size) (last : offset / clusterSize = size / clusterSize)
    (aligned : len = 0 ∨ (offset + len) % clusterSize ≠ 0) :
    offset / clusterSize + 2 + appendNeed offset len + appendNeed (offset + len) (size - offset) =
      fileClusters (size + len) := by
  have block : clusterSize = 64 := rfl
  rw [block] at last aligned ⊢
  unfold fileClusters appendNeed bytesInLast
  rw [clusterCountNeeded_eq, clusterCountNeeded_eq, clusterCountNeeded_eq, block]
  omega

/-- What an insertion leaves of the file. -/
theorem file_inserted (tight : e.cells.length = fileClusters e.record.size) (inside : offset < e.record.size)
    (fits : InsertFits (lowFree disk) e.record.size offset buffer.length) (few : lowFree disk ≤ takenCluster)
    (inserted : Inserted disk disk' e buffer offset e') :
    e'.file disk' = (e.file disk).splice offset buffer ∧
      e'.cells.length = fileClusters e'.record.size := by
  obtain ⟨insertable, count⟩ := fits.insertable tight inside
  obtain ⟨size, content⟩ := inserted_content inserted insertable few
  constructor
  · have front : (e.content disk).take offset = (dataBytes disk e.data).take offset := by
      rw [Entry.content, List.take_take, Nat.min_eq_left (Nat.le_of_lt inside)]
    unfold Entry.file File.splice
    rw [front, Entry.content, content, inserted_name inserted]
    unfold Record.isOpen Record.isSystem Entry.content
    rw [inserted_flags inserted]
  · have word := insertable.word few
    have tail := insertable.tail (by omega)
    obtain ⟨room1, room2⟩ := insertable.rooms
    obtain ⟨cut, e1, cutDisk, midDisk, kept, record, cells, free, mid, _, _, first, second⟩ := inserted.steps
    have size0 : cut.record.size = offset := by
      rw [record]
      exact Record.size_setSize _ _ (by omega)
    rw [← free, ← size0] at room1
    have size1 := (appended_size first).1
    have cells1 := appended_cells first room1
    rw [appendedSize, if_pos room1, size0, Nat.mod_eq_of_lt (by omega)] at size1
    rw [size0] at room1 cells1
    rw [tail] at second
    have cells2 := appended_cells second (by rw [size1, mid, appendedFree, if_pos room1, free]; exact room2)
    rw [cells2, cells1, cells, size1, size]
    exact insert_clusters inside fits.last fits.aligned

variable (filename buffer offset) in
theorem shows_write (shows : Shows others s σ) (ready : ∀ f, σ.find (normalizeFilename filename).bytes = some f →
      (StoreCall.write filename buffer offset).FitsFile σ.free f) :
    Completes (Source.write filename buffer offset) s fun res s' =>
      res = (Store.write σ (normalizeFilename filename).bytes buffer offset).1 ∧
        Shows others s' (Store.write σ (normalizeFilename filename).bytes buffer offset).2 := by
  obtain @⟨dir, es, parked, catalog, catalogued⟩ := shows
  have free := catalogued_free catalog catalogued
  have fits : ∀ e ∈ es, e.record.name = (normalizeFilename filename).bytes →
      (StoreCall.write filename buffer offset).FitsFile (lowFree s.disk) (e.file s.disk) := by
    intro e inside named
    rw [free]
    apply ready
    rw [Keyed.find_iff, catalogued.files]
    exact ⟨List.mem_map.mpr ⟨e, inside, rfl⟩, named⟩
  have insertable : ∀ e ∈ es, e.record.name = (normalizeFilename filename).bytes → offset < e.record.size →
      getClusterCountNeeded ((e.record.size + buffer.length) % wordModulus) ≤ lowFree s.disk + 2 →
        InsertFits (lowFree s.disk) e.record.size offset buffer.length := by
    intro e inside named before enough
    have insert := (fits e inside named).2
    simp only [Entry.file, length_content (catalogued.tight e inside)] at insert
    apply insert _ before
    rintro (beyond | full)
    · omega
    · omega
  have tight := catalogued.tight
  have ready' : ∀ e ∈ es, e.record.name = (normalizeFilename filename).bytes →
      WriteReady (lowFree s.disk) e.record.size offset buffer.length e.data.length := by
    intro e inside named
    have few := catalog_bounds catalog inside
    have append := (fits e inside named).1
    simp only [Entry.file, length_content (tight e inside)] at append
    refine ⟨fun last => ?_, fun before enough => ?_⟩
    · rw [← last]
      exact (append last).2
    · exact ((insertable e inside named before enough).insertable (tight e inside) before).1.ready (by omega)
  apply meets_mono (write_run filename buffer offset parked catalog ready')
  rintro res s' ⟨dir', es', lost', parked', catalog', _, rest, lossless, written⟩
  obtain rfl : lost' = [] := lossless fun e inside named before enough =>
    ((insertable e inside named before enough).insertable (tight e inside) before).2
  unfold Store.write
  cases written with
  | missing missing same =>
    rw [catalogued_missing catalogued missing]
    exact ⟨rfl, parked', catalog', by rwa [same]⟩
  | beyond found small outside same =>
    rw [catalogued_find catalogued found small]
    simp only [Entry.file, length_content (tight _ (List.getElem_mem small))]
    rw [if_pos (.inl outside)]
    exact ⟨rfl, parked', catalog', by rwa [same]⟩
  | refused found small before full same =>
    rw [catalogued_find catalogued found small]
    simp only [Entry.file, length_content (tight _ (List.getElem_mem small))]
    rw [← free, if_pos (.inr ⟨before, full⟩)]
    exact ⟨rfl, parked', catalog', by rwa [same]⟩
  | @appended i found small last e' appended =>
    obtain ⟨_, named⟩ := position_some found
    have here := List.getElem_mem small
    have length : (es[i].content s.disk).length = es[i].record.size := length_content (tight _ here)
    have accepted : ¬ Refuses σ.free es[i].record.size offset buffer.length := by
      rintro (beyond | full)
      · omega
      · omega
    obtain ⟨aligned, room⟩ := (fits _ here named).1 (last.trans length.symm)
    rw [last] at aligned room
    rw [catalogued_find catalogued found small]
    simp only [Entry.file, length]
    rw [if_neg accepted, ← free]
    rcases room with room | full
    · have fewer : ¬ Overflows (lowFree s.disk) offset buffer.length := by
        unfold Overflows
        rw [last]
        omega
      obtain ⟨file, tight'⟩ := file_appended (tight _ here) aligned room (catalog_bounds catalog here) appended
      rw [if_neg fun both => fewer both.2]
      rw [← last] at file
      exact ⟨rfl, parked', catalog', catalogued_change catalogued catalog.names small named rest file tight'
        fun _ => rfl⟩
    · obtain ⟨rfl, file⟩ := file_refused (tight _ here) aligned full appended
      rw [if_pos ⟨last, by unfold Overflows; rwa [last]⟩]
      rw [List.set_getElem_self] at catalog'
      refine ⟨rfl, parked', catalog', catalogued_kept catalogued fun e inside => ?_⟩
      by_cases same : e.record.name = (normalizeFilename filename).bytes
      · rw [entry_unique catalog.names inside here (same.trans named.symm)]
        exact file
      · exact file_same (rest e inside same).2
  | @inserted i found small before enough e' inserted =>
    obtain ⟨_, named⟩ := position_some found
    have here := List.getElem_mem small
    have few := catalog_bounds catalog here
    have length : (es[i].content s.disk).length = es[i].record.size := length_content (tight _ here)
    have accepted : ¬ Refuses σ.free es[i].record.size offset buffer.length := by
      rw [← free]
      rintro (beyond | full)
      · omega
      · omega
    rw [catalogued_find catalogued found small]
    simp only [Entry.file, length]
    rw [if_neg accepted, if_neg fun both => absurd both.1 (Nat.ne_of_lt before)]
    obtain ⟨file, tight'⟩ := file_inserted (tight _ here) before (insertable _ here named before enough) (by omega) inserted
    exact ⟨rfl, parked', catalog', catalogued_change catalogued catalog.names small named rest file tight'
      fun _ => rfl⟩

end

end Delos.Invariants
