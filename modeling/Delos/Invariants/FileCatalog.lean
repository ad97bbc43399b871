import Delos.Source.VfsOperations
import Delos.Invariants.DirectoryLoading

/-!
# The files of a volume

A `Catalog` is the disk between two operations: the chain of the directory holds
the records of the entries, and every entry has a chain of its own that starts at
the cluster its record names. Every operation ends in `store_root_folder`, the
three calls that put the loaded records back.
-/
namespace Delos.Invariants
open Lib Source

structure Entry where
  record : Record
  cells : List Nat

/-- The chain of the entry begins where its record says. -/
structure Entry.Placed (e : Entry) (disk : ByteMemory) : Prop where
  head : e.cells.head? = some e.record.startCluster
  ends : Ends disk e.cells

structure Directory (disk : ByteMemory) (dir : List Nat) (rs : List Record) : Prop where
  ends : Ends disk (0 :: dir)
  length : dir.length = dirClusters rs.length
  stored : DirPrefix disk (0 :: dir) rs rs.length
  fits : Fits rs.length

structure Catalog (disk : ByteMemory) (dir : List Nat) (es : List Entry) (lost : List Nat) : Prop where
  volume : Volume disk ((0 :: dir) :: es.map Entry.cells) lost
  directory : Directory disk dir (es.map Entry.record)
  files : ∀ e ∈ es, e.Placed disk
  names : (es.map fun e => e.record.name).Nodup

section
variable {disk disk' : ByteMemory} {dir : List Nat} {rs : List Record} {es : List Entry} {e : Entry}
  {lost : List Nat} {i : Nat}

theorem directory_congr (directory : Directory disk dir rs) (same : SameOn (0 :: dir) disk disk') :
    Directory disk' dir rs := by
  have needed := dirClusters_eq directory.fits
  have chunk : maxFilesInOneCluster = 2 := by decide
  have enough : rs.length ≤ maxFilesInOneCluster * (0 :: dir).length := by
    rw [chunk, List.length_cons, directory.length]
    omega
  exact ⟨ends_same directory.ends same.fat, directory.length,
    dirPrefix_congr directory.stored enough same.bytes, directory.fits⟩

theorem placed_same (placed : e.Placed disk)
    (same : ∀ c ∈ e.cells, fatValue disk' c = fatValue disk c) : e.Placed disk' :=
  ⟨placed.head, ends_same placed.ends same⟩

theorem cells_subset (inside : e ∈ es) : e.cells ⊆ (es.map Entry.cells).flatten := fun _ member =>
  List.mem_flatten.mpr ⟨e.cells, List.mem_map.mpr ⟨e, inside, rfl⟩, member⟩

/-- The chain of one entry in front, the others behind it. -/
theorem entries_perm (small : i < es.length) : (es.map Entry.cells).Perm
    (es[i].cells :: (es.eraseIdx i).map Entry.cells) :=
  (List.getElem_cons_eraseIdx_perm small).symm.map Entry.cells

theorem entries_set_perm (small : i < es.length) (e : Entry) : ((es.set i e).map Entry.cells).Perm
    (e.cells :: (es.eraseIdx i).map Entry.cells) :=
  (List.set_perm_cons_eraseIdx small e).map Entry.cells

theorem sameOn_entries (small : i < es.length) (here : SameOn es[i].cells disk disk')
    (rest : SameOn ((es.eraseIdx i).map Entry.cells).flatten disk disk') :
    SameOn (es.map Entry.cells).flatten disk disk' := by
  have split : ∀ c ∈ (es.map Entry.cells).flatten,
      c ∈ es[i].cells ∨ c ∈ ((es.eraseIdx i).map Entry.cells).flatten := fun c member => by
    rw [(entries_perm small).flatten.mem_iff, List.flatten_cons] at member
    exact List.mem_append.mp member
  refine ⟨fun c member => ?_, fun c member => ?_⟩
  · exact (split c member).elim (here.fat c) (rest.fat c)
  · exact (split c member).elim (here.bytes c) (rest.bytes c)

theorem catalog_front (catalog : Catalog disk dir es lost) (small : i < es.length) :
    Volume disk (es[i].cells :: (0 :: dir) :: (es.eraseIdx i).map Entry.cells) lost :=
  volume_perm catalog.volume (((entries_perm small).cons _).trans (List.Perm.swap _ _ _))

theorem mem_entries (small : i < es.length) : e ∈ es ↔ e = es[i] ∨ e ∈ es.eraseIdx i := by
  rw [← List.mem_cons]
  exact (List.getElem_cons_eraseIdx_perm small).symm.mem_iff

theorem mem_set_entries (small : i < es.length) (e' : Entry) :
    e ∈ es.set i e' ↔ e = e' ∨ e ∈ es.eraseIdx i := by
  rw [← List.mem_cons]
  exact (List.set_perm_cons_eraseIdx small e').mem_iff

theorem names_set (small : i < es.length) (same : e.record.name = es[i].record.name) :
    ((es.set i e).map fun e => e.record.name) = es.map fun e => e.record.name := by
  refine List.ext_getElem (by simp) fun j h h' => ?_
  rw [List.getElem_map, List.getElem_map, List.getElem_set]
  split
  next here =>
    subst here
    exact same
  next => rfl

/-! ## Searching -/

/-- The position of the entry with the given name. -/
def position (filename : CString) (es : List Entry) : Option Nat :=
  es.findIdx? fun e => Named filename e.record

theorem findIdx_record (filename : CString) :
    (es.map Entry.record).findIdx? (Named filename) = position filename es := by
  rw [List.findIdx?_map]
  rfl

theorem position_some {filename : CString} (found : position filename es = some i) :
    ∃ small : i < es.length, es[i].record.name = filename.bytes := by
  obtain ⟨small, named, _⟩ := List.findIdx?_eq_some_iff_getElem.mp found
  exact ⟨small, of_decide_eq_true named⟩

theorem position_none {filename : CString} (missing : position filename es = none) :
    ∀ e ∈ es, e.record.name ≠ filename.bytes := fun e inside =>
  of_decide_eq_false (List.findIdx?_eq_none_iff.mp missing e inside)

/-! ## Files left alone -/

/-- Every entry with another name is still there, and so are its clusters. -/
def Undisturbed (target : List UInt8) (disk disk' : ByteMemory) (es es' : List Entry) : Prop :=
  ∀ e ∈ es, e.record.name ≠ target → e ∈ es' ∧ SameOn e.cells disk disk'

theorem undisturbed_refl {target : List UInt8} : Undisturbed target disk disk es es :=
  fun _ inside _ => ⟨inside, sameOn_refl⟩

theorem undisturbed_trans {target : List UInt8} {disk'' : ByteMemory} {es' es'' : List Entry}
    (first : Undisturbed target disk disk' es es') (second : Undisturbed target disk' disk'' es' es'') :
    Undisturbed target disk disk'' es es'' := by
  intro e inside other
  obtain ⟨inside', same⟩ := first e inside other
  obtain ⟨inside'', same'⟩ := second e inside' other
  exact ⟨inside'', sameOn_trans same same'⟩

theorem undisturbed_same {target : List UInt8} {es' : List Entry}
    (kept : ∀ e ∈ es, e.record.name ≠ target → e ∈ es')
    (same : SameOn (es.map Entry.cells).flatten disk disk') : Undisturbed target disk disk' es es' :=
  fun e inside other => ⟨kept e inside other, sameOn_subset same (cells_subset inside)⟩

theorem undisturbed_set {target : List UInt8} (small : i < es.length)
    (named : es[i].record.name = target)
    (same : SameOn ((es.eraseIdx i).map Entry.cells).flatten disk disk') (e' : Entry) :
    Undisturbed target disk disk' es (es.set i e') := by
  intro e inside other
  have rest : e ∈ es.eraseIdx i := by
    rcases (mem_entries small).mp inside with here | rest
    · subst here
      exact absurd named other
    · exact rest
  exact ⟨(mem_set_entries small e').mpr (Or.inr rest), sameOn_subset same (cells_subset rest)⟩

end

section
variable {s : Fs} {others : List (Nat × Nat)} {files : Nat} {dir lost : List Nat} {rs : List Record}
  {chains : List (List Nat)} {es : List Entry}

/-- With it comes where the blocks of the folder are. -/
theorem loadCatalog_placed (parked : Parked s others) (catalog : Catalog s.disk dir es lost) :
    Completes loadRootFolder s fun _ s' => ∃ heap root files,
      s' = { s with heap := heap, root := root } ∧ Loaded s' others files (es.map Entry.record) ∧
        Kept others s.heap heap ∧ LoadedFrom s root files es.length heap := by
  have load := loadRootFolder_run parked catalog.volume catalog.directory.ends catalog.directory.length
    catalog.directory.stored catalog.directory.fits
  rwa [List.length_map] at load

theorem loadCatalog_run (parked : Parked s others) (catalog : Catalog s.disk dir es lost) :
    Completes loadRootFolder s fun _ s' => ∃ heap root files,
      s' = { s with heap := heap, root := root } ∧ Loaded s' others files (es.map Entry.record) ∧
        Kept others s.heap heap := by
  apply meets_mono (loadCatalog_placed parked catalog)
  rintro _ s' ⟨heap, root, files, same, loaded, kept, _⟩
  exact ⟨heap, root, files, same, loaded, kept⟩

theorem storeRootFolder_run (loaded : Loaded s others files rs)
    (volume : Volume s.disk ((0 :: dir) :: chains) lost) (ends : Ends s.disk (0 :: dir))
    (fits : Fits rs.length) (room : dirClusters rs.length ≤ lowFree s.disk + dir.length) :
    ∃ heap disk dir', heap = discardedHeap files s.root s.heap ∧ storeRootFolder s = .ok ((), { s with heap := heap, disk := disk, root := 0 }) ∧
      Owned heap others ∧ Kept others s.heap heap ∧ RecordsAt heap files rs ∧
      Volume disk ((0 :: dir') :: chains) lost ∧ Directory disk dir' rs ∧
      SameOn chains.flatten s.disk disk ∧
      lowFree disk + dirClusters rs.length = lowFree s.disk + dir.length := by
  obtain ⟨freed, free, volumeFreed, sameFreed, _⟩ := freeAllOccupiedClusters_run ends volume
  have before := lowFree_eq volume
  have between := lowFree_eq volumeFreed
  simp only [List.flatten_cons, List.length_append, List.length_cons, List.length_nil] at before between
  have loadedFreed := loaded.onDisk freed
  obtain ⟨dir', disk, save, volume', ends', length, stored, same, count⟩ :=
    saveRootFolder_run (s := { s with disk := freed }) loadedFreed.folder fits volumeFreed
      (by simp only; omega)
  have discard := freeFolder_heap (loaded.onDisk disk).owned (loaded.onDisk disk).pointer
  obtain ⟨owned, kept, records⟩ := discarded_loaded loaded
  refine ⟨_, disk, dir', rfl, ?_, owned, kept, records, volume', ⟨ends', length, stored, fits⟩,
    sameOn_trans sameFreed same, ?_⟩
  · unfold storeRootFolder rootFirstStartCluster
    rw [run_bind free, run_bind save]
    exact discard
  · simp only at count
    omega

/-- The loaded records are put back next to the chains of their files. -/
theorem storeCatalog_discards (loaded : Loaded s others files (es.map Entry.record))
    (volume : Volume s.disk ((0 :: dir) :: es.map Entry.cells) lost) (ends : Ends s.disk (0 :: dir))
    (placed : ∀ e ∈ es, e.Placed s.disk) (names : (es.map fun e => e.record.name).Nodup)
    (fits : Fits es.length) (room : dirClusters es.length ≤ lowFree s.disk + dir.length) :
    ∃ heap disk dir', heap = discardedHeap files s.root s.heap ∧ storeRootFolder s = .ok ((), { s with heap := heap, disk := disk, root := 0 }) ∧
      Owned heap others ∧ Kept others s.heap heap ∧ RecordsAt heap files (es.map Entry.record) ∧
      Catalog disk dir' es lost ∧ SameOn (es.map Entry.cells).flatten s.disk disk ∧
      lowFree disk + dirClusters es.length = lowFree s.disk + dir.length := by
  have size : (es.map Entry.record).length = es.length := List.length_map _
  rw [← size] at fits room
  obtain ⟨heap, disk, dir', freed, run, owned, kept, records, volume', directory, same, count⟩ :=
    storeRootFolder_run loaded volume ends fits room
  rw [size] at count
  refine ⟨heap, disk, dir', freed, run, owned, kept, records, ⟨volume', directory, fun e inside => ?_, names⟩,
    same, count⟩
  exact placed_same (placed e inside) fun c member => same.fat c (cells_subset inside member)

theorem storeCatalog_run (loaded : Loaded s others files (es.map Entry.record))
    (volume : Volume s.disk ((0 :: dir) :: es.map Entry.cells) lost) (ends : Ends s.disk (0 :: dir))
    (placed : ∀ e ∈ es, e.Placed s.disk) (names : (es.map fun e => e.record.name).Nodup)
    (fits : Fits es.length) (room : dirClusters es.length ≤ lowFree s.disk + dir.length) :
    ∃ heap disk dir', storeRootFolder s = .ok ((), { s with heap := heap, disk := disk, root := 0 }) ∧
      Owned heap others ∧ Kept others s.heap heap ∧ RecordsAt heap files (es.map Entry.record) ∧
      Catalog disk dir' es lost ∧ SameOn (es.map Entry.cells).flatten s.disk disk ∧
      lowFree disk + dirClusters es.length = lowFree s.disk + dir.length := by
  obtain ⟨heap, disk, dir', _, stored⟩ := storeCatalog_discards loaded volume ends placed names fits room
  exact ⟨heap, disk, dir', stored⟩

/-- One entry was changed, the others are as they were. -/
theorem storeChanged_run {i : Nat} (e' : Entry) (small : i < es.length)
    (named : e'.record.name = es[i].record.name)
    (loaded : Loaded s others files ((es.map Entry.record).set i e'.record))
    (volume : Volume s.disk (e'.cells :: (0 :: dir) :: (es.eraseIdx i).map Entry.cells) lost)
    (ends : Ends s.disk (0 :: dir)) (placed : e'.Placed s.disk)
    (rest : ∀ e ∈ es.eraseIdx i, e.Placed s.disk) (names : (es.map fun e => e.record.name).Nodup)
    (fits : Fits es.length) (room : dirClusters es.length ≤ lowFree s.disk + dir.length) :
    ∃ heap disk dir', storeRootFolder s = .ok ((), { s with heap := heap, disk := disk, root := 0 }) ∧
      Owned heap others ∧ Kept others s.heap heap ∧
      RecordsAt heap files ((es.set i e').map Entry.record) ∧
      Catalog disk dir' (es.set i e') lost ∧
      SameOn ((es.eraseIdx i).map Entry.cells).flatten s.disk disk ∧
      SameOn e'.cells s.disk disk ∧
      lowFree disk + dirClusters es.length = lowFree s.disk + dir.length := by
  have perm := entries_set_perm small e'
  have size : (es.set i e').length = es.length := List.length_set
  rw [← List.map_set] at loaded
  have order : Volume s.disk ((0 :: dir) :: (es.set i e').map Entry.cells) lost :=
    volume_perm volume ((List.Perm.swap _ _ _).trans (perm.symm.cons _))
  obtain ⟨heap, disk, dir', run, owned, kept, records, catalog, same, count⟩ :=
    storeCatalog_run loaded order ends (fun e inside => by
      rcases (mem_set_entries small e').mp inside with rfl | inside
      · exact placed
      · exact rest e inside) (by rwa [names_set small named]) (by rwa [size]) (by rwa [size])
  rw [size] at count
  have all : ∀ c ∈ e'.cells ++ ((es.eraseIdx i).map Entry.cells).flatten,
      c ∈ ((es.set i e').map Entry.cells).flatten := fun c member =>
    perm.flatten.mem_iff.mpr member
  exact ⟨heap, disk, dir', run, owned, kept, records, catalog,
    sameOn_subset same fun c member => all c (List.mem_append_right _ member),
    sameOn_subset same fun c member => all c (List.mem_append_left _ member), count⟩

end

end Delos.Invariants
