import Delos.Invariants.ChainWriting

/-!
# Appending to a file

`append_data` fills the last cluster of the file and puts what is left into new
clusters, behind which it creates the EOF cluster anew. With too few free
clusters only the last cluster was written and the directory keeps its size.
-/
namespace Delos.Invariants
open Lib Source

/-- The bytes that still go to the last cluster. -/
def bytesInLast (size bytes : Nat) : Nat := min bytes (clusterSize - size % clusterSize)

/-- The clusters the rest of the bytes needs. -/
def appendNeed (size bytes : Nat) : Nat := getClusterCountNeeded (bytes - bytesInLast size bytes)

/-- The place in the chain where `append_data` starts to write. -/
def appendStart (e : Entry) : Nat :=
  clusterSize * (e.cells.length - 2) + e.record.size % clusterSize

/-- The clusters that hold data. -/
def Entry.data (e : Entry) : List Nat := e.cells.dropLast

inductive Appended (disk disk' : ByteMemory) (e : Entry) (data : List UInt8) (bytes : Nat) :
    Entry → Prop
  | stored (cells : List Nat) (length : cells.length = e.cells.length + appendNeed e.record.size bytes)
      (room : appendNeed e.record.size bytes ≤ lowFree disk)
      (content : (dataBytes disk' cells.dropLast).take (appendStart e + bytes) =
        (dataBytes disk e.data).take (appendStart e) ++ data.take bytes)
      (idle : bytes = 0 → dataBytes disk' cells.dropLast = dataBytes disk e.data) :
      Appended disk disk' e data bytes ⟨e.record.setSize ((e.record.size + bytes) % wordModulus), cells⟩
  | refused (full : lowFree disk + 2 < appendNeed e.record.size bytes)
      (content : (dataBytes disk' e.data).take (appendStart e) =
        (dataBytes disk e.data).take (appendStart e)) :
      Appended disk disk' e data bytes e

section Lists
variable {α : Type} (front last d : List α) (off : Nat)

theorem take_behind (rest : List α) (n m : Nat) (size : front.length = n) :
    (front ++ rest).take (n + m) = front ++ rest.take m := by
  rw [← size, List.take_length_add_append]

theorem take_stored (fits : off + d.length ≤ last.length) :
    (front ++ (last.take off ++ d ++ last.drop (off + d.length))).take (front.length + off + d.length) =
      (front ++ last).take (front.length + off) ++ d := by
  have size : (front ++ last.take off ++ d).length = front.length + off + d.length := by
    simp only [List.length_append, List.length_take]
    omega
  rw [← List.append_assoc, ← List.append_assoc, List.take_left' size, List.take_length_add_append]

theorem take_kept (rest : List α) (fits : off ≤ last.length) :
    (front ++ (last.take off ++ rest)).take (front.length + off) =
      (front ++ last).take (front.length + off) := by
  rw [List.take_length_add_append, List.take_length_add_append, List.take_left' (by
    rw [List.length_take]
    omega)]

theorem take_grown (rest : List α) (m : Nat) (whole : last.length = off + d.length) :
    (front ++ (last.take off ++ d ++ last.drop (off + d.length)) ++ rest).take
        (front.length + off + (d.length + m)) =
      (front ++ last).take (front.length + off) ++ (d ++ rest.take m) := by
  have none : last.drop (off + d.length) = [] := List.drop_eq_nil_of_le (by omega)
  have size : (front ++ (last.take off ++ d)).length = front.length + off + d.length := by
    simp only [List.length_append, List.length_take]
    omega
  rw [none, List.append_nil, ← Nat.add_assoc, take_behind _ _ _ _ size, List.take_length_add_append]
  simp

end Lists

section
variable {s : Fs} {disk : ByteMemory} {others live : List (Nat × Nat)} {files : Nat}
  {data : List UInt8} {buffer : Buffer} {dir lost : List Nat} {chains : List (List Nat)}
  {es : List Entry} {filename : CString} {i : Nat}

/-- Every chain that ends has a last cluster of data. -/
theorem ends_shape {cells : List Nat} (ends : Ends disk cells) :
    ∃ front p marker, cells = front ++ [p] ++ [marker] ∧ fatValue disk marker = eofCluster := by
  obtain ⟨front, marker, rfl, nonempty, eof⟩ := ends
  rcases List.eq_nil_or_concat front with none | ⟨front, p, rfl⟩
  · exact absurd none nonempty
  · exact ⟨front, p, marker, by rw [List.concat_eq_append], eof⟩

/-- A store into a cluster of a file leaves the catalog as it is. -/
theorem catalog_store {k c : Nat} {bytes : List UInt8} (catalog : Catalog disk dir es lost)
    (small : i < es.length) (member : c ∈ es[i].cells) (fits : k + bytes.length ≤ clusterSize) :
    Catalog (disk.writeBytes (clusterAddr c + k) bytes) dir es lost := by
  have volume := catalog_front catalog small
  have cluster := volume_count volume List.mem_cons_self member
  have same := sameOn_store volume member fits
  rw [List.flatten_cons] at same
  refine ⟨volume_store catalog.volume cluster fits,
    directory_congr catalog.directory (sameOn_subset same (List.subset_append_left _ _)),
    fun e inside => placed_same (catalog.files e inside) fun d inner => ?_, catalog.names⟩
  exact fatValue_writeCluster cluster fits (volume_count catalog.volume
    (List.mem_cons_of_mem _ (List.mem_map.mpr ⟨e, inside, rfl⟩)) inner)

/-- The EOF cluster of a chain is given back. -/
theorem freeMarker_run {front : List Nat} {p marker : Nat}
    (volume : Volume s.disk ((front ++ [p] ++ [marker]) :: chains) lost) :
    fat p s = .ok (marker, s) ∧
      setFat marker freeCluster s = .ok ((), { s with disk := setFatValue s.disk marker freeCluster }) ∧
      Volume (setFatValue s.disk marker freeCluster) ((front ++ [p]) :: chains) lost ∧
      SameOn chains.flatten s.disk (setFatValue s.disk marker freeCluster) ∧
      SameBytes s.disk (setFatValue s.disk marker freeCluster) ∧
      lowFree (setFatValue s.disk marker freeCluster) = lowFree s.disk + 1 := by
  have links := volume
  rw [List.append_assoc] at links
  obtain ⟨small, markerSmall, link, _⟩ := volume_link_at front p marker [] links
  have detached : Volume s.disk ([marker] :: (front ++ [p]) :: chains) lost :=
    volume_perm (volume_split _ _ volume) (List.Perm.swap _ _ _)
  have freed := volume_drop_nil (volume_free_head detached)
  have same := sameOn_assign (v := freeCluster) detached List.mem_cons_self
  rw [List.flatten_cons] at same
  refine ⟨?_, setFat_run s markerSmall _, freed, sameOn_subset same (List.subset_append_right _ _),
    sameBytes_setFatValue markerSmall, ?_⟩
  · rw [fat_run s small, link]
  · have before := lowFree_eq volume
    have after := lowFree_eq freed
    simp only [List.flatten_cons, List.length_append, List.length_singleton] at before after
    omega

/-- The clusters behind the last one and the new EOF cluster. -/
theorem growChain_run {front : List Nat} {p need stored bytes : Nat} {post : Unit → Fs → Prop}
    {f : Unit → Kernel Unit} (supplies : Supplies s.heap others data buffer)
    (owned : Owned s.heap live) (subset : others ⊆ live) (positive : 0 < need)
    (before : stored + clusterSize * (need - 1) ≤ bytes)
    (after : bytes ≤ stored + clusterSize * need) (inside : bytes ≤ data.length)
    (volume : Volume s.disk ((front ++ [p]) :: chains) lost) (room : need < lowFree s.disk)
    (rest : ∀ news marker disk, news.length = need →
      Volume disk ((front ++ [p] ++ news ++ [marker]) :: chains) lost →
      Ends disk (front ++ [p] ++ news ++ [marker]) →
      (dataBytes disk news).take (bytes - stored) = (data.drop stored).take (bytes - stored) →
      (∀ c ∈ front ++ [p], clusterBytes disk c = clusterBytes s.disk c) →
      SameOn chains.flatten s.disk disk → lowFree disk + need + 1 = lowFree s.disk →
      Completes (f ()) { s with disk := disk } post) :
    Completes (do
      let (prevCluster, bytesStored) ← appendClustersLoop buffer (need - 1) p stored
      let currCluster ← getFreeCluster
      setFat prevCluster currCluster
      let data ← readBuffer buffer bytesStored (bytes - bytesStored)
      writeMemory (clusterAddr currCluster) data
      let eof ← getFreeCluster
      setFat currCluster eof
      let u ← setFat eof eofCluster
      f u) s post := by
  obtain ⟨front', p', news, looped, loop, shape, length, volumeLoop, content, old, same, count⟩ :=
    appendClustersLoop_run (need - 1) front p stored supplies owned subset (by omega) volume (by omega)
  have step : clusterSize * need = clusterSize * (need - 1) + clusterSize := by
    rw [← Nat.mul_succ, Nat.succ_eq_add_one, Nat.sub_add_cancel positive]
  generalize hm : stored + clusterSize * (need - 1) = index at *
  have size : ((data.drop index).take (bytes - index)).length = bytes - index := by
    rw [List.length_take, List.length_drop]
    omega
  obtain ⟨i, linked, written, take, link, write, volumeLast, start, oldLast, sameLast, countLast⟩ :=
    appendCluster_run (s := { s with disk := looped }) front' p'
      ((data.drop index).take (bytes - index)) volumeLoop (by omega) (by simp only; omega)
  obtain ⟨eof, linkedEof, disk, takeEof, linkEof, mark, volumeEof, ends, sameEof, bytesEof, countEof⟩ :=
    closeChain_run (s := { s with disk := written }) (front' ++ [p']) i volumeLast
      (by simp only at *; omega)
  unfold Completes
  rw [meets_next loop]
  dsimp only
  rw [meets_next take, meets_next link, meets_next (readBuffer_run (s := { s with disk := linked })
    supplies owned subset (by omega)), meets_next write, meets_next takeEof, meets_next linkEof,
    meets_next mark]
  have chain : front' ++ [p'] ++ [i] ++ [eof] = front ++ [p] ++ (news ++ [i]) ++ [eof] := by
    rw [shape]
    simp
  have clusters : ∀ c ∈ front' ++ [p'] ++ [i], clusterBytes disk c = clusterBytes written c :=
    fun c member => bytesEof c (volume_count volumeLast List.mem_cons_self member)
  have kept : ∀ c ∈ front ++ [p] ++ news, clusterBytes disk c = clusterBytes looped c := fun c member => by
    rw [← shape] at member
    rw [clusters c (List.mem_append_left _ member)]
    exact oldLast c member
  rw [chain] at volumeEof ends
  refine rest (news ++ [i]) eof disk ?_ volumeEof ends ?_ (fun c member => ?_)
    (sameOn_trans same (sameOn_trans sameLast sameEof)) ?_
  · rw [List.length_append, length, List.length_singleton, Nat.sub_add_cancel positive]
  · have front : dataBytes disk news = (data.drop stored).take (clusterSize * (need - 1)) := by
      rw [← content]
      exact dataBytes_congr fun c member => kept c (List.mem_append_right _ member)
    have last := clusters i (List.mem_append_right _ List.mem_cons_self)
    rw [dataBytes, List.flatMap_append, List.flatMap_singleton, show news.flatMap (clusterBytes disk) = _ from front,
      last]
    have split : bytes - stored = clusterSize * (need - 1) + (bytes - index) := by omega
    have full : ((data.drop stored).take (clusterSize * (need - 1))).length =
        clusterSize * (need - 1) := by
      rw [List.length_take, List.length_drop]
      omega
    rw [size] at start
    have right : (data.drop stored).take (bytes - stored) =
        (data.drop stored).take (clusterSize * (need - 1)) ++ (data.drop index).take (bytes - index) := by
      rw [split, List.take_add, List.drop_drop, hm]
    rw [right, split, ← start]
    exact take_behind _ _ _ _ full
  · rw [kept c (List.mem_append_left _ member)]
    exact old c member
  · simp only at *
    omega

theorem appendNeed_pos {size bytes : Nat} (more : bytesInLast size bytes < bytes) :
    0 < appendNeed size bytes ∧ bytesInLast size bytes = clusterSize - size % clusterSize ∧
      bytesInLast size bytes + clusterSize * (appendNeed size bytes - 1) ≤ bytes ∧
      bytes ≤ bytesInLast size bytes + clusterSize * appendNeed size bytes := by
  unfold appendNeed getClusterCountNeeded
  unfold bytesInLast at *
  unfold clusterSize at *
  split <;> omega

/-- The first cluster of a chain does not depend on what follows its data. -/
theorem placed_extend {front : List Nat} {p : Nat} {back back' : List Nat} {r r' : Record}
    (placed : (Entry.mk r (front ++ [p] ++ back)).Placed disk) (same : r'.startCluster = r.startCluster)
    {disk' : ByteMemory} (ends : Ends disk' (front ++ [p] ++ back')) :
    (Entry.mk r' (front ++ [p] ++ back')).Placed disk' := by
  refine ⟨?_, ends⟩
  have head := placed.head
  rw [same]
  cases front with
  | nil => exact head
  | cons c rest => exact head

theorem placed_setSize {e : Entry} {v : Nat} (placed : e.Placed disk) :
    (Entry.mk (e.record.setSize v) e.cells).Placed disk :=
  ⟨by rw [Record.startCluster_setSize]; exact placed.head, placed.ends⟩

/-- The part of `append_data` up to the new size, with the chain it found. -/
structure FileChain (disk : ByteMemory) (e : Entry) (front : List Nat) (p marker : Nat) : Prop where
  shape : e.cells = front ++ [p] ++ [marker]
  eof : fatValue disk marker = eofCluster
  start : e.record.startCluster = (front ++ [p]).headD 0

theorem placed_chain {e : Entry} (placed : e.Placed disk) :
    ∃ front p marker, FileChain disk e front p marker := by
  obtain ⟨front, p, marker, shape, eof⟩ := ends_shape placed.ends
  refine ⟨front, p, marker, shape, eof, ?_⟩
  have head := placed.head
  rw [shape] at head
  cases front with
  | nil => exact (Option.some.inj head).symm
  | cons c rest => exact (Option.some.inj head).symm

/-- The bytes that go to the last cluster. -/
theorem dataBytes_written {e : Entry} {front : List Nat} {p marker : Nat} {d : List UInt8}
    (chain : FileChain disk e front p marker) (volume : Volume disk (e.cells :: chains) lost)
    (fits : e.record.size % clusterSize + d.length ≤ clusterSize) :
    dataBytes (disk.writeBytes (clusterAddr p + e.record.size % clusterSize) d) (front ++ [p]) =
      dataBytes disk front ++ ((clusterBytes disk p).take (e.record.size % clusterSize) ++ d ++
        (clusterBytes disk p).drop (e.record.size % clusterSize + d.length)) := by
  have member : p ∈ e.cells := by
    rw [chain.shape]
    simp
  have small := volume_count volume List.mem_cons_self member
  have single := ledger_head_nodup volume.ledger
  rw [chain.shape] at single
  have others : ∀ c ∈ front, clusterBytes (disk.writeBytes (clusterAddr p + e.record.size % clusterSize) d) c =
      clusterBytes disk c := fun c inside => by
    have cluster := volume_count volume List.mem_cons_self (show c ∈ e.cells by
      rw [chain.shape]
      simp [inside])
    refine clusterBytes_writeCluster_other small fits cluster ?_
    rintro rfl
    exact List.disjoint_of_nodup_append single.of_append_left inside List.mem_cons_self
  rw [dataBytes, List.flatMap_append, List.flatMap_singleton,
    clusterBytes_writeCluster_same small fits volume.mapped]
  exact congrArg (· ++ _) (dataBytes_congr others)

/-- The case in which the file gets new clusters. -/
theorem growFile_run {front : List Nat} {p marker bytes v : Nat} (small : i < es.length)
    (catalog : Catalog s.disk dir es lost) (chain : FileChain s.disk es[i] front p marker)
    (loaded : Loaded s others files ((es.map Entry.record).set i (es[i].record.setSize v)))
    (supplies : Supplies s.heap others data buffer) (inside : bytes ≤ data.length)
    (more : bytesInLast es[i].record.size bytes < bytes)
    (room : appendNeed es[i].record.size bytes ≤ lowFree s.disk) :
    Completes (do
      let eof ← fat p
      setFat eof freeCluster
      setFileSize (fileAt files i) ((es[i].record.size + bytes) % wordModulus)
      let (prevCluster, bytesStored) ←
        appendClustersLoop buffer (appendNeed es[i].record.size bytes - 1) p
          (bytesInLast es[i].record.size bytes)
      let currCluster ← getFreeCluster
      setFat prevCluster currCluster
      let data ← readBuffer buffer bytesStored (bytes - bytesStored)
      writeMemory (clusterAddr currCluster) data
      let eof ← getFreeCluster
      setFat currCluster eof
      setFat eof eofCluster
      storeRootFolder) s fun _ s' => ∃ dir' cells news, Parked s' others ∧
        Catalog s'.disk dir' (es.set i
          ⟨es[i].record.setSize ((es[i].record.size + bytes) % wordModulus), cells⟩) lost ∧
        Kept others s.heap s'.heap ∧
        SameOn ((es.eraseIdx i).map Entry.cells).flatten s.disk s'.disk ∧
        cells.dropLast = front ++ [p] ++ news ∧ news.length = appendNeed es[i].record.size bytes ∧
        cells.length = front.length + 2 + news.length ∧
        (∀ c ∈ front ++ [p], clusterBytes s'.disk c = clusterBytes s.disk c) ∧
        (dataBytes s'.disk news).take (bytes - bytesInLast es[i].record.size bytes) =
          (data.drop (bytesInLast es[i].record.size bytes)).take
            (bytes - bytesInLast es[i].record.size bytes) := by
  have fits := catalog.directory.fits
  have length := catalog.directory.length
  rw [List.length_map] at fits length
  obtain ⟨positive, _, before, after⟩ := appendNeed_pos more
  have placed := catalog.files _ (List.getElem_mem small)
  have volume := catalog_front catalog small
  rw [chain.shape] at volume
  obtain ⟨link, free, volume', same, sameBytes, count⟩ := freeMarker_run volume
  generalize setFatValue s.disk marker freeCluster = freed at *
  have inner : i < ((es.map Entry.record).set i (es[i].record.setSize v)).length := by
    rwa [List.length_set, List.length_map]
  obtain ⟨sized, setSize, loaded', kept⟩ := setFileSize_run (loaded.onDisk freed) inner
    ((es[i].record.size + bytes) % wordModulus)
  rw [List.getElem_set_self, List.set_set, Record.setSize_setSize] at loaded'
  have subset : others ⊆ (files, ((es.map Entry.record).set i (es[i].record.setSize
      ((es[i].record.size + bytes) % wordModulus))).length * fileRecordSize) ::
      (s.root, folderSize) :: others :=
    fun _ inside => List.mem_cons_of_mem _ (List.mem_cons_of_mem _ inside)
  unfold Completes
  rw [meets_next link, meets_next free, meets_next setSize]
  refine growChain_run (s := { s with heap := sized, disk := freed }) (supplies_kept supplies kept)
    loaded'.owned subset positive before after inside volume' (by simp only; omega) ?_
  intro news marker' disk newsLength volume'' ends content old same' count'
  have sameAll := sameOn_trans same same'
  rw [List.flatten_cons] at sameAll
  have sameFiles := sameOn_subset sameAll (List.subset_append_right (0 :: dir) _)
  have start : (es[i].record.setSize ((es[i].record.size + bytes) % wordModulus)).startCluster =
      es[i].record.startCluster := Record.startCluster_setSize _ _
  have placedOld : (Entry.mk es[i].record (front ++ [p] ++ [marker])).Placed s.disk := by
    rw [← chain.shape]
    exact placed
  have placed' : (Entry.mk (es[i].record.setSize ((es[i].record.size + bytes) % wordModulus))
      (front ++ [p] ++ (news ++ [marker']))).Placed disk :=
    placed_extend placedOld start (by rwa [← List.append_assoc])
  rw [← List.append_assoc] at placed'
  obtain ⟨heap, stored, dir', run, owned, keptStore, _, catalog', sameStore, sameCells, _⟩ :=
    storeChanged_run (s := { s with heap := sized, disk := disk }) _ small
      (Record.name_setSize _ _) (loaded'.onDisk disk)
      volume'' (ends_same catalog.directory.ends
        fun c member => sameAll.fat c (List.mem_append_left _ member)) placed'
      (fun e inside => placed_same (catalog.files e (List.mem_of_mem_eraseIdx inside))
        fun c member => sameFiles.fat c (cells_subset inside member)) catalog.names fits
      (by rw [length]; exact Nat.le_add_left _ _)
  refine meets_run run ⟨dir', _, news, .empty rfl owned, catalog', kept_trans kept keptStore,
    sameOn_trans sameFiles sameStore, ?_, newsLength, ?_, fun c member => ?_, ?_⟩
  · rw [List.dropLast_concat]
  · simp only [List.length_append, List.length_singleton]
    omega
  · have low := volume_count volume' List.mem_cons_self member
    have here := sameCells.bytes c (List.mem_append_left _ (List.mem_append_left _ member))
    exact here.trans ((old c member).trans (sameBytes c low))
  · have here : dataBytes stored news = dataBytes disk news := dataBytes_congr fun c member =>
      sameCells.bytes c (List.mem_append_left _ (List.mem_append_right _ member))
    rw [here]
    exact content

variable (data buffer) in
theorem appendData_run (parked : Parked s others) (catalog : Catalog s.disk dir es lost)
    (short : filename.bytes.length < fileNameLen) (found : position filename es = some i)
    (small : i < es.length) (bytes : Nat) (supplies : Supplies s.heap others data buffer)
    (first : bytesInLast es[i].record.size bytes ≤ data.length)
    (all : appendNeed es[i].record.size bytes ≤ lowFree s.disk → bytes ≤ data.length)
    (ready : appendNeed es[i].record.size bytes ≤ lowFree s.disk ∨
      lowFree s.disk + 2 < appendNeed es[i].record.size bytes) :
    Completes (appendData filename buffer bytes) s fun _ s' => ∃ dir' e', Parked s' others ∧
      Catalog s'.disk dir' (es.set i e') lost ∧ Kept others s.heap s'.heap ∧
      SameOn ((es.eraseIdx i).map Entry.cells).flatten s.disk s'.disk ∧
      Appended s.disk s'.disk es[i] data bytes e' := by
  have fits := catalog.directory.fits
  have length := catalog.directory.length
  rw [List.length_map] at fits length
  have placed := catalog.files _ (List.getElem_mem small)
  obtain ⟨front, p, marker, chain⟩ := placed_chain placed
  have volume := catalog_front catalog small
  unfold appendData
  rw [normalizeFilename_of_short short]
  refine meets_call (loadCatalog_run parked catalog) ?_
  rintro _ _ ⟨heap, root, files, rfl, loaded, kept⟩
  have nonzero := filePointer_nonzero loaded.records i
  have size := fileSize_run loaded.records (i := i) (by rwa [List.length_map])
  have start := fileStartClusterIndex_run loaded.records (i := i) (by rwa [List.length_map])
  rw [List.getElem_map] at size start
  have member : p ∈ es[i].cells := by
    rw [chain.shape]
    simp
  have pSmall := volume_count volume List.mem_cons_self member
  have last : lastClusterLoop walkBound es[i].record.startCluster { s with heap := heap, root := root } =
      .ok (p, { s with heap := heap, root := root }) := by
    have enough := lowFree_eq volume
    rw [chain.shape] at enough
    simp only [List.flatten_cons, List.length_append, List.length_singleton] at enough
    rw [chain.start]
    have links := volume
    rw [chain.shape, List.append_assoc] at links
    exact lastClusterLoop_run [] front p marker walkBound
      (by unfold takenCluster at enough; unfold walkBound; omega) links chain.eof
  have fitsLast : es[i].record.size % clusterSize + bytesInLast es[i].record.size bytes ≤ clusterSize := by
    unfold bytesInLast clusterSize
    omega
  have dataSize : (data.take (bytesInLast es[i].record.size bytes)).length =
      bytesInLast es[i].record.size bytes := by
    rw [List.length_take]
    omega
  have subset : others ⊆ (files, (es.map Entry.record).length * fileRecordSize) :: (root, folderSize) :: others :=
    fun _ inside => List.mem_cons_of_mem _ (List.mem_cons_of_mem _ inside)
  have read := readBuffer_run (s := { s with heap := heap, root := root }) (k := 0)
    (supplies_kept supplies kept) loaded.owned subset (n := bytesInLast es[i].record.size bytes) (by omega)
  rw [List.drop_zero] at read
  have write := writeCluster_run { s with heap := heap, root := root }
    (data.take (bytesInLast es[i].record.size bytes)) pSmall
    (k := es[i].record.size % clusterSize) (by rwa [dataSize])
  rw [meets_next (getFile_run loaded.folder short), findIdx_record, found, if_neg nonzero]
  rw [show filePointer files (some i) = fileAt files i from rfl, meets_next size]
  dsimp only
  rw [show min bytes (clusterSize - es[i].record.size % clusterSize) =
    bytesInLast es[i].record.size bytes from rfl]
  rw [meets_next start, meets_next last, meets_next read, meets_next write]
  have start' : appendStart es[i] = (dataBytes s.disk front).length + es[i].record.size % clusterSize := by
    rw [appendStart, chain.shape, length_dataBytes, List.length_append, List.length_append]
    rfl
  have whole : dataBytes s.disk (front ++ [p]) = dataBytes s.disk front ++ clusterBytes s.disk p := by
    rw [dataBytes, List.flatMap_append, List.flatMap_singleton]
    rfl
  generalize hd : data.take (bytesInLast es[i].record.size bytes) = d at *
  have fitsData : es[i].record.size % clusterSize + d.length ≤ clusterSize := by rwa [dataSize]
  have written := catalog_store catalog small member fitsData
  have content := dataBytes_written chain volume fitsData
  have sameWrite := sameOn_store volume member fitsData
  rw [List.flatten_cons] at sameWrite
  have roomWrite : lowFree (s.disk.writeBytes (clusterAddr p + es[i].record.size % clusterSize) d) =
      lowFree s.disk := by
    have before := lowFree_eq catalog.volume
    have after := lowFree_eq written.volume
    omega
  generalize s.disk.writeBytes (clusterAddr p + es[i].record.size % clusterSize) d = disk at *
  obtain ⟨sized, setSize, loaded', keptSize⟩ := setFileSize_run (loaded.onDisk disk)
    (i := i) (by rwa [List.length_map])
    ((es[i].record.size + bytesInLast es[i].record.size bytes) % wordModulus)
  rw [List.getElem_map] at loaded'
  rw [meets_next setSize]
  by_cases enough : bytes ≤ bytesInLast es[i].record.size bytes
  · obtain same : bytesInLast es[i].record.size bytes = bytes :=
      Nat.le_antisymm (Nat.min_le_left _ _) enough
    have none : appendNeed es[i].record.size bytes = 0 := by
      rw [appendNeed, same, Nat.sub_self]
      rfl
    rw [same] at loaded' dataSize hd
    obtain ⟨freed, stored, dir', run, owned, keptStore, _, catalog', sameStore, sameCells, _⟩ :=
      storeChanged_run ⟨es[i].record.setSize ((es[i].record.size + bytes) % wordModulus),
        es[i].cells⟩ small (Record.name_setSize _ _) loaded' (catalog_front written small)
        written.directory.ends
        (placed_setSize (written.files _ (List.getElem_mem small)))
        (fun e inside => written.files e (List.mem_of_mem_eraseIdx inside)) catalog.names fits
        (by rw [length]; exact Nat.le_add_left _ _)
    rw [if_pos enough]
    have clusters : dataBytes stored (front ++ [p]) = dataBytes disk (front ++ [p]) :=
      dataBytes_congr fun c inside => sameCells.bytes c (by
        show c ∈ es[i].cells
        rw [chain.shape]
        exact List.mem_append_left _ inside)
    have stored' : dataBytes stored es[i].data = dataBytes s.disk front ++
        ((clusterBytes s.disk p).take (es[i].record.size % clusterSize) ++ d ++
          (clusterBytes s.disk p).drop (es[i].record.size % clusterSize + d.length)) := by
      rw [Entry.data, chain.shape, List.dropLast_concat, clusters, content]
    refine meets_run run ⟨dir', _, .empty rfl owned, catalog',
      kept_trans kept (kept_trans keptSize keptStore),
      sameOn_trans (sameOn_subset sameWrite (List.subset_append_right _ _)) sameStore,
      .stored es[i].cells (by rw [none, Nat.add_zero]) (by rw [none]; exact Nat.zero_le _) ?_ ?_⟩
    · rw [start', show es[i].cells.dropLast = es[i].data from rfl,
        show dataBytes stored es[i].data = _ from stored', Entry.data, chain.shape,
        List.dropLast_concat, hd, whole, ← dataSize]
      exact take_stored _ _ _ _ (by rwa [length_clusterBytes])
    · intro empty
      rw [show es[i].cells.dropLast = es[i].data from rfl,
        show dataBytes stored es[i].data = _ from stored', Entry.data, chain.shape,
        List.dropLast_concat, whole, List.eq_nil_of_length_eq_zero (dataSize.trans empty),
        List.append_nil, List.length_nil, Nat.add_zero, List.take_append_drop]
  · rw [if_neg enough, show getClusterCountNeeded (bytes - bytesInLast es[i].record.size bytes) =
      appendNeed es[i].record.size bytes from rfl]
    have more : bytesInLast es[i].record.size bytes < bytes := Nat.lt_of_not_le enough
    have inLast := (appendNeed_pos more).2.1
    have asked : existsNFreeClusters (appendNeed es[i].record.size bytes)
        { s with heap := sized, disk := disk, root := root } =
        .ok (decide (appendNeed es[i].record.size bytes ≤ lowFree s.disk + 2), { s with heap := sized, disk := disk, root := root }) := by
      have iff := existsNFreeClusters_iff written.volume (appendNeed es[i].record.size bytes)
      rw [roomWrite] at iff
      show Except.ok (existsNFreeClustersLoop disk _ clusterCount 0 0, _) = _
      rw [Bool.eq_iff_iff.mpr (iff.trans decide_eq_true_iff.symm)]
    refine (meets_next asked).mpr ?_
    rcases ready with room | full
    · have offset : front.length + 2 = es[i].cells.length := by
        rw [chain.shape, List.length_append, List.length_append]
        rfl
      rw [if_neg (by rw [decide_eq_true (by omega)]; decide)]
      have chain' : FileChain disk es[i] front p marker := by
        refine ⟨chain.shape, ?_, chain.start⟩
        obtain ⟨front', marker', shape, _, eof⟩ := (written.files _ (List.getElem_mem small)).ends
        rw [chain.shape] at shape
        rw [(List.append_inj' shape rfl).2 |> List.cons.inj |>.1]
        exact eof
      refine meets_mono (growFile_run (s := { s with heap := sized, disk := disk, root := root }) small
        written chain' loaded' (supplies_kept (supplies_kept supplies kept) keptSize) (all room) more
        (by rwa [roomWrite])) ?_
      rintro _ s' ⟨dir', cells, news, after, catalog', keptGrow, same, shape, count, size', old, new⟩
      refine ⟨dir', _, after, catalog', kept_trans kept (kept_trans keptSize keptGrow),
        sameOn_trans (sameOn_subset sameWrite (List.subset_append_right _ _)) same,
        .stored cells (by omega) room ?_ fun none => absurd none (by omega)⟩
      have clusters : dataBytes s'.disk (front ++ [p]) = dataBytes disk (front ++ [p]) :=
        dataBytes_congr old
      have total : bytes = d.length + (bytes - bytesInLast es[i].record.size bytes) := by omega
      have split : data.take bytes = d ++ (dataBytes s'.disk news).take
          (bytes - bytesInLast es[i].record.size bytes) := by
        rw [new, ← hd]
        conv_lhs => rw [show bytes = bytesInLast es[i].record.size bytes +
          (bytes - bytesInLast es[i].record.size bytes) by omega]
        exact List.take_add
      rw [split, shape, start', Entry.data, chain.shape, List.dropLast_concat, whole]
      rw [show dataBytes s'.disk (front ++ [p] ++ news) =
        dataBytes s'.disk (front ++ [p]) ++ dataBytes s'.disk news from List.flatMap_append,
        clusters, content]
      conv_lhs => rw [total]
      exact take_grown _ _ _ _ _ _ (by rw [length_clusterBytes, dataSize, inLast]; omega)
    · rw [if_pos (by rw [decide_eq_false (by omega)])]
      refine meets_run rfl ⟨dir, es[i], loaded'.parked.onScreen _, ?_, kept_trans kept keptSize,
        sameOn_subset sameWrite (List.subset_append_right _ _), .refused full ?_⟩
      · rw [List.set_getElem_self]
        exact written
      · rw [start', Entry.data, chain.shape, List.dropLast_concat, whole, content, List.append_assoc]
        exact take_kept _ _ _ _ (by rw [length_clusterBytes]; omega)

end

end Delos.Invariants
