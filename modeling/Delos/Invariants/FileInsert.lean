import Delos.Invariants.FileAppend

/-!
# Writing inside a file

`write` cuts the chain behind the cluster of the offset, keeps the tail in a
heap buffer and appends the new bytes and the tail. The first cluster behind the
cut becomes the EOF cluster; the old EOF cluster is neither linked nor free.
-/
namespace Delos.Invariants
open Lib Source

/-- The test of `append_data` accepts the bytes and they fit, or it refuses them. -/
def AppendReady (free size bytes : Nat) : Prop :=
  appendNeed size bytes ≤ free ∨ free + 2 < appendNeed size bytes

def appendedFree (free size bytes : Nat) : Nat :=
  if appendNeed size bytes ≤ free then free - appendNeed size bytes else free

def appendedSize (free size bytes : Nat) : Nat :=
  if appendNeed size bytes ≤ free then (size + bytes) % wordModulus else size

/-- The length of the tail as `write` computes it; `count` clusters hold data. -/
def tailLength (size offset count : Nat) : Nat :=
  (clusterSize * count - offset + wordModulus - (clusterSize - size % clusterSize)) % wordModulus

/-- The free clusters behind the cut. -/
def cutFree (free offset count : Nat) : Nat := free + (count - offset / clusterSize - 2)

/-- The bytes of the heap buffer, before the computation in 32 bits. -/
def tailBuffer (size offset : Nat) : Nat :=
  (getClusterCountNeeded size - offset / clusterSize) * clusterSize

structure InsertReady (free size offset len count : Nat) : Prop where
  inside : offset / clusterSize < count
  buffer : count ≤ getClusterCountNeeded size
  request : tailBuffer size offset + blockHeaderSize < wordModulus
  first : AppendReady (cutFree free offset count) offset len
  second : AppendReady (appendedFree (cutFree free offset count) offset len)
    (appendedSize (cutFree free offset count) offset len) (tailLength size offset count)

section
variable {s : Fs} {disk disk' : ByteMemory} {others live : List (Nat × Nat)} {files tmp size o : Nat}
  {dir lost lost' cells : List Nat} {chains : List (List Nat)} {es : List Entry}
  {filename : CString} {i c k n : Nat} {e : Entry}

/-! ## The catalog behind a change of one chain -/

theorem catalog_rechain (catalog : Catalog disk dir es lost) (small : i < es.length)
    (volume : Volume disk' (cells :: (0 :: dir) :: (es.eraseIdx i).map Entry.cells) lost')
    (same : SameOn ((0 :: dir) :: (es.eraseIdx i).map Entry.cells).flatten disk disk')
    (placed : (Entry.mk es[i].record cells).Placed disk') :
    Catalog disk' dir (es.set i ⟨es[i].record, cells⟩) lost' := by
  rw [List.flatten_cons] at same
  have sameFiles := sameOn_subset same (List.subset_append_right (0 :: dir) _)
  refine ⟨?_, ?_, fun e inside => ?_, ?_⟩
  · exact volume_perm volume ((List.Perm.swap _ _ _).trans
      ((entries_set_perm small ⟨es[i].record, cells⟩).symm.cons _))
  · rw [List.map_set]
    have whole := List.set_getElem_self (show i < (es.map Entry.record).length by rwa [List.length_map])
    rw [List.getElem_map] at whole
    rw [whole]
    exact directory_congr catalog.directory (sameOn_subset same (List.subset_append_left _ _))
  · rcases (mem_set_entries small _).mp inside with rfl | rest
    · exact placed
    · exact placed_same (catalog.files e (List.mem_of_mem_eraseIdx rest)) fun d member =>
        sameFiles.fat d (cells_subset rest member)
  · have names := names_set (e := ⟨es[i].record, cells⟩) small rfl
    rw [names]
    exact catalog.names

/-- What one entry gains the free clusters lose. -/
theorem lowFree_set {dir' : List Nat} {e' : Entry} (catalog : Catalog disk dir es lost)
    (catalog' : Catalog disk' dir' (es.set i e') lost') (small : i < es.length) :
    lowFree disk' + e'.cells.length + lost'.length =
      lowFree disk + es[i].cells.length + lost.length := by
  have small' : i < (es.set i e').length := by rwa [List.length_set]
  have before := lowFree_eq (catalog_front catalog small)
  have after := lowFree_eq (catalog_front catalog' small')
  have dirs := catalog.directory.length
  have dirs' := catalog'.directory.length
  rw [List.length_map] at dirs dirs'
  rw [List.length_set] at dirs'
  rw [List.getElem_set_self, List.eraseIdx_set_eq] at after
  simp only [List.flatten_cons, List.length_append, List.length_cons] at before after
  omega

theorem position_congr {es' : List Entry} (filename : CString)
    (same : (es'.map fun e => e.record.name) = es.map fun e => e.record.name) :
    position filename es' = position filename es := by
  have names : ∀ es : List Entry, position filename es =
      (es.map fun e => e.record.name).findIdx? fun name => decide (name = filename.bytes) := fun es => by
    rw [List.findIdx?_map]
    rfl
  rw [names, names, same]

/-! ## Keeping the tail -/

/-- A part of a cluster goes to the end of what the buffer holds. -/
theorem keepCluster_run (owned : Owned s.heap ((tmp, size) :: others)) (small : c < clusterCount)
    (fits : k + n ≤ clusterSize) (room : o + n ≤ size) :
    ∃ heap, memcpy (tmp + o) (clusterAddr c + k) n s = .ok ((), { s with heap := heap }) ∧
      Owned heap ((tmp, size) :: others) ∧ Kept others s.heap heap ∧
      heap.readBytes tmp (o + n) =
        s.heap.readBytes tmp o ++ ((clusterBytes s.disk c).drop k).take n := by
  have length := ByteMemory.length_readBytes n s.disk (clusterAddr c + k)
  have inside : o + (s.disk.readBytes (clusterAddr c + k) n).length ≤ size := by rwa [length]
  have nonzero := owned_nonzero owned List.mem_cons_self
  have addr := cluster_inside small fits
  have positive : 0 < fsStartAddr := by decide
  have mapped := owned_mapped owned List.mem_cons_self
  refine ⟨s.heap.writeBytes (tmp + o) (s.disk.readBytes (clusterAddr c + k) n), ?_,
    owned_writeBytes owned List.mem_cons_self inside, kept_writeBytes owned inside, ?_⟩
  · unfold memcpy
    rw [if_neg (by omega), run_bind (readCluster_run s small fits)]
    exact writeRegion_run owned List.mem_cons_self inside
  · have front := ByteMemory.readBytes_writeBytes_outside (s.disk.readBytes (clusterAddr c + k) n) s.heap
      (tmp + o) tmp o (Or.inl (Nat.le_refl _))
    have back := ByteMemory.readBytes_writeBytes_same (s.disk.readBytes (clusterAddr c + k) n) s.heap
      (tmp + o) (by omega)
    rw [length] at back
    rw [ByteMemory.readBytes_add, front, back, readCluster_part _ _ fits]

/-- The walk behind the new EOF cluster frees every cluster up to the old one. -/
theorem cutTailLoop_run (bound : Nat) (front : List Nat) (marker : Nat) (enough : front.length < bound)
    (owned : Owned s.heap ((tmp, size) :: others)) (room : o + clusterSize * front.length ≤ size)
    (volume : Volume s.disk ((front ++ [marker]) :: chains) lost)
    (eof : fatValue s.disk marker = eofCluster) :
    ∃ heap disk, cutTailLoop tmp bound false ((front ++ [marker]).headD 0) o s =
        .ok (o + clusterSize * front.length, { s with heap := heap, disk := disk }) ∧
      Owned heap ((tmp, size) :: others) ∧ Kept others s.heap heap ∧
      heap.readBytes tmp (o + clusterSize * front.length) =
        s.heap.readBytes tmp o ++ dataBytes s.disk front ∧
      Volume disk ([marker] :: chains) lost ∧ SameOn chains.flatten s.disk disk ∧
      SameBytes s.disk disk := by
  obtain ⟨bound, rfl⟩ : ∃ b, bound = b + 1 := ⟨bound - 1, by omega⟩
  induction front generalizing s o bound with
  | nil =>
    have small := volume_count volume List.mem_cons_self List.mem_cons_self
    refine ⟨s.heap, s.disk, ?_, owned, kept_refl, (List.append_nil _).symm, volume, sameOn_refl,
      fun _ _ => rfl⟩
    unfold cutTailLoop
    rw [List.nil_append, List.headD_cons, run_bind (fat_run s small), eof, if_neg (by decide)]
    rfl
  | cons c rest ih =>
    have small := volume_count volume List.mem_cons_self List.mem_cons_self
    obtain ⟨next, tail, shape⟩ : ∃ next tail, rest ++ [marker] = next :: tail :=
      List.exists_cons_of_ne_nil (by simp)
    have link : fatValue s.disk c = next ∧ next ≠ eofCluster ∧ next ≠ freeCluster :=
      volume_link (by rw [List.cons_append, shape] at volume; exact volume)
    have freed := volume_free_head volume
    have notMarker : marker ≠ c := by
      have single := List.nodup_cons.mp (ledger_head_nodup volume.ledger)
      rintro rfl
      exact single.1 (List.mem_append_right _ List.mem_cons_self)
    have still : fatValue (setFatValue s.disk c freeCluster) marker = eofCluster := by
      rw [fatValue_setFatValue_other notMarker, eof]
    rw [List.length_cons] at enough room
    rw [Nat.mul_succ] at room
    obtain ⟨bound, rfl⟩ : ∃ b, bound = b + 1 := ⟨bound - 1, by omega⟩
    obtain ⟨heap, copy, owned', kept, content⟩ := keepCluster_run (k := 0) (n := clusterSize) owned small
      (Nat.le_of_eq (Nat.zero_add _)) (show o + clusterSize ≤ size by omega)
    rw [List.drop_zero, List.take_of_length_le (Nat.le_of_eq (length_clusterBytes _ _))] at content
    obtain ⟨heap', disk, run, owned'', kept', content', after, same, bytes⟩ :=
      ih (s := { s with heap := heap, disk := setFatValue s.disk c freeCluster }) (o := o + clusterSize)
        owned' (by omega) freed still bound (by omega)
    rw [shape, List.headD_cons] at run
    have step : o + clusterSize * (rest.length + 1) = o + clusterSize + clusterSize * rest.length := by
      rw [Nat.mul_succ]
      omega
    have restBytes : dataBytes (setFatValue s.disk c freeCluster) rest = dataBytes s.disk rest :=
      dataBytes_congr fun d member => sameBytes_setFatValue small d
        (volume_count freed List.mem_cons_self (List.mem_append_left _ member))
    rw [List.length_cons, step]
    refine ⟨heap', disk, ?_, owned'', kept_trans kept kept', ?_, after,
      sameOn_trans (sameOn_assign volume List.mem_cons_self) same, ?_⟩
    · rw [List.cons_append, List.headD_cons]
      rw [Nat.add_zero] at copy
      unfold cutTailLoop
      rw [run_bind (fat_run s small), link.1, if_pos link.2.1, run_bind copy,
        run_bind (setFat_run _ small _)]
      exact run
    · rw [content']
      simp only
      rw [content, restBytes, List.append_assoc]
      rfl
    · exact fun d cluster => (bytes d cluster).trans (sameBytes_setFatValue small d cluster)

/-- Following the links from the first cluster. -/
theorem followClusters_run (front : List Nat) (c : Nat) (back lead : List Nat)
    (volume : Volume s.disk ((lead ++ (front ++ c :: back)) :: chains) lost) :
    followClusters front.length ((front ++ [c]).headD 0) s = .ok (c, s) := by
  induction front generalizing lead with
  | nil => rfl
  | cons d rest ih =>
    obtain ⟨next, tail, shape⟩ : ∃ next tail, rest ++ c :: back = next :: tail :=
      List.exists_cons_of_ne_nil (by simp)
    have head : (rest ++ [c]).headD 0 = next := by
      cases rest with
      | nil => exact (List.cons.inj shape).1
      | cons e rest => exact (List.cons.inj shape).1
    have links := volume
    rw [List.cons_append, shape] at links
    obtain ⟨small, _, link, _⟩ := volume_link_at lead d next tail links
    have later := ih (lead ++ [d]) (by rw [List.append_assoc]; exact volume)
    rw [List.length_cons, List.cons_append, List.headD_cons]
    unfold followClusters
    rw [run_bind (fat_run s small), link, ← head]
    exact later

/-! ## The cut -/

/-- What `write` finds when it starts to cut: the chain in four parts and the buffer. -/
structure CutPlace (disk heap : ByteMemory) (others : List (Nat × Nat)) (e : Entry) (tmp size : Nat)
    (front : List Nat) (curr : Nat) (post : List Nat) (marker : Nat) : Prop where
  shape : e.cells = front ++ [curr] ++ post ++ [marker]
  eof : fatValue disk marker = eofCluster
  owned : Owned heap ((tmp, size) :: others)

theorem cutChain_run {front post : List Nat} {curr marker : Nat} (small : i < es.length)
    (catalog : Catalog s.disk dir es lost)
    (place : CutPlace s.disk s.heap others es[i] tmp size front curr post marker)
    (room : o + clusterSize * post.length ≤ size) :
    ∃ next heap disk cut lost', fat curr s = .ok (next, s) ∧
      cutTailLoop tmp walkBound true next o s =
        .ok (o + clusterSize * post.length, { s with heap := heap, disk := disk }) ∧
      Owned heap ((tmp, size) :: others) ∧ Kept others s.heap heap ∧
      heap.readBytes tmp (o + clusterSize * post.length) =
        s.heap.readBytes tmp o ++ dataBytes s.disk post ∧
      Catalog disk dir (es.set i ⟨es[i].record, front ++ [curr] ++ [cut]⟩) lost' ∧
      (post = [] ∧ lost' = lost ∨ post ≠ [] ∧ lost' = marker :: lost) ∧
      SameOn ((es.eraseIdx i).map Entry.cells).flatten s.disk disk ∧ SameBytes s.disk disk := by
  have placed := catalog.files _ (List.getElem_mem small)
  have volume := catalog_front catalog small
  rw [place.shape] at volume
  cases post with
  | nil =>
    have links := volume
    rw [List.append_nil, List.append_assoc] at links
    obtain ⟨currSmall, markerSmall, link, _⟩ := volume_link_at front curr marker [] links
    refine ⟨marker, s.heap, s.disk, marker, lost, ?_, ?_, place.owned, kept_refl,
      (List.append_nil _).symm, ?_, Or.inl ⟨rfl, rfl⟩, sameOn_refl, fun _ _ => rfl⟩
    · rw [fat_run s currSmall, link]
    · rw [show walkBound = 0x1000 + 1 from rfl, cutTailLoop, run_bind (fat_run s markerSmall), place.eof,
        if_neg (by decide)]
      rfl
    · have same := place.shape
      rw [List.append_nil] at same
      rw [← same, List.set_getElem_self]
      exact catalog
  | cons d rest =>
    have shape : front ++ [curr] ++ d :: rest ++ [marker] =
        (front ++ [curr] ++ [d]) ++ (rest ++ [marker]) := by simp
    obtain ⟨second, tail, more⟩ : ∃ second tail, rest ++ [marker] = second :: tail :=
      List.exists_cons_of_ne_nil (by simp)
    rw [shape] at volume
    have links := volume
    rw [List.append_assoc (front ++ [curr]), List.append_assoc front, more] at links
    obtain ⟨currSmall, dSmall, link, _⟩ := volume_link_at front curr d _ links
    obtain ⟨_, _, link', notEof⟩ := volume_link_at (front ++ [curr]) d second tail
      (by rw [List.append_assoc]; exact links)
    -- the chain is cut behind `d`, which becomes the EOF cluster
    have split := volume_split (front ++ [curr] ++ [d]) (rest ++ [marker]) volume
    have marked := volume_mark split
    have sameMark := sameOn_assign (v := eofCluster) split
      (List.mem_append_right (front ++ [curr]) List.mem_cons_self)
    have eof : fatValue (setFatValue s.disk d eofCluster) marker = eofCluster := by
      rw [sameMark.fat marker (by simp), place.eof]
    have count := lowFree_eq volume
    simp only [List.flatten_cons, List.length_append, List.length_cons] at count
    rw [List.length_cons, Nat.mul_succ] at room
    obtain ⟨heap, copy, owned, kept, content⟩ := keepCluster_run (k := 0) (n := clusterSize) place.owned
      dSmall (Nat.le_of_eq (Nat.zero_add _)) (show o + clusterSize ≤ size by omega)
    rw [List.drop_zero, List.take_of_length_le (Nat.le_of_eq (length_clusterBytes _ _))] at content
    obtain ⟨heap', disk, run, owned', kept', content', after, same, bytes⟩ :=
      cutTailLoop_run (s := { s with heap := heap, disk := setFatValue s.disk d eofCluster })
        (o := o + clusterSize) 0x1000 rest marker (by unfold takenCluster at count; omega) owned (by omega)
        (volume_perm marked (List.Perm.swap _ _ _)) eof
    rw [more, List.headD_cons] at run
    have restBytes : dataBytes (setFatValue s.disk d eofCluster) rest = dataBytes s.disk rest :=
      dataBytes_congr fun e member => sameBytes_setFatValue dSmall e
        (volume_count split (List.mem_cons_of_mem _ List.mem_cons_self) (List.mem_append_left _ member))
    have leaked := volume_leak after
    rw [List.flatten_cons] at sameMark same
    have sameAll := sameOn_trans (sameOn_subset sameMark (List.subset_append_right _ _))
      (sameOn_subset same (List.subset_append_right _ _))
    have ends : Ends disk (front ++ [curr] ++ [d]) := by
      refine ⟨front ++ [curr], d, rfl, by simp, ?_⟩
      rw [same.fat d (List.mem_append_left _ (by simp))]
      exact fatValue_setFatValue_same catalog.volume.mapped (by decide)
    have step : o + clusterSize * (rest.length + 1) = o + clusterSize + clusterSize * rest.length := by
      rw [Nat.mul_succ]
      omega
    rw [List.length_cons, step]
    have placedOld : (Entry.mk es[i].record (front ++ [curr] ++ (d :: rest ++ [marker]))).Placed s.disk := by
      rw [← List.append_assoc, ← place.shape]
      exact placed
    refine ⟨d, heap', disk, d, marker :: lost, ?_, ?_, owned', kept_trans kept kept', ?_,
      catalog_rechain catalog small leaked sameAll (placed_extend placedOld rfl ends),
      Or.inr ⟨by simp, rfl⟩, ?_, fun e cluster =>
        (bytes e cluster).trans (sameBytes_setFatValue dSmall e cluster)⟩
    · rw [fat_run s currSmall, link]
    · rw [Nat.add_zero] at copy
      rw [show walkBound = 0x1000 + 1 from rfl, cutTailLoop, run_bind (fat_run s dSmall), link',
        if_pos notEof, run_bind copy, if_pos rfl, run_bind (setFat_run _ dSmall _)]
      exact run
    · rw [content']
      simp only
      rw [content, restBytes, List.append_assoc]
      rfl
    · rw [List.flatten_cons] at sameAll
      exact sameOn_subset sameAll (List.subset_append_right _ _)

/-! ## Both appends -/

/-- The file between the steps of `write`: cut off, with the new bytes, with its tail. -/
structure Inserted (disk disk' : ByteMemory) (e : Entry) (buffer : List UInt8) (offset : Nat)
    (e' : Entry) : Prop where
  steps : ∃ cut e1 cutDisk midDisk kept,
    cut.record = e.record.setSize offset ∧ cut.cells.length = offset / clusterSize + 2 ∧
    lowFree cutDisk = cutFree (lowFree disk) offset e.data.length ∧
    lowFree midDisk = appendedFree (lowFree cutDisk) offset buffer.length ∧
    dataBytes cutDisk cut.data =
      (dataBytes disk e.data).take (clusterSize * (offset / clusterSize + 1)) ∧
    kept.take (clusterSize * e.data.length - offset) = (dataBytes disk e.data).drop offset ∧
    Appended cutDisk midDisk cut buffer buffer.length e1 ∧
    Appended midDisk disk' e1 kept (tailLength e.record.size offset e.data.length) e'

theorem appended_name {data : List UInt8} {bytes : Nat} {e' : Entry}
    (appended : Appended disk disk' e data bytes e') : e'.record.name = e.record.name := by
  cases appended with
  | stored cells length room content idle => exact Record.name_setSize _ _
  | refused full content => rfl

/-- The size and the number of clusters behind an append. -/
theorem appended_size {data : List UInt8} {bytes : Nat} {e' : Entry}
    (appended : Appended disk disk' e data bytes e') :
    e'.record.size = appendedSize (lowFree disk) e.record.size bytes ∧
      lowFree disk + e.cells.length - e'.cells.length =
        appendedFree (lowFree disk) e.record.size bytes := by
  unfold appendedSize appendedFree
  cases appended with
  | stored cells length room content idle =>
    rw [if_pos room, if_pos room]
    refine ⟨Record.size_setSize _ _ (Nat.mod_lt _ (by decide)), ?_⟩
    simp only
    omega
  | refused full content =>
    rw [if_neg (by omega), if_neg (by omega)]
    exact ⟨rfl, by omega⟩

/-- The chain at the cluster of the offset. -/
theorem cells_at {cells : List Nat} {marker : Nat} {data : List Nat} (shape : cells = data ++ [marker])
    (inside : k < data.length) :
    ∃ front curr post, cells = front ++ [curr] ++ post ++ [marker] ∧ front.length = k ∧
      data = front ++ [curr] ++ post := by
  refine ⟨data.take k, data[k], data.drop (k + 1), ?_, by rw [List.length_take]; omega, ?_⟩
  · rw [shape]
    simp
  · simp

theorem readBytes_take {heap : ByteMemory} (a : Nat) (m : Nat) (less : n ≤ m) :
    (heap.readBytes a m).take n = heap.readBytes a n := by
  obtain ⟨rest, rfl⟩ : ∃ rest, m = n + rest := ⟨m - n, by omega⟩
  rw [ByteMemory.readBytes_add, List.take_left' (ByteMemory.length_readBytes _ _ _)]

/-- The data from the middle of a cluster on. -/
theorem drop_dataBytes (disk : ByteMemory) (front : List Nat) (curr : Nat) (post : List Nat)
    (less : k ≤ clusterSize) : (dataBytes disk (front ++ [curr] ++ post)).drop
      (clusterSize * front.length + k) = (clusterBytes disk curr).drop k ++ dataBytes disk post := by
  have split : dataBytes disk (front ++ [curr] ++ post) =
      dataBytes disk front ++ (clusterBytes disk curr ++ dataBytes disk post) := by
    simp [dataBytes]
  rw [split, ← List.drop_drop, List.drop_left' (length_dataBytes _ _), List.drop_append_of_le_length (by
    rwa [length_clusterBytes])]

/-- From the allocation of the buffer to the end of the cut. -/
theorem keepTail_run {front post : List Nat} {first curr marker : Nat} {res : Nat → Fs → Prop}
    {f : Nat → Nat → Kernel Nat} (owned : Owned s.heap others) (small : i < es.length)
    (catalog : Catalog s.disk dir es lost) (shape : es[i].cells = front ++ [curr] ++ post ++ [marker])
    (eof : fatValue s.disk marker = eofCluster)
    (start : first = (front ++ [curr]).headD 0) (less : k < clusterSize)
    (request : size + blockHeaderSize < wordModulus)
    (room : clusterSize - k + clusterSize * post.length ≤ size)
    (rest : ∀ tmp heap disk cut lost', Owned heap ((tmp, size) :: others) → Kept others s.heap heap →
      heap.readBytes tmp (clusterSize - k + clusterSize * post.length) =
        (clusterBytes s.disk curr).drop k ++ dataBytes s.disk post →
      Catalog disk dir (es.set i ⟨es[i].record, front ++ [curr] ++ [cut]⟩) lost' →
      (post = [] ∧ lost' = lost ∨ post ≠ [] ∧ lost' = marker :: lost) →
      SameOn ((es.eraseIdx i).map Entry.cells).flatten s.disk disk → SameBytes s.disk disk →
      Completes (f tmp (clusterSize - k + clusterSize * post.length))
        { s with heap := heap, disk := disk } res) :
    Completes (do
      let tmpBuff ← kmalloc size
      writeMemory tmpBuff (List.replicate size 0)
      let currCluster ← followClusters front.length first
      memcpy tmpBuff (clusterAddr currCluster + k) (clusterSize - k)
      let currCluster ← fat currCluster
      let tmpBuffOffset ← cutTailLoop tmpBuff walkBound true currCluster (clusterSize - k)
      f tmpBuff tmpBuffOffset) s res := by
  have volume := catalog_front catalog small
  have member : curr ∈ es[i].cells := by
    rw [shape]
    simp
  have currSmall := volume_count volume List.mem_cons_self member
  have follow : ∀ heap, followClusters front.length first { s with heap := heap } =
      .ok (curr, { s with heap := heap }) := fun heap => by
    have links := volume
    rw [shape, List.append_assoc, List.append_assoc] at links
    rw [start]
    exact followClusters_run (s := { s with heap := heap }) front curr (post ++ [marker]) [] links
  refine meets_call (completes_kmalloc owned request) ?_
  rintro tmp _ ⟨heap, rfl, ownedTmp, keptTmp⟩
  have zeros : 0 + (List.replicate size (0 : UInt8)).length ≤ size := by
    rw [List.length_replicate, Nat.zero_add]
  have clear := writeRegion_run (s := { s with heap := heap }) ownedTmp List.mem_cons_self zeros
  have ownedClear := owned_writeBytes ownedTmp List.mem_cons_self zeros
  have keptClear := kept_writeBytes ownedTmp zeros
  generalize heap.writeBytes (tmp + 0) (List.replicate size 0) = cleared at *
  obtain ⟨head, copy, ownedHead, keptHead, content⟩ := keepCluster_run (o := 0)
    (s := { s with heap := cleared }) ownedClear currSmall (k := k) (n := clusterSize - k) (by omega)
    (by omega)
  obtain ⟨next, heap', disk, cut, lost', link, loop, owned', kept', content', catalog', leak, same, bytes⟩ :=
    cutChain_run (s := { s with heap := head }) (o := clusterSize - k) small catalog
      ⟨shape, eof, ownedHead⟩ room
  refine (meets_next clear).mpr ?_
  rw [meets_next (follow cleared)]
  rw [Nat.add_zero] at copy
  rw [meets_next copy, meets_next link, meets_next loop]
  refine rest tmp heap' disk cut lost' owned'
    (kept_trans keptTmp (kept_trans keptClear (kept_trans keptHead kept'))) ?_ catalog' leak same bytes
  rw [Nat.zero_add] at content
  rw [content']
  simp only
  rw [content, List.take_of_length_le (by rw [List.length_drop, length_clusterBytes])]
  rfl

/-- The new bytes and the tail go behind the cut, and the buffer is given back. -/
theorem appendBoth_run {cut : Entry} {bytes : Nat} (kept : List UInt8) (buffer : List UInt8)
    (parked : Parked s ((tmp, size) :: others)) (catalog : Catalog s.disk dir (es.set i cut) lost)
    (short : filename.bytes.length < fileNameLen) (found : position filename (es.set i cut) = some i)
    (small : i < es.length) (held : s.heap.readBytes tmp size = kept)
    (first : AppendReady (lowFree s.disk) cut.record.size buffer.length)
    (second : AppendReady (appendedFree (lowFree s.disk) cut.record.size buffer.length)
      (appendedSize (lowFree s.disk) cut.record.size buffer.length) bytes)
    (enough : clusterSize ≤ size) (wrapped : bytes ≤ size ∨ 2 ^ 31 < bytes) :
    Completes (do
      appendData filename (.user buffer) buffer.length
      appendData filename (.kernel tmp) bytes
      kfree tmp
      pure 0) s fun res s' => ∃ dir' e1 e' midDisk, Parked s' others ∧
        Catalog s'.disk dir' (es.set i e') lost ∧ Kept others s.heap s'.heap ∧
        SameOn ((es.eraseIdx i).map Entry.cells).flatten s.disk s'.disk ∧ res = 0 ∧
        lowFree midDisk = appendedFree (lowFree s.disk) cut.record.size buffer.length ∧
        Appended s.disk midDisk cut buffer buffer.length e1 ∧
        Appended midDisk s'.disk e1 kept bytes e' := by
  have length : kept.length = size := by rw [← held, ByteMemory.length_readBytes]
  have inner : i < (es.set i cut).length := by rwa [List.length_set]
  have supplies : Supplies s.heap ((tmp, size) :: others) kept (.kernel tmp) :=
    ⟨size, List.mem_cons_self, Nat.le_of_eq length, by rw [length]; exact held⟩
  refine meets_call (appendData_run buffer (.user buffer) parked catalog short found
    inner buffer.length rfl (Nat.min_le_left _ _) (fun _ => Nat.le_refl _)
    (by rw [List.getElem_set_self]; exact first)) ?_
  rintro _ s1 ⟨dir1, e1, parked1, catalog1, kept1, same1, appended1⟩
  rw [List.getElem_set_self] at appended1
  rw [List.set_set] at catalog1
  rw [List.eraseIdx_set_eq] at same1
  have name1 := appended_name appended1
  obtain ⟨size1, free1⟩ := appended_size appended1
  have inner1 : i < (es.set i e1).length := by rwa [List.length_set]
  have found1 : position filename (es.set i e1) = some i := by
    rw [← found]
    refine position_congr filename ?_
    have renamed : e1.record.name = (es.set i cut)[i].record.name := by
      rw [List.getElem_set_self]
      exact name1
    have same := names_set inner renamed
    rwa [List.set_set] at same
  have twice : Catalog s1.disk dir1 ((es.set i cut).set i e1) lost := by rwa [List.set_set]
  have room := lowFree_set catalog twice inner
  rw [List.getElem_set_self] at room
  have low : lowFree s1.disk = appendedFree (lowFree s.disk) cut.record.size buffer.length := by
    rw [← free1]
    omega
  rw [← low, ← size1] at second
  have most := lowFree_eq catalog1.volume
  refine meets_call (appendData_run kept (.kernel tmp) parked1 catalog1 short found1
    inner1 bytes (supplies_kept supplies kept1) ?_ ?_ (by rw [List.getElem_set_self]; exact second)) ?_
  · rw [length]
    unfold bytesInLast
    omega
  · rw [length, List.getElem_set_self]
    intro fits
    unfold appendNeed getClusterCountNeeded bytesInLast at fits
    unfold clusterSize at *
    unfold takenCluster at most
    split at fits <;> omega
  · rintro _ s2 ⟨dir2, e2, parked2, catalog2, kept2, same2, appended2⟩
    rw [List.getElem_set_self] at appended2
    rw [List.set_set] at catalog2
    rw [List.eraseIdx_set_eq] at same2
    obtain ⟨heap, free, parked3, kept3⟩ := kfree_parked parked2
    rw [meets_next free]
    exact meets_pure.mpr ⟨dir2, e1, e2, s1.disk, parked3, catalog2,
      kept_trans (kept_tail (kept_trans kept1 kept2)) kept3, sameOn_trans same1 same2, rfl, low,
      appended1, appended2⟩

theorem insertData_run (loaded : Loaded s others files (es.map Entry.record))
    (catalog : Catalog s.disk dir es lost) (short : filename.bytes.length < fileNameLen)
    (found : position filename es = some i) (small : i < es.length) (buffer : List UInt8)
    (offset : Nat) (before : offset < es[i].record.size)
    (ready : InsertReady (lowFree s.disk) es[i].record.size offset buffer.length es[i].data.length) :
    Completes (insertData filename (fileAt files i) buffer offset) s fun res s' => ∃ dir' e' lost',
      Parked s' others ∧ Catalog s'.disk dir' (es.set i e') lost' ∧ Kept others s.heap s'.heap ∧
      SameOn ((es.eraseIdx i).map Entry.cells).flatten s.disk s'.disk ∧ res = 0 ∧
      e'.record.name = es[i].record.name ∧
      (es[i].data.length = offset / clusterSize + 1 → lost' = lost) ∧
      Inserted s.disk s'.disk es[i] buffer offset e' := by
  obtain ⟨inside, enough, request, first, second⟩ := ready
  have fits := catalog.directory.fits
  have length := catalog.directory.length
  rw [List.length_map] at fits length
  have placed := catalog.files _ (List.getElem_mem small)
  have word := Record.size_lt (r := es[i].record)
  obtain ⟨front0, p0, marker, chain⟩ := placed_chain placed
  have dataShape : es[i].data = front0 ++ [p0] := by
    rw [Entry.data, chain.shape, List.dropLast_concat]
  obtain ⟨front, curr, post, shape, frontLength, parts⟩ := cells_at chain.shape (by rwa [← dataShape])
  have count : es[i].data.length = offset / clusterSize + 1 + post.length := by
    rw [dataShape, parts]
    simp only [List.length_append, List.length_singleton, frontLength]
  -- the directory is stored with the size cut off
  have size := fileSize_run loaded.records (i := i) (by rwa [List.length_map])
  rw [List.getElem_map] at size
  obtain ⟨sized, setSize, loaded', keptSize⟩ := setFileSize_run loaded (i := i)
    (by rwa [List.length_map]) offset
  rw [List.getElem_map] at loaded'
  obtain ⟨stored, disk0, dir0, run, owned, keptStore, records, catalog0, sameStore, sameCells, count0⟩ :=
    storeChanged_run ⟨es[i].record.setSize offset, es[i].cells⟩ small (Record.name_setSize _ _)
      loaded' (catalog_front catalog small) catalog.directory.ends (placed_setSize placed)
      (fun e inside => catalog.files e (List.mem_of_mem_eraseIdx inside)) catalog.names fits
      (by rw [length]; exact Nat.le_add_left _ _)
  have start := fileStartClusterIndex_run (s := { s with heap := stored, disk := disk0, root := 0 }) records
    (i := i) (by rwa [List.length_map, List.length_set])
  rw [List.getElem_map, List.getElem_set_self, Record.startCluster_setSize] at start
  unfold insertData
  unfold Completes
  rw [meets_next size, meets_next setSize, meets_next run, meets_next start]
  have buffered : (getClusterCountNeeded es[i].record.size - offset / clusterSize) * clusterSize %
      wordModulus = tailBuffer es[i].record.size offset := Nat.mod_eq_of_lt (by
    unfold tailBuffer at request
    omega)
  dsimp only
  rw [buffered, ← frontLength]
  have inner : i < (es.set i (Entry.mk (es[i].record.setSize offset) es[i].cells)).length := by
    rwa [List.length_set]
  have total : clusterSize - offset % clusterSize + clusterSize * post.length =
      clusterSize * es[i].data.length - offset := by
    rw [count]
    unfold clusterSize
    omega
  have room : clusterSize - offset % clusterSize + clusterSize * post.length ≤
      tailBuffer es[i].record.size offset := by
    rw [count] at enough
    unfold tailBuffer
    unfold clusterSize at *
    omega
  refine keepTail_run (s := { s with heap := stored, disk := disk0, root := 0 }) owned inner catalog0
    (by rw [List.getElem_set_self]; exact shape) ?_ ?_ (Nat.mod_lt _ (by decide)) request room ?_
  · rw [← chain.eof]
    exact sameCells.fat marker (by
      show marker ∈ es[i].cells
      rw [shape]
      simp)
  · rw [chain.start, parts]
    cases front <;> rfl
  · intro tmp heap disk1 cut lost' ownedTmp keptTmp held catalog1 leak same1 bytes1
    rw [List.getElem_set_self, List.set_set] at catalog1
    rw [List.eraseIdx_set_eq] at same1
    generalize hc : Entry.mk (es[i].record.setSize offset) (front ++ [curr] ++ [cut]) = e0 at *
    have size0 : e0.record.size = offset := by
      rw [← hc]
      exact Record.size_setSize _ _ (by omega)
    have cells0 : e0.cells.length = offset / clusterSize + 2 := by
      rw [← hc]
      simp only [List.length_append, List.length_singleton, frontLength]
    have named : position filename (es.set i e0) = some i := by
      rw [← found]
      refine position_congr filename (names_set small ?_)
      rw [← hc]
      exact Record.name_setSize _ _
    have room1 := lowFree_set catalog catalog1 small
    have low : lowFree disk1 = cutFree (lowFree s.disk) offset es[i].data.length := by
      have whole : es[i].cells.length = es[i].data.length + 1 := by
        rw [dataShape, chain.shape]
        simp only [List.length_append, List.length_singleton]
      unfold cutFree
      rcases leak with ⟨none, same⟩ | ⟨some, more⟩
      · rw [none, List.length_nil] at count
        rw [same] at room1
        omega
      · have := List.length_pos_iff.mpr some
        rw [more, List.length_cons] at room1
        omega
    rw [← low] at first second
    have parked1 : Parked { s with heap := heap, disk := disk1, root := 0 }
        ((tmp, tailBuffer es[i].record.size offset) :: others) := .empty rfl ownedTmp
    have tail : (clusterSize - offset % clusterSize + clusterSize * post.length + wordModulus -
        (clusterSize - es[i].record.size % clusterSize)) % wordModulus =
          tailLength es[i].record.size offset es[i].data.length := by
      rw [total]
      rfl
    rw [total] at held
    rw [tail]
    refine meets_mono (appendBoth_run (heap.readBytes tmp (tailBuffer es[i].record.size offset)) buffer
      parked1 catalog1 short named small rfl (by rw [size0]; exact first) (by rw [size0]; exact second) ?_ ?_) ?_
    · unfold tailBuffer clusterSize
      unfold clusterSize at inside
      omega
    · unfold tailLength
      unfold clusterSize wordModulus at *
      omega
    · rintro res s' ⟨dir', e1, e', midDisk, parked', catalog', kept', same', done, mid, first', second'⟩
      rw [size0] at mid
      have name : e'.record.name = es[i].record.name := by
        rw [appended_name second', appended_name first', ← hc]
        exact Record.name_setSize _ _
      have bytes0 : ∀ c ∈ front ++ [curr] ++ post, clusterBytes disk0 c = clusterBytes s.disk c :=
        fun c member => sameCells.bytes c (by
          show c ∈ es[i].cells
          rw [shape]
          exact List.mem_append_left _ member)
      have bytesCut : ∀ c ∈ front ++ [curr], clusterBytes disk1 c = clusterBytes s.disk c :=
        fun c member => by
          have used := volume_count (catalog_front catalog small) List.mem_cons_self (show c ∈ es[i].cells by
            rw [shape]
            exact List.mem_append_left _ (List.mem_append_left _ member))
          rw [bytes1 c used]
          exact bytes0 c (List.mem_append_left _ member)
      refine ⟨dir', e', lost', parked', catalog', kept_trans keptSize (kept_trans keptStore
        (kept_trans keptTmp kept')), sameOn_trans sameStore (sameOn_trans same1 same'), done, name,
        fun all => ?_, ⟨e0, e1, disk1, midDisk, _, ?_, cells0, low, mid, ?_, ?_, first', second'⟩⟩
      · rcases leak with ⟨_, same⟩ | ⟨some, _⟩
        · exact same
        · exact absurd (List.eq_nil_of_length_eq_zero (by omega)) some
      · rw [← hc]
      · rw [← hc, Entry.data, List.dropLast_concat, dataBytes_congr bytesCut, dataShape, parts,
          show dataBytes s.disk (front ++ [curr] ++ post) = dataBytes s.disk (front ++ [curr]) ++
            dataBytes s.disk post from List.flatMap_append]
        refine (List.take_left' ?_).symm
        rw [length_dataBytes, List.length_append, frontLength]
        rfl
      · rw [readBytes_take _ _ (by omega), held, dataShape, parts]
        have place : offset = clusterSize * front.length + offset % clusterSize := by
          rw [frontLength]
          exact (Nat.div_add_mod offset clusterSize).symm
        rw [show dataBytes disk0 post = dataBytes s.disk post from
          dataBytes_congr fun c member => bytes0 c (List.mem_append_right _ member)]
        rw [show clusterBytes disk0 curr = clusterBytes s.disk curr from bytes0 curr (by simp)]
        conv_rhs => rw [place]
        exact (drop_dataBytes _ _ _ _ (Nat.le_of_lt (Nat.mod_lt _ (by decide)))).symm

end

end Delos.Invariants
