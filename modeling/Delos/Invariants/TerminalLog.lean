import Delos.Source.Common
import Delos.Invariants.FileContents
import Delos.Invariants.FileWrite
import Delos.Invariants.FileCopy
import Delos.Invariants.FileFlags
import Delos.Invariants.DiskDecoding

/-!
# The stdout file of a terminal

`Holds` relates an entry to the text it stores. Appending to an entry that holds
a text gives one that holds the longer text, unless the append starts at the end
of a full cluster; there `append_data` starts over at the front of that cluster.
-/
namespace Delos.Invariants
open Lib Source

/-- The entry stores the text, and it has as many data clusters as that needs. -/
structure Entry.Holds (e : Entry) (disk : ByteMemory) (text : List UInt8) : Prop where
  clusters : e.cells.length = max 1 (getClusterCountNeeded text.length) + 1
  size : e.record.size = text.length
  bytes : (dataBytes disk e.data).take text.length = text

/-- An append that does not start at the end of a full cluster. -/
def InCluster (size bytes : Nat) : Prop := bytes = 0 ∨ size = 0 ∨ size % clusterSize ≠ 0

instance (size bytes : Nat) : Decidable (InCluster size bytes) :=
  inferInstanceAs (Decidable (_ ∨ _ ∨ _))

/-- What ends a line. -/
def lineEnd (addNewline : Bool) : List UInt8 := if addNewline then newline else []

/-- The last bytes of a text. -/
def lastBytes (n : Nat) (text : List UInt8) : List UInt8 := text.drop (text.length - n)

section Texts
variable {n : Nat} {text more : List UInt8}

theorem length_lastBytes : (lastBytes n text).length = min n text.length := by
  rw [lastBytes, List.length_drop]
  omega

theorem lastBytes_le : (lastBytes n text).length ≤ n := by
  rw [length_lastBytes]
  exact Nat.min_le_left n text.length

theorem lastBytes_short (short : text.length ≤ n) : lastBytes n text = text := by
  rw [lastBytes, Nat.sub_eq_zero_of_le short, List.drop_zero]

/-- Bytes in front of the last ones do not matter to a longer text. -/
theorem lastBytes_append : lastBytes n (lastBytes n text ++ more) = lastBytes n (text ++ more) := by
  unfold lastBytes
  rw [List.drop_append, List.drop_append, List.drop_drop, List.length_append, List.length_append,
    List.length_drop]
  congr 2 <;> omega

end Texts

section Appending
variable {disk disk' : ByteMemory} {e e' : Entry} {text data : List UInt8} {dir lost : List Nat}
  {es : List Entry} {bytes size i : Nat}

theorem appendNeed_clusters (aligned : InCluster size bytes) :
    max 1 (getClusterCountNeeded size) + appendNeed size bytes =
      max 1 (getClusterCountNeeded (size + bytes)) := by
  have : clusterSize = 64 := rfl
  unfold InCluster at aligned
  unfold appendNeed bytesInLast getClusterCountNeeded
  rw [this] at aligned ⊢
  split <;> split <;> split <;> omega

/-- What fits the volume fits a word by far. -/
theorem appendNeed_bound (room : appendNeed size bytes ≤ takenCluster) : bytes ≤ 64 * 4096 := by
  have : clusterSize = 64 := rfl
  have limit : takenCluster = 4093 := rfl
  unfold appendNeed bytesInLast getClusterCountNeeded at room
  rw [this] at room
  split at room <;> omega

theorem holds_append (holds : e.Holds disk text) (aligned : InCluster text.length data.length)
    (room : appendNeed text.length data.length ≤ lowFree disk)
    (word : text.length + data.length < wordModulus)
    (appended : Appended disk disk' e data data.length e') :
    e'.Holds disk' (text ++ data) ∧ e'.record.flags = e.record.flags ∧
      e'.cells.length = e.cells.length + appendNeed text.length data.length := by
  have grown := appendNeed_clusters aligned
  have size64 : clusterSize = 64 := rfl
  cases appended with
  | refused full content =>
    rw [holds.size] at full
    omega
  | stored cells length room content idle =>
    rw [holds.size] at length
    refine ⟨⟨?_, ?_, ?_⟩, Record.flags_setSize _ _, length⟩
    · rw [List.length_append, ← grown]
      simp only
      rw [length, holds.clusters]
      omega
    · rw [Record.size_setSize, List.length_append, holds.size, Nat.mod_eq_of_lt word]
      exact Nat.mod_lt _ (by decide)
    · rw [List.length_append]
      by_cases empty : data.length = 0
      · rw [empty, Nat.add_zero, List.eq_nil_of_length_eq_zero empty, List.append_nil, Entry.data,
          idle empty]
        exact holds.bytes
      · have start : appendStart e = text.length := by
          have clusters := holds.clusters
          have inside := aligned.resolve_left empty
          rw [appendStart, holds.size, clusters]
          unfold getClusterCountNeeded
          rw [size64] at inside ⊢
          split <;> omega
        rw [start] at content
        rw [Entry.data, content, holds.bytes, List.take_length]

theorem lowFree_catalog (catalog : Catalog disk dir es lost) :
    lowFree disk + dirClusters es.length + (es.map Entry.cells).flatten.length + lost.length + 1 =
      takenCluster := by
  have room := lowFree_eq catalog.volume
  have length := catalog.directory.length
  rw [List.length_map] at length
  simp only [List.flatten_cons, List.length_append, List.length_cons] at room
  omega

theorem catalog_files (catalog : Catalog disk dir es lost) :
    (dirEntries disk).length = es.length := by
  rw [catalog_entries catalog, List.length_map]

theorem flatten_set_length (small : i < es.length) (e' : Entry) :
    ((es.set i e').map Entry.cells).flatten.length + es[i].cells.length =
      (es.map Entry.cells).flatten.length + e'.cells.length := by
  have changed := (entries_set_perm small e').flatten.length_eq
  have before := (entries_perm small).flatten.length_eq
  rw [List.flatten_cons, List.length_append] at changed before
  omega

theorem flatten_erase_length (small : i < es.length) :
    ((es.eraseIdx i).map Entry.cells).flatten.length + es[i].cells.length =
      (es.map Entry.cells).flatten.length := by
  have before := (entries_perm small).flatten.length_eq
  rw [List.flatten_cons, List.length_append] at before
  omega

end Appending

/-- The stdout file exists, is a system file and holds the text. -/
inductive Logged (s : Fs) (others : List (Nat × Nat)) (stdout : CString) (text : List UInt8) : Prop
  | mk {dir lost : List Nat} {es : List Entry} {i : Nat} (parked : Parked s others)
      (catalog : Catalog s.disk dir es lost)
      (found : position (normalizeFilename stdout) es = some i) (small : i < es.length)
      (holds : es[i].Holds s.disk text) (system : es[i].record.isSystem = true)

/-- Live blocks and the records of the other files are left alone. -/
structure Beside (others : List (Nat × Nat)) (filename : CString) (s s' : Fs) : Prop where
  kept : Kept others s.heap s'.heap
  records : ∀ r ∈ dirEntries s.disk, r.name ≠ (normalizeFilename filename).bytes → r ∈ dirEntries s'.disk

section Operations
variable {s : Fs} {others : List (Nat × Nat)} {stdout : CString} {text data : List UInt8}
  {dir lost : List Nat} {es : List Entry} {i : Nat}

theorem Beside.trans {s' s'' : Fs} (first : Beside others stdout s s') (second : Beside others stdout s' s'') :
    Beside others stdout s s'' :=
  ⟨kept_trans first.kept second.kept, fun r inside other => second.records r (first.records r inside other) other⟩

theorem Beside.tail {s' : Fs} {region : Nat × Nat} (beside : Beside (region :: others) stdout s s') :
    Beside others stdout s s' :=
  ⟨kept_tail beside.kept, beside.records⟩

/-- The disk is the same. -/
theorem beside_disk {s' : Fs} (kept : Kept others s.heap s'.heap) (disk : s'.disk = s.disk) :
    Beside others stdout s s' := by
  refine ⟨kept, fun r inside _ => ?_⟩
  rwa [disk]

theorem beside_entries {s' : Fs} {dir' lost' : List Nat} {es' : List Entry} (catalog : Catalog s.disk dir es lost)
    (catalog' : Catalog s'.disk dir' es' lost') (kept : Kept others s.heap s'.heap)
    (rest : ∀ e ∈ es, e.record.name ≠ (normalizeFilename stdout).bytes → e ∈ es') : Beside others stdout s s' := by
  refine ⟨kept, fun r inside other => ?_⟩
  rw [catalog_entries catalog] at inside
  rw [catalog_entries catalog']
  obtain ⟨e, member, rfl⟩ := List.mem_map.mp inside
  exact List.mem_map.mpr ⟨e, rest e member other, rfl⟩

/-- A write at the end of the stdout file. -/
theorem appendText_run (parked : Parked s others) (catalog : Catalog s.disk dir es lost)
    (found : position (normalizeFilename stdout) es = some i) (small : i < es.length)
    (holds : es[i].Holds s.disk text) (aligned : InCluster text.length data.length)
    (room : appendNeed text.length data.length ≤ lowFree s.disk)
    (word : text.length + data.length < wordModulus) :
    Completes (write stdout data text.length) s fun _ s' => ∃ dir' e', Parked s' others ∧
      Catalog s'.disk dir' (es.set i e') lost ∧ Beside others stdout s s' ∧
      position (normalizeFilename stdout) (es.set i e') = some i ∧
      e'.Holds s'.disk (text ++ data) ∧ e'.record.flags = es[i].record.flags ∧
      lowFree s'.disk + appendNeed text.length data.length = lowFree s.disk := by
  have named := (position_some found).2
  have size := holds.size
  have only : ∀ e ∈ es, e.record.name = (normalizeFilename stdout).bytes → e = es[i] :=
    fun e inside same =>
      entry_unique catalog.names inside (List.getElem_mem small) (same.trans named.symm)
  apply meets_mono (write_run stdout data text.length parked catalog ?_)
  · rintro res s' ⟨dir', es', lost', parked', catalog', kept, same, lossless, written⟩
    have beside := beside_entries catalog catalog' kept fun e inside other => (same e inside other).1
    have leak : lost' = lost := by
      apply lossless
      intro e inside same before
      rw [only e inside same] at before
      omega
    rw [leak] at catalog'
    cases written with
    | missing missing => exact absurd (missing.symm.trans found) (Option.some_ne_none i).symm
    | @beyond j here inside outside =>
      obtain rfl := Option.some.inj (here.symm.trans found)
      omega
    | @refused j here small' inside full =>
      obtain rfl := Option.some.inj (here.symm.trans found)
      omega
    | @inserted j here small' inside enough e' inserted =>
      obtain rfl := Option.some.inj (here.symm.trans found)
      omega
    | @appended j here small' last e' appended =>
      obtain rfl := Option.some.inj (here.symm.trans found)
      obtain ⟨holds', flags, grown⟩ := holds_append holds aligned room word appended
      have names := names_set small (appended_name appended)
      refine ⟨dir', e', parked', catalog', beside, ?_, holds', flags, ?_⟩
      · rw [position_congr (normalizeFilename stdout) names, found]
      · have before := lowFree_catalog catalog
        have after := lowFree_catalog catalog'
        have cells := flatten_set_length small e'
        rw [List.length_set] at after
        omega
  · intro e inside same
    rw [only e inside same, size]
    constructor
    · intro _
      exact Or.inl room
    · intro before
      omega

/-- The length of the text decides which range of the file is read. -/
theorem readTail_run (offset len : Nat) (parked : Parked s others)
    (catalog : Catalog s.disk dir es lost)
    (found : position (normalizeFilename stdout) es = some i) (small : i < es.length)
    (holds : es[i].Holds s.disk text) (range : offset + len = text.length)
    (before : len = 0 → offset = 0) :
    Completes (Source.read stdout offset len) s fun p s' =>
      ∃ heap, s' = { s with heap := heap, root := 0 } ∧ Owned heap others ∧ Kept others s.heap heap ∧
        p.2 = text.drop offset := by
  have size64 : clusterSize = 64 := rfl
  have clusters : es[i].data.length = max 1 (getClusterCountNeeded text.length) := by
    rw [Entry.data, List.length_dropLast, holds.clusters, Nat.add_sub_cancel]
  have enough : text.length ≤ clusterSize * es[i].data.length ∧
      (len = 0 ∨ offset < clusterSize * es[i].data.length) ∧ 0 < clusterSize * es[i].data.length := by
    rw [clusters]
    unfold getClusterCountNeeded
    rw [size64]
    split <;> omega
  apply meets_mono (read_run stdout offset len parked catalog found small
    (by rw [holds.size]; omega) (by omega) (by omega))
  rintro p s' ⟨heap, rfl, owned, kept, bytes⟩
  refine ⟨heap, rfl, owned, kept, ?_⟩
  rw [bytes, List.take_drop, range, holds.bytes]

/-- A new file holds the empty text. -/
theorem holds_new {disk : ByteMemory} {r : Record} {start eof : Nat}
    (size : r.size = 0) : (Entry.mk r [start, eof]).Holds disk [] :=
  ⟨by simp [getClusterCountNeeded], size, rfl⟩

/-- The new stdout file behind `touch` and `set_as_system_file`. -/
theorem createStream_run {others : List (Nat × Nat)} {f : Kernel Unit} {post : Unit → Fs → Prop}
    (parked : Parked s others) (catalog : Catalog s.disk dir es lost)
    (missing : position (normalizeFilename stdout) es = none)
    (room : CreateRoom (lowFree s.disk) es.length)
    (rest : ∀ s' dir' e, Parked s' others → Catalog s'.disk dir' (es ++ [e]) lost →
      Beside others stdout s s' →
      position (normalizeFilename stdout) (es ++ [e]) = some es.length → e.Holds s'.disk [] →
      e.record.isSystem = true →
      lowFree s'.disk + dirClusters (es.length + 1) + 2 = lowFree s.disk + dirClusters es.length →
      Completes f s' post) :
    Completes (touch stdout >>= fun _ => setAsSystemFile stdout >>= fun _ => f) s post := by
  apply meets_call (touch_run stdout parked catalog fun _ => room)
  rintro res s1 ⟨dir1, es1, parked1, catalog1, kept1, _, touched⟩
  cases touched with
  | present there => exact absurd missing there
  | @created _ start eof r new =>
    have before := lowFree_catalog catalog
    apply meets_call (setAsSystemFile_run stdout parked1 catalog1)
    rintro res s2 ⟨dir2, es2, parked2, catalog2, same2, kept2, result⟩
    have found := position_append missing (e := Entry.mk r [start, eof]) new.name
    have small : es.length < (es ++ [Entry.mk r [start, eof]]).length := by simp
    have last : (es ++ [Entry.mk r [start, eof]])[es.length] = Entry.mk r [start, eof] := by simp
    have closed : ¬ OpenIn (normalizeFilename stdout) (es ++ [Entry.mk r [start, eof]]) := by
      rintro ⟨e, inside, named, opened⟩
      obtain ⟨_, named'⟩ := position_some found
      have same := entry_unique catalog1.names inside (List.getElem_mem small) (named.trans named'.symm)
      rw [same, last, new.closed] at opened
      exact absurd opened (by decide)
    obtain ⟨_, _, changed⟩ := result.resolve_left fun opened => closed opened.1
    have marked : es2 = es ++ [(Entry.mk r [start, eof]).withFlag 1 true] := by
      rw [changed, flagChanged, found]
      simp [List.modify_eq_set_getElem?]
    subst marked
    have after := lowFree_catalog catalog2
    have beside : Beside others stdout s s2 := beside_entries catalog catalog2 (kept_trans kept1 kept2)
      fun e inside _ => List.mem_append_left _ inside
    refine rest s2 dir2 _ parked2 catalog2 beside ?_ ?_ ?_ ?_
    · exact position_append missing ((Record.name_setFlag _ _ _).trans new.name)
    · exact holds_new ((Record.size_setFlag _ _ _).trans new.size)
    · show flagBit (r.setFlag 1 true).flags 1 = true
      rw [Record.flags_setFlag, Record.flagBit_same (by decide)]
    · simp only [List.map_append, List.flatten_append, List.length_append, List.map_cons,
        List.map_nil, List.flatten_cons, List.flatten_nil, List.length_nil, Entry.withFlag,
        List.length_cons, Nat.zero_add] at after
      omega

/-- A part of the text is brought to a cleared buffer on the kernel heap. -/
theorem bufferText_run {f : Nat → Kernel Unit} {post : Unit → Fs → Prop} (offset len size zeros : Nat)
    (owned : Owned s.heap others) (noFolder : s.root = 0) (catalog : Catalog s.disk dir es lost)
    (found : position (normalizeFilename stdout) es = some i) (small : i < es.length)
    (holds : es[i].Holds s.disk text) (range : offset + len = text.length)
    (before : len = 0 → offset = 0) (fits : len ≤ size) (clear : zeros ≤ size)
    (request : size + blockHeaderSize < wordModulus)
    (rest : ∀ p heap, Owned heap ((p, size) :: others) → Kept others s.heap heap →
      heap.readBytes p len = text.drop offset →
        Completes (f p) { s with heap := heap, root := 0 } post) :
    Completes (do
      let buffer ← kmalloc size
      writeMemory buffer (List.replicate zeros 0)
      let (_, bytes) ← Source.read stdout offset len
      writeMemory buffer bytes
      f buffer) s post := by
  apply meets_call (completes_kmalloc owned request)
  rintro p _ ⟨heap, rfl, ownedBuffer, keptBuffer⟩
  have whole : 0 + (List.replicate zeros (0 : UInt8)).length ≤ size := by
    rw [List.length_replicate, Nat.zero_add]
    exact clear
  have set := writeRegion_run (s := { s with heap := heap }) ownedBuffer List.mem_cons_self whole
  have ownedClear := owned_writeBytes ownedBuffer List.mem_cons_self whole
  have keptClear := kept_writeBytes ownedBuffer whole
  refine (meets_next set).mpr ?_
  generalize heap.writeBytes (p + 0) (List.replicate zeros 0) = cleared at *
  apply meets_call (readTail_run (s := { s with heap := cleared }) offset len (.empty noFolder ownedClear)
    catalog found small holds range before)
  rintro ⟨res, bytes⟩ _ ⟨loaded, rfl, ownedRead, keptRead, content⟩
  obtain rfl : bytes = text.drop offset := content
  have length : (text.drop offset).length = len := by
    rw [List.length_drop]
    omega
  have inside : 0 + (text.drop offset).length ≤ size := by
    rw [length]
    omega
  have write := writeRegion_run (s := { s with heap := loaded, root := 0 }) ownedRead
    List.mem_cons_self inside
  refine (meets_next write).mpr ?_
  have ownedText := owned_writeBytes ownedRead List.mem_cons_self inside
  have keptText := kept_writeBytes ownedRead inside
  refine rest p _ ownedText (kept_trans keptBuffer (kept_trans keptClear
    (kept_trans (kept_tail keptRead) keptText))) ?_
  rw [Nat.add_zero, ← length]
  exact ByteMemory.readBytes_writeBytes_same _ _ _ (owned_mapped ownedRead List.mem_cons_self)

/-- A live region next to the root folder can be read. -/
theorem parkedRegion_run {p n : Nat} (parked : Parked s ((p, n) :: others)) :
    readMemory p n s = .ok (s.heap.readBytes p n, s) := by
  cases parked with
  | empty none owned => exact readRegion_run (k := 0) owned List.mem_cons_self (by omega)
  | folder files size owned pointer =>
    exact readRegion_run (k := 0) owned
      (List.mem_cons_of_mem _ (List.mem_cons_of_mem _ List.mem_cons_self)) (by omega)

theorem logged_park {heap : ByteMemory} (logged : Logged s others stdout text)
    (owned : Owned heap others) : Logged { s with heap := heap, root := 0 } others stdout text := by
  obtain ⟨_, catalog, found, small, holds, system⟩ := logged
  exact .mk (.empty rfl owned) catalog found small holds system

theorem logSize_run (logged : Logged s others stdout text) :
    Completes (getFileSize stdout) s fun size s' => ∃ heap, s' = { s with heap := heap, root := 0 } ∧
      Owned heap others ∧ Kept others s.heap heap ∧ size = text.length := by
  obtain ⟨parked, catalog, found, small, holds, _⟩ := logged
  apply meets_mono (getFileSize_run stdout parked catalog found small)
  rintro size s' ⟨heap, rfl, owned, kept, rfl⟩
  exact ⟨heap, rfl, owned, kept, holds.size⟩

theorem logText_run (logged : Logged s others stdout text)
    (aligned : InCluster text.length data.length)
    (room : appendNeed text.length data.length ≤ lowFree s.disk)
    (word : text.length + data.length < wordModulus) :
    Completes (write stdout data text.length) s fun _ s' => Logged s' others stdout (text ++ data) ∧
      (dirEntries s'.disk).length = (dirEntries s.disk).length ∧
      lowFree s'.disk + appendNeed text.length data.length = lowFree s.disk ∧ Beside others stdout s s' := by
  obtain ⟨parked, catalog, found, small, holds, system⟩ := logged
  apply meets_mono (appendText_run parked catalog found small holds aligned room word)
  rintro res s' ⟨dir', e', parked', catalog', beside, found', holds', flags', free'⟩
  refine ⟨.mk parked' catalog' found' (by rwa [List.length_set]) ?_ ?_, ?_, free', beside⟩
  · rw [List.getElem_set_self]
    exact holds'
  · rw [List.getElem_set_self, Record.isSystem, flags']
    exact system
  · rw [catalog_files catalog', catalog_files catalog, List.length_set]

/-- The last bytes of the text in a file that was created anew. -/
theorem rotateStream_run (owned : Owned s.heap others) (noFolder : s.root = 0)
    (logged : Logged s others stdout text) (long : maxShellFileSize ≤ text.length)
    (fits : Fits ((dirEntries s.disk).length - 1)) :
    Completes (rotateStream stdout text.length) s fun _ s' =>
      Logged s' others stdout (lastBytes maxShellFileSize text) ∧ Beside others stdout s s' := by
  obtain @⟨dir, lost, es, i, _, catalog, found, small, holds, _⟩ := logged
  rw [catalog_files catalog] at fits
  have max200 : maxShellFileSize = 200 := rfl
  have named := (position_some found).2
  have fitsNow := catalog.directory.fits
  rw [List.length_map] at fitsNow
  have clusters : 5 ≤ es[i].cells.length := by
    rw [holds.clusters]
    unfold getClusterCountNeeded
    have : clusterSize = 64 := rfl
    rw [this]
    split <;> omega
  have free0 := lowFree_catalog catalog
  have cells := flatten_erase_length small
  have erased : (es.eraseIdx i).length = es.length - 1 := List.length_eraseIdx_of_lt small
  have less := dirClusters_pred fitsNow fits
  unfold rotateStream
  apply bufferText_run (text.length - maxShellFileSize) maxShellFileSize maxShellFileSize
    maxShellFileSize owned noFolder catalog found small holds (by omega) (by omega)
    (Nat.le_refl _) (Nat.le_refl _) (by decide)
  intro p heap ownedBuffer keptBuffer content
  apply meets_call (deleteSystemFile_run stdout (s := { s with heap := heap, root := 0 })
    (.empty rfl ownedBuffer) catalog fun _ => fits)
  rintro res s1 ⟨dir1, es1, parked1, catalog1, kept1, same1, deleted⟩
  cases deleted with
  | missing missing => exact absurd (missing.symm.trans found) (Option.some_ne_none i).symm
  | @deleted j here =>
    obtain rfl := Option.some.inj (here.symm.trans found)
    have free1 := lowFree_catalog catalog1
    rw [erased] at free1
    have whole : es.length - 1 + 1 = es.length := by omega
    have room : CreateRoom (lowFree s1.disk) (es.eraseIdx j).length := by
      constructor
      · omega
      · rw [erased, whole]
        omega
      · rw [erased, whole]
        exact fitsNow
    apply createStream_run parked1 catalog1 (position_eraseIdx catalog small named) room
    intro s2 dir2 e parked2 catalog2 beside2 found2 holds2 system2 free2
    rw [erased, whole] at free2
    have held : s2.heap.readBytes p maxShellFileSize = lastBytes maxShellFileSize text := by
      unfold lastBytes
      rw [← content]
      exact kept_readBytes 0 maxShellFileSize (kept_trans kept1 beside2.kept) List.mem_cons_self (by omega)
    refine (meets_next (parkedRegion_run parked2)).mpr ?_
    rw [held]
    have length : (lastBytes maxShellFileSize text).length = 200 := by
      rw [length_lastBytes]
      omega
    have small2 : (es.eraseIdx j).length < (es.eraseIdx j ++ [e]).length := by simp
    have last : (es.eraseIdx j ++ [e])[(es.eraseIdx j).length] = e := by simp
    have need : appendNeed 0 200 = 3 := by decide
    have starts : InCluster ([] : List UInt8).length (lastBytes maxShellFileSize text).length :=
      Or.inr (Or.inl rfl)
    have enough : appendNeed ([] : List UInt8).length (lastBytes maxShellFileSize text).length ≤
        lowFree s2.disk := by
      rw [length, List.length_nil, need]
      omega
    have word : ([] : List UInt8).length + (lastBytes maxShellFileSize text).length < wordModulus := by
      rw [length, List.length_nil]
      decide
    rw [← last] at holds2
    have written := appendText_run parked2 catalog2 found2 small2 holds2 starts enough word
    rw [List.nil_append, List.length_nil] at written
    apply meets_call written
    rintro res s3 ⟨dir3, e3, parked3, catalog3, beside3, found3, holds3, flags3, _⟩
    obtain ⟨heap4, free, parked4, kept4⟩ := kfree_parked parked3
    have loaded : Beside others stdout s { s with heap := heap, root := 0 } := beside_disk keptBuffer rfl
    have without : Beside ((p, maxShellFileSize) :: others) stdout { s with heap := heap, root := 0 } s1 :=
      beside_entries catalog catalog1 kept1 fun e inside other => (same1 e inside other).1
    have rotated := loaded.trans ((without.trans (beside2.trans beside3)).tail)
    have freed : Beside others stdout s3 { s3 with heap := heap4 } := beside_disk kept4 rfl
    have system3 : e3.record.isSystem = true := by
      rw [Record.isSystem, flags3, last]
      exact system2
    have small3 : (es.eraseIdx j).length < ((es.eraseIdx j ++ [e]).set (es.eraseIdx j).length e3).length := by
      rw [List.length_set]
      exact small2
    refine meets_run free ⟨.mk parked4 catalog3 found3 small3 ?_ ?_, rotated.trans freed⟩
    · rw [List.getElem_set_self]
      exact holds3
    · rw [List.getElem_set_self]
      exact system3

/-- What a print needs: no append starts at the end of a full cluster, the clusters
are free, and the directory can be saved without the file when it is rotated. -/
structure PrintReady (disk : ByteMemory) (size len ending : Nat) : Prop where
  text : InCluster size len
  lineEnd : InCluster (size + len) ending
  room : appendNeed size len + appendNeed (size + len) ending ≤ lowFree disk
  rotated : maxShellFileSize ≤ size + len + ending → Fits ((dirEntries disk).length - 1)

instance (disk : ByteMemory) (size len ending : Nat) : Decidable (PrintReady disk size len ending) :=
  decidable_of_iff
    (InCluster size len ∧ InCluster (size + len) ending ∧
      appendNeed size len + appendNeed (size + len) ending ≤ lowFree disk ∧
      (maxShellFileSize ≤ size + len + ending → Fits ((dirEntries disk).length - 1)))
    ⟨fun ⟨text, ending, room, rotated⟩ => ⟨text, ending, room, rotated⟩,
      fun ⟨text, ending, room, rotated⟩ => ⟨text, ending, room, rotated⟩⟩

theorem printToStream_run {buffer : CString} {addNewline : Bool} (logged : Logged s others stdout text)
    (short : text.length ≤ maxShellFileSize)
    (ready : PrintReady s.disk text.length buffer.bytes.length (lineEnd addNewline).length) :
    Completes (printToStream stdout buffer addNewline) s fun _ s' => Logged s' others stdout
      (lastBytes maxShellFileSize (text ++ buffer.bytes ++ lineEnd addNewline)) ∧ Beside others stdout s s' := by
  have low : lowFree s.disk ≤ takenCluster := by
    obtain ⟨_, catalog, _, _, _, _⟩ := logged
    have := lowFree_catalog catalog
    omega
  have max200 : maxShellFileSize = 200 := rfl
  have word32 : wordModulus = 4294967296 := rfl
  have first := appendNeed_bound (Nat.le_trans (Nat.le_of_add_right_le ready.room) low)
  have second := appendNeed_bound (Nat.le_trans (Nat.le_of_add_left_le ready.room) low)
  unfold printToStream
  apply meets_call (logSize_run logged)
  rintro _ _ ⟨heap, rfl, owned, kept, rfl⟩
  have loaded : Beside others stdout s { s with heap := heap, root := 0 } := beside_disk kept rfl
  apply meets_call (logText_run (logged_park logged owned) ready.text
    (Nat.le_of_add_right_le ready.room) (by omega))
  rintro res s1 ⟨logged1, files1, free1, beside1⟩
  have ended : Completes (doIf addNewline do
      let _ ← write stdout newline ((text.length + buffer.bytes.length) % wordModulus)) s1
      fun _ s2 => Logged s2 others stdout (text ++ buffer.bytes ++ lineEnd addNewline) ∧
        (dirEntries s2.disk).length = (dirEntries s.disk).length ∧ Beside others stdout s s2 := by
    cases addNewline with
    | false =>
      rw [lineEnd, if_neg Bool.false_ne_true, List.append_nil]
      exact meets_pure.mpr ⟨logged1, files1, loaded.trans beside1⟩
    | true =>
      have whole : (text.length + buffer.bytes.length) % wordModulus =
          (text ++ buffer.bytes).length := by
        rw [List.length_append, Nat.mod_eq_of_lt (by omega)]
      have ending := ready.lineEnd
      have room := ready.room
      rw [whole]
      rw [← List.length_append] at ending room
      have length : (text ++ buffer.bytes).length = text.length + buffer.bytes.length :=
        List.length_append
      simp only at free1
      have written := logText_run logged1 ending (by omega) (by omega)
      rw [doIf, if_pos rfl]
      apply meets_call written
      rintro res s2 ⟨logged2, files2, _, beside2⟩
      exact meets_pure.mpr ⟨logged2, files2.trans files1, loaded.trans (beside1.trans beside2)⟩
  apply meets_call ended
  rintro _ s2 ⟨logged2, files2, beside2⟩
  apply meets_call (logSize_run logged2)
  rintro _ _ ⟨heap2, rfl, owned2, kept2, rfl⟩
  have printed : Beside others stdout s { s2 with heap := heap2, root := 0 } :=
    beside2.trans (beside_disk kept2 rfl)
  have parked2 := logged_park logged2 owned2
  by_cases long : maxShellFileSize ≤ (text ++ buffer.bytes ++ lineEnd addNewline).length
  · rw [doIf, if_pos long]
    rw [List.length_append, List.length_append] at long
    have fits := ready.rotated long
    rw [← files2] at fits
    rw [← List.length_append, ← List.length_append] at long
    apply meets_mono (rotateStream_run owned2 rfl parked2 long fits)
    rintro _ s3 ⟨logged3, beside3⟩
    exact ⟨logged3, printed.trans beside3⟩
  · rw [doIf, if_neg long, lastBytes_short (by omega)]
    exact meets_pure.mpr ⟨parked2, printed⟩

theorem upToNul_plain {text : List UInt8} (plain : (0 : UInt8) ∉ text) : upToNul text = text := by
  unfold upToNul
  induction text with
  | nil => rfl
  | cons c text ih =>
    rw [List.mem_cons, not_or] at plain
    obtain ⟨other, plain⟩ := plain
    rw [List.takeWhile_cons, if_pos (decide_eq_true (Ne.symm other)), ih plain]

theorem upToNul_terminated (front rest : List UInt8) : upToNul (front ++ 0 :: rest) = upToNul front := by
  unfold upToNul
  induction front with
  | nil => rfl
  | cons c front ih => simp only [List.cons_append, List.takeWhile_cons, ih]

/-- The text is printed up to a NUL, and the file is left alone. -/
theorem terminalText_run (logged : Logged s others stdout text)
    (short : text.length ≤ maxShellFileSize) :
    Completes (terminalText stdout) s fun _ s' =>
      s'.screen = s.screen ++ [.kprintfBytes (upToNul text)] ∧ Logged s' others stdout text ∧
        s'.disk = s.disk ∧ Kept others s.heap s'.heap := by
  have max200 : maxShellFileSize = 200 := rfl
  unfold terminalText
  apply meets_call (logSize_run logged)
  rintro _ _ ⟨heap, rfl, owned, kept, rfl⟩
  obtain @⟨dir, lost, es, i, _, catalog, found, small, holds, system⟩ := logged
  simp only [short, true_or, if_true]
  apply bufferText_run (s := { s with heap := heap, root := 0 }) 0 text.length
    (maxShellFileSize + 1) maxShellFileSize owned rfl catalog found small holds (Nat.zero_add _)
    (fun _ => rfl) (Nat.le_succ_of_le short) (Nat.le_succ _) (by decide)
  intro p heap1 owned1 kept1 content
  rw [List.drop_zero] at content
  have inside : text.length + ([0] : List UInt8).length ≤ maxShellFileSize + 1 :=
    Nat.add_le_add_right short 1
  have ended := writeRegion_run (s := { s with heap := heap1, root := 0 }) owned1
    List.mem_cons_self inside
  refine (meets_next ended).mpr ?_
  have owned2 := owned_writeBytes owned1 List.mem_cons_self inside
  have whole := readRegion_run (s := { s with heap := heap1.writeBytes (p + text.length) [0], root := 0 })
    owned2 List.mem_cons_self (show 0 + (maxShellFileSize + 1) ≤ maxShellFileSize + 1 by
      rw [Nat.zero_add])
  refine (meets_next whole).mpr ?_
  have mapped := owned_mapped owned1 List.mem_cons_self
  have shown : upToNul ((heap1.writeBytes (p + text.length) [0]).readBytes p (maxShellFileSize + 1)) =
      upToNul text := by
    have split : maxShellFileSize + 1 = text.length + (1 + (maxShellFileSize - text.length)) := by
      omega
    rw [split, ByteMemory.readBytes_add, ByteMemory.readBytes_add]
    rw [ByteMemory.readBytes_writeBytes_outside _ _ _ _ _ (Or.inl (Nat.le_refl _)), content]
    have zero := ByteMemory.readBytes_writeBytes_same [0] heap1 (p + text.length) (by omega)
    rw [List.length_singleton] at zero
    rw [zero, List.singleton_append]
    exact upToNul_terminated _ _
  refine (meets_next rfl).mpr ?_
  obtain ⟨heap3, free, parked3, kept3⟩ := kfree_parked (s := { s with
    heap := heap1.writeBytes (p + text.length) [0], root := 0
    screen := s.screen ++ [.kprintfBytes (upToNul text)] }) (.empty rfl owned2)
  rw [Nat.add_zero, shown]
  have kept2 := kept_writeBytes owned1 inside
  have all := kept_trans kept (kept_trans kept1 (kept_trans kept2 kept3))
  exact meets_run free ⟨rfl, .mk parked3 catalog found small holds system, rfl, all⟩

end Operations

end Delos.Invariants
