import Delos.Invariants.FileAppend

/-!
# Reading a disk

The chains, the directory and the contents of the files as they are found on a
disk by following the FAT, with no knowledge of the operations that wrote them.
On a disk with a catalog these are the chains and the records of the catalog.
-/
namespace Delos.Invariants
open Lib Source

/-- The clusters from `c` on, up to the first one that holds EOF. -/
def walk (disk : ByteMemory) : Nat → Nat → List Nat
  | 0, _ => []
  | left + 1, c =>
    c :: if c < clusterCount ∧ fatValue disk c ≠ eofCluster then walk disk left (fatValue disk c) else []

/-- A walk over more clusters than there are has met one of them twice. -/
def chainOf (disk : ByteMemory) (first : Nat) : List Nat := walk disk clusterCount first

def fileCount (disk : ByteMemory) : Nat := disk.read32 (clusterAddr 0)

/-- Where `load_root_folder` finds a record: two in every cluster of the directory
but the last one, which has all the others. -/
def recordAddr (cells : List Nat) (i : Nat) : Nat :=
  let k := min (i / maxFilesInOneCluster) (cells.length - 2)
  clusterAddr (cells.getD k 0) + (if k = 0 then 4 else 0) +
    (i - k * maxFilesInOneCluster) * fileRecordSize

def recordOn (disk : ByteMemory) (i : Nat) : Record :=
  ⟨disk.readBytes (recordAddr (chainOf disk 0) i) fileRecordSize, ByteMemory.length_readBytes _ _ _⟩

def dirEntries (disk : ByteMemory) : List Record := (List.range (fileCount disk)).map (recordOn disk)

/-- The chain of a file without its EOF cluster. -/
def dataClusters (disk : ByteMemory) (r : Record) : List Nat := (chainOf disk r.startCluster).dropLast

def contents (disk : ByteMemory) (r : Record) : List UInt8 :=
  (dataBytes disk (dataClusters disk r)).take r.size

section
variable {disk disk' : ByteMemory} {cells dir lost : List Nat} {es : List Entry} {e : Entry}
  {c first : Nat} {chains : List (List Nat)}

theorem walk_chain (left : Nat) (front : List Nat) (marker : Nat) (enough : front.length < left)
    (low : ∀ c ∈ front ++ [marker], c < takenCluster)
    (linked : Linked (fatValue disk) (front ++ [marker])) (eof : fatValue disk marker = eofCluster) :
    walk disk left ((front ++ [marker]).headD 0) = front ++ [marker] := by
  induction front generalizing left with
  | nil =>
    obtain ⟨left, rfl⟩ : ∃ n, left = n + 1 := ⟨left - 1, by rw [List.length_nil] at enough; omega⟩
    rw [List.nil_append, List.headD_cons, walk, if_neg (by simp [eof])]
  | cons c rest ih =>
    obtain ⟨left, rfl⟩ : ∃ n, left = n + 1 := ⟨left - 1, by omega⟩
    obtain ⟨next, tail, shape⟩ : ∃ next tail, rest ++ [marker] = next :: tail :=
      List.exists_cons_of_ne_nil (by simp)
    have more := linked
    rw [List.cons_append, shape] at more
    have link := (List.isChain_cons_cons.mp more).1
    have small := low c List.mem_cons_self
    have nextLow := low next (by
      rw [List.cons_append, shape]
      exact List.mem_cons_of_mem _ List.mem_cons_self)
    have count : takenCluster < clusterCount := by decide
    have marks : takenCluster < eofCluster := by decide
    rw [List.length_cons] at enough
    have later := ih left (by omega) (fun d member => low d (List.mem_cons_of_mem c member)) linked.tail
    rw [shape, List.headD_cons] at later
    rw [List.cons_append, List.headD_cons, walk, link, if_pos ⟨by omega, by omega⟩, shape, later]

theorem length_walk (disk : ByteMemory) (left c : Nat) : (walk disk left c).length ≤ left := by
  induction left generalizing c with
  | zero => exact Nat.le_refl _
  | succ left ih =>
    rw [walk, List.length_cons]
    split
    · exact Nat.succ_le_succ (ih _)
    · exact Nat.succ_le_succ (Nat.zero_le _)

/-- A walk that reaches its end follows the table. -/
theorem walk_path (left c : Nat) {marker : Nat} (last : (walk disk left c).getLast? = some marker)
    (small : marker < clusterCount) : Path disk (walk disk left c) ∧ (walk disk left c).headD 0 = c := by
  induction left generalizing c with
  | zero => simp [walk] at last
  | succ left ih =>
    refine ⟨?_, by rw [walk, List.headD_cons]⟩
    rw [walk] at last ⊢
    by_cases follows : c < clusterCount ∧ fatValue disk c ≠ eofCluster
    · rw [if_pos follows] at last ⊢
      cases rest : walk disk left (fatValue disk c) with
      | nil => exact ⟨List.isChain_singleton c, by simpa using follows.1⟩
      | cons next tail =>
        rw [rest, List.getLast?_cons_cons, ← rest] at last
        obtain ⟨path, head⟩ := ih _ last
        rw [rest] at path head
        refine ⟨List.isChain_cons_cons.mpr ⟨head.symm, path.linked⟩, fun d member => ?_⟩
        rcases List.mem_cons.mp member with rfl | later
        · exact follows.1
        · exact path.count d later
    · rw [if_neg follows] at last ⊢
      obtain rfl := Option.some.inj last
      exact ⟨List.isChain_singleton c, by simpa using small⟩

theorem chainOf_chain (volume : Volume disk chains lost) (inside : first :: cells ∈ chains)
    (ends : Ends disk (first :: cells)) : chainOf disk first = first :: cells := by
  obtain ⟨front, marker, shape, _, eof⟩ := ends
  have linked := volume.ledger.linked _ inside
  have room := lowFree_eq volume
  have less := (List.sublist_flatten_of_mem inside).length_le
  have low : ∀ c ∈ first :: cells, c < takenCluster := fun c member => volume_low volume inside member
  have head : (front ++ [marker]).headD 0 = first := by rw [← shape, List.headD_cons]
  rw [shape] at linked low less ⊢
  rw [List.length_append, List.length_singleton] at less
  rw [List.length_append] at room
  have count : takenCluster < clusterCount := by decide
  rw [chainOf, ← head]
  exact walk_chain clusterCount front marker (by omega) low linked eof

theorem catalog_directory (catalog : Catalog disk dir es lost) : chainOf disk 0 = 0 :: dir :=
  chainOf_chain catalog.volume List.mem_cons_self catalog.directory.ends

theorem catalog_file (catalog : Catalog disk dir es lost) (inside : e ∈ es) :
    chainOf disk e.record.startCluster = e.cells := by
  have placed := catalog.files e inside
  obtain ⟨tail, shape⟩ : ∃ tail, e.cells = e.record.startCluster :: tail :=
    ⟨_, List.eq_cons_of_mem_head? (Option.mem_def.mpr placed.head)⟩
  rw [shape]
  refine chainOf_chain catalog.volume ?_ (shape ▸ placed.ends)
  rw [← shape]
  exact List.mem_cons_of_mem _ (List.mem_map.mpr ⟨e, inside, rfl⟩)

/-- For a number of files that fits, the loader's place of a record is its own. -/
theorem recordAddr_fits {i n : Nat} (fits : Fits n) (small : i < n)
    (length : cells.length = dirClusters n + 1) : recordAddr cells i =
      clusterAddr (cells.getD (i / maxFilesInOneCluster) 0) + recordOffset i := by
  have clusters := dirClusters_eq fits
  have chunk : maxFilesInOneCluster = 2 := by decide
  have firstChunk : maxFilesInFirstCluster = 2 := by decide
  have place : min (i / maxFilesInOneCluster) (cells.length - 2) = i / maxFilesInOneCluster := by
    rw [chunk]
    omega
  unfold recordAddr recordOffset
  rw [place, chunk, firstChunk]
  have rest : i - i / 2 * 2 = i % 2 := by omega
  have zero : i / 2 = 0 ↔ i < 2 := by omega
  simp only [rest, zero, Nat.add_assoc]

theorem catalog_entries (catalog : Catalog disk dir es lost) :
    dirEntries disk = es.map Entry.record := by
  have directory := catalog.directory
  have whole : (es.map Entry.record).length = es.length := List.length_map _
  have count : fileCount disk = es.length := directory.stored.count.trans whole
  refine List.ext_getElem (by rw [dirEntries, List.length_map, List.length_range, count, whole]) ?_
  intro i h h'
  rw [whole] at h'
  have here : (dirEntries disk)[i] = recordOn disk i := by simp [dirEntries]
  rw [here]
  apply Record.ext
  have stored := directory.stored.stored i (by rwa [whole]) (by rwa [whole])
  rw [← stored, recordBytes, recordOn]
  simp only
  rw [catalog_directory catalog, recordAddr_fits directory.fits (by rwa [whole])]
  rw [List.length_cons, directory.length]

theorem catalog_data (catalog : Catalog disk dir es lost) (inside : e ∈ es) :
    dataClusters disk e.record = e.data := by
  rw [dataClusters, catalog_file catalog inside, Entry.data]

theorem catalog_contents (catalog : Catalog disk dir es lost) (inside : e ∈ es) :
    contents disk e.record = (dataBytes disk e.data).take e.record.size := by
  rw [contents, catalog_data catalog inside]

end

end Delos.Invariants
