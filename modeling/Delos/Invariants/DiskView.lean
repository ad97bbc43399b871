import Delos.Lib.AllocationTable
import Delos.Source.Vfs

/-!
# The FAT and the clusters as parts of the disk window

The table entries and the clusters are disjoint byte ranges of the window. An
assignment to one entry is an `Assigns` of the allocation table and leaves every
cluster alone; a write inside one cluster leaves the table and the other
clusters alone.
-/
namespace Delos.Invariants
open Lib Source

def fatMarkers : Markers where
  count := clusterCount
  limit := takenCluster
  free := freeCluster
  eof := eofCluster
  limit_count := by decide
  limit_free := by decide
  limit_eof := by decide
  distinct := by decide

/-- The bytes of one cluster. -/
def clusterBytes (disk : ByteMemory) (c : Nat) : List UInt8 :=
  disk.readBytes (clusterAddr c) clusterSize

def setFatValue (disk : ByteMemory) (i v : Nat) : ByteMemory :=
  let a := fsStartAddr + fatEntrySize * i
  disk.writeBytes a (ByteMemory.leBytes 2
    (ByteMemory.leValue (disk.readBytes a 2) / 0x1000 * 0x1000 + v % 0x1000))

/-- The FAT of the window accounts for the chains and the lost clusters. -/
structure Volume (disk : ByteMemory) (chains : List (List Nat)) (lost : List Nat) : Prop where
  mapped : disk.origin ≤ fsStartAddr
  ledger : Ledger fatMarkers (fatValue disk) chains lost

section Addresses

theorem fatAddr_eq {i : Nat} (small : i < clusterCount) :
    fatAddr i = fsStartAddr + fatEntrySize * i := by
  unfold clusterCount at small
  unfold fatAddr fsStartAddr fatEntrySize wordModulus
  omega

theorem clusterAddr_eq {c : Nat} (small : c < clusterCount) :
    clusterAddr c = fsStartAddr + 8190 + 64 * c := by
  unfold clusterCount at small
  unfold clusterAddr clusterStartAddr fsStartAddr fatEntrySize clusterCount clusterSize wordModulus
  omega

variable {s : Fs} {a n : Nat}

theorem readMemory_disk (low : fsStartAddr ≤ a) (high : a + n ≤ fsStartAddr + fsSize)
    (beyond : fsStartAddr < a + n) : readMemory a n s = .ok (s.disk.readBytes a n, s) := by
  have page : ¬ a + n ≤ pageSize := by
    unfold pageSize fsStartAddr at *
    omega
  have heap : ¬ (kernelHeap.addr ≤ a ∧ a + n ≤ fsStartAddr) := by omega
  show (if a + n ≤ pageSize then _ else if kernelHeap.addr ≤ a ∧ a + n ≤ fsStartAddr then _
    else if fsStartAddr ≤ a ∧ a + n ≤ fsStartAddr + fsSize then _ else _ : Kernel _) s = _
  rw [if_neg page, if_neg heap, if_pos ⟨low, high⟩]
  rfl

theorem writeMemory_disk {bytes : List UInt8} (low : fsStartAddr ≤ a)
    (high : a + bytes.length ≤ fsStartAddr + fsSize) (beyond : fsStartAddr < a + bytes.length) :
    writeMemory a bytes s = .ok ((), { s with disk := s.disk.writeBytes a bytes }) := by
  have page : ¬ a + bytes.length ≤ pageSize := by
    unfold pageSize fsStartAddr at *
    omega
  have heap : ¬ (kernelHeap.addr ≤ a ∧ a + bytes.length ≤ fsStartAddr) := by omega
  rw [writeMemory, if_neg page, if_neg heap, if_pos ⟨low, high⟩]
  rfl

end Addresses

section Table
variable {s : Fs} {disk : ByteMemory} {i j v : Nat}

theorem entry_inside (small : i < clusterCount) :
    fsStartAddr ≤ fsStartAddr + fatEntrySize * i ∧
      fsStartAddr + fatEntrySize * i + 2 ≤ fsStartAddr + 8190 := by
  unfold clusterCount at small
  unfold fatEntrySize
  omega

theorem fat_run (s : Fs) (small : i < clusterCount) : fat i s = .ok (fatValue s.disk i, s) := by
  have inside := entry_inside small
  have read : readMemory (fatAddr i) 2 s =
      .ok (s.disk.readBytes (fsStartAddr + fatEntrySize * i) 2, s) := by
    rw [fatAddr_eq small]
    exact readMemory_disk inside.1 (by unfold fsSize; omega) (by omega)
  show (readMemory (fatAddr i) 2 s >>= _) = _
  rw [read]
  rfl

/-- Writing back the value an entry has. -/
theorem setFatValue_self (same : fatValue disk i = v) :
    setFatValue disk i v = disk := by
  have length : (disk.readBytes (fsStartAddr + fatEntrySize * i) 2).length = 2 :=
    ByteMemory.length_readBytes _ _ _
  have low : v % 0x1000 =
      ByteMemory.leValue (disk.readBytes (fsStartAddr + fatEntrySize * i) 2) % 0x1000 := by
    rw [← same, fatValue, Nat.mod_mod]
  have whole := ByteMemory.leBytes_leValue (disk.readBytes (fsStartAddr + fatEntrySize * i) 2)
  rw [length] at whole
  unfold setFatValue
  dsimp only
  rw [low, Nat.div_add_mod', whole, ByteMemory.writeBytes_readBytes]

theorem setFat_run (s : Fs) (small : i < clusterCount) (v : Nat) :
    setFat i v s = .ok ((), { s with disk := setFatValue s.disk i v }) := by
  have inside := entry_inside small
  have read : readMemory (fatAddr i) 2 s =
      .ok (s.disk.readBytes (fsStartAddr + fatEntrySize * i) 2, s) := by
    rw [fatAddr_eq small]
    exact readMemory_disk inside.1 (by unfold fsSize; omega) (by omega)
  show (readMemory (fatAddr i) 2 s >>= _) = _
  rw [read, fatAddr_eq small]
  exact writeMemory_disk inside.1 (by rw [ByteMemory.length_leBytes]; unfold fsSize; omega)
    (by rw [ByteMemory.length_leBytes]; omega)

@[simp] theorem origin_setFatValue (disk : ByteMemory) (i v : Nat) :
    (setFatValue disk i v).origin = disk.origin := ByteMemory.origin_writeBytes _ _ _

theorem fatValue_setFatValue_same (mapped : disk.origin ≤ fsStartAddr) (word : v < 0x1000) :
    fatValue (setFatValue disk i v) i = v := by
  have back := ByteMemory.readBytes_writeBytes_same (ByteMemory.leBytes 2
    (ByteMemory.leValue (disk.readBytes (fsStartAddr + fatEntrySize * i) 2) / 0x1000 * 0x1000 +
      v % 0x1000)) disk (fsStartAddr + fatEntrySize * i) (by omega)
  have bound := ByteMemory.leValue_lt (disk.readBytes (fsStartAddr + fatEntrySize * i) 2)
  rw [ByteMemory.length_leBytes] at back
  rw [ByteMemory.length_readBytes] at bound
  rw [fatValue, setFatValue]
  simp only [back, ByteMemory.leValue_leBytes]
  omega

theorem fatValue_setFatValue_other (different : j ≠ i) :
    fatValue (setFatValue disk i v) j = fatValue disk j := by
  rw [fatValue, fatValue, setFatValue, ByteMemory.readBytes_writeBytes_outside _ _ _ _ _ (by
    rw [ByteMemory.length_leBytes]
    unfold fatEntrySize
    omega)]

theorem assigns_setFatValue (mapped : disk.origin ≤ fsStartAddr) (word : v < 0x1000) :
    Assigns fatMarkers (fatValue disk) (fatValue (setFatValue disk i v)) i v := by
  intro j _
  by_cases here : j = i
  · rw [if_pos here, here, fatValue_setFatValue_same mapped word]
  · rw [if_neg here, fatValue_setFatValue_other here]

theorem clusterBytes_setFatValue {c : Nat} (entry : i < clusterCount) (cluster : c < clusterCount) :
    clusterBytes (setFatValue disk i v) c = clusterBytes disk c := by
  have inside := entry_inside entry
  rw [clusterBytes, clusterBytes, setFatValue, clusterAddr_eq cluster]
  refine ByteMemory.readBytes_writeBytes_outside _ _ _ _ _ ?_
  rw [ByteMemory.length_leBytes]
  omega

theorem fatValue_lt (disk : ByteMemory) (i : Nat) : fatValue disk i < 0x1000 :=
  Nat.mod_lt _ (by decide)

end Table

section Clusters
variable {s : Fs} {disk : ByteMemory} {c d k n : Nat} {bytes : List UInt8}

theorem cluster_inside (small : c < clusterCount) (fits : k + n ≤ clusterSize) :
    fsStartAddr + 8190 ≤ clusterAddr c + k ∧ clusterAddr c + k + n ≤ fsStartAddr + fsSize := by
  rw [clusterAddr_eq small]
  unfold clusterCount at small
  unfold clusterSize at fits
  unfold fsSize
  omega

theorem readCluster_run (s : Fs) (small : c < clusterCount) (fits : k + n ≤ clusterSize) :
    readMemory (clusterAddr c + k) n s = .ok (s.disk.readBytes (clusterAddr c + k) n, s) := by
  have inside := cluster_inside small fits
  exact readMemory_disk (by omega) inside.2 (by omega)

theorem writeCluster_run (s : Fs) (bytes : List UInt8) (small : c < clusterCount)
    (fits : k + bytes.length ≤ clusterSize) :
    writeMemory (clusterAddr c + k) bytes s =
      .ok ((), { s with disk := s.disk.writeBytes (clusterAddr c + k) bytes }) := by
  have inside := cluster_inside small fits
  exact writeMemory_disk (by omega) inside.2 (by omega)

theorem fatValue_writeCluster {j : Nat} (small : c < clusterCount)
    (fits : k + bytes.length ≤ clusterSize) (entry : j < clusterCount) :
    fatValue (disk.writeBytes (clusterAddr c + k) bytes) j = fatValue disk j := by
  have inside := cluster_inside small fits
  have below := entry_inside entry
  rw [fatValue, fatValue, ByteMemory.readBytes_writeBytes_outside _ _ _ _ _ (by omega)]

theorem clusterBytes_writeCluster_other (small : c < clusterCount)
    (fits : k + bytes.length ≤ clusterSize) (cluster : d < clusterCount) (different : d ≠ c) :
    clusterBytes (disk.writeBytes (clusterAddr c + k) bytes) d = clusterBytes disk d := by
  rw [clusterBytes, clusterBytes]
  refine ByteMemory.readBytes_writeBytes_outside _ _ _ _ _ ?_
  rw [clusterAddr_eq small, clusterAddr_eq cluster]
  unfold clusterSize at fits ⊢
  omega

/-- A part of a cluster is a part of its bytes. -/
theorem readCluster_part (disk : ByteMemory) (c : Nat) (fits : k + n ≤ clusterSize) :
    disk.readBytes (clusterAddr c + k) n = ((clusterBytes disk c).drop k).take n :=
  ByteMemory.readBytes_part disk (clusterAddr c) fits

end Clusters

/-! ## Volumes -/

section Volumes
variable {disk disk' : ByteMemory} {chains chains' : List (List Nat)} {lost front back cells : List Nat}
  {i p v : Nat}

theorem volume_congr (volume : Volume disk chains lost) (origin : disk'.origin = disk.origin)
    (same : ∀ j < clusterCount, fatValue disk' j = fatValue disk j) : Volume disk' chains lost :=
  ⟨origin.trans_le volume.mapped, ledger_congr volume.ledger same⟩

theorem volume_perm (volume : Volume disk chains lost) (perm : chains.Perm chains') :
    Volume disk chains' lost := ⟨volume.mapped, ledger_perm volume.ledger perm⟩

/-- A chain is cut in two; the disk is not touched. -/
theorem volume_split (front back : List Nat) (volume : Volume disk ((front ++ back) :: chains) lost) :
    Volume disk (front :: back :: chains) lost := ⟨volume.mapped, ledger_split volume.ledger⟩

theorem volume_drop_nil (volume : Volume disk ([] :: chains) lost) : Volume disk chains lost :=
  ⟨volume.mapped, ledger_drop_nil volume.ledger⟩

theorem volume_leak (volume : Volume disk (cells :: chains) lost) :
    Volume disk chains (cells ++ lost) := ⟨volume.mapped, ledger_leak volume.ledger⟩

theorem volume_count (volume : Volume disk chains lost) (inside : cells ∈ chains) {c : Nat}
    (member : c ∈ cells) : c < clusterCount := ledger_count volume.ledger inside member

theorem volume_low (volume : Volume disk chains lost) (inside : cells ∈ chains) {c : Nat}
    (member : c ∈ cells) : c < takenCluster := ledger_low volume.ledger inside member

theorem volume_take (volume : Volume disk chains lost) (bound : i < takenCluster)
    (free : fatValue disk i = freeCluster) :
    Volume (setFatValue disk i takenCluster) ([i] :: chains) lost := by
  refine ⟨(origin_setFatValue _ _ _).trans_le volume.mapped, ?_⟩
  exact ledger_take volume.ledger bound free (assigns_setFatValue volume.mapped (by decide))
    (by decide)

theorem volume_join (volume : Volume disk ((front ++ [p]) :: (i :: back) :: chains) lost) :
    Volume (setFatValue disk p i) ((front ++ p :: i :: back) :: chains) lost := by
  have bound := volume_low volume (List.mem_cons_of_mem _ List.mem_cons_self) List.mem_cons_self
  unfold takenCluster at bound
  refine ⟨(origin_setFatValue _ _ _).trans_le volume.mapped, ?_⟩
  exact ledger_join volume.ledger (assigns_setFatValue volume.mapped (by omega))

theorem volume_mark (volume : Volume disk ((front ++ [p]) :: chains) lost) :
    Volume (setFatValue disk p eofCluster) ((front ++ [p]) :: chains) lost := by
  refine ⟨(origin_setFatValue _ _ _).trans_le volume.mapped, ?_⟩
  exact ledger_mark volume.ledger (assigns_setFatValue volume.mapped (by decide)) (by decide)

theorem volume_free_head (volume : Volume disk ((p :: cells) :: chains) lost) :
    Volume (setFatValue disk p freeCluster) (cells :: chains) lost := by
  refine ⟨(origin_setFatValue _ _ _).trans_le volume.mapped, ?_⟩
  exact ledger_free_head volume.ledger (assigns_setFatValue volume.mapped (by decide))

end Volumes

end Delos.Invariants
