import Delos.Invariants.FileCatalog

/-!
# Writing along a chain

The parts of `append_data`: finding the last cluster of a file, storing bytes in
a cluster, and the loop that adds one full cluster after the other.
-/
namespace Delos.Invariants
open Lib Source

/-- The buffer holds these bytes. A kernel buffer is a live region of the heap. -/
def Supplies (heap : ByteMemory) (others : List (Nat × Nat)) (data : List UInt8) : Buffer → Prop
  | .user bytes => bytes = data
  | .kernel a => ∃ n, (a, n) ∈ others ∧ data.length ≤ n ∧ heap.readBytes a data.length = data

/-- The bytes stored in the clusters, one cluster after the other. -/
def dataBytes (disk : ByteMemory) (cells : List Nat) : List UInt8 := cells.flatMap (clusterBytes disk)

section
variable {s : Fs} {disk disk' heap heap' : ByteMemory} {others live : List (Nat × Nat)}
  {data bytes : List UInt8} {buffer : Buffer} {cells lost : List Nat} {chains : List (List Nat)}
  {c k n : Nat}

theorem supplies_kept (supplies : Supplies heap others data buffer) (kept : Kept others heap heap') :
    Supplies heap' others data buffer := by
  cases buffer with
  | user bytes => exact supplies
  | kernel a =>
    obtain ⟨n, member, fits, same⟩ := supplies
    refine ⟨n, member, fits, ?_⟩
    have back := kept_readBytes 0 data.length kept member (by omega)
    exact back.trans same

theorem readBuffer_run (supplies : Supplies s.heap others data buffer) (owned : Owned s.heap live)
    (subset : others ⊆ live) (inside : k + n ≤ data.length) :
    readBuffer buffer k n s = .ok ((data.drop k).take n, s) := by
  cases buffer with
  | user bytes =>
    obtain rfl : bytes = data := supplies
    rfl
  | kernel a =>
    obtain ⟨m, member, fits, same⟩ := supplies
    show readMemory (a + k) n s = _
    rw [readRegion_run owned (subset member) (by omega), ByteMemory.readBytes_part _ a inside, same]

theorem length_clusterBytes (disk : ByteMemory) (c : Nat) :
    (clusterBytes disk c).length = clusterSize := ByteMemory.length_readBytes _ _ _

theorem length_dataBytes (disk : ByteMemory) (cells : List Nat) :
    (dataBytes disk cells).length = clusterSize * cells.length := by
  unfold dataBytes
  rw [List.length_flatMap, List.map_congr_left (fun c _ => length_clusterBytes disk c)]
  simp [Nat.mul_comm]

theorem dataBytes_congr (same : ∀ c ∈ cells, clusterBytes disk' c = clusterBytes disk c) :
    dataBytes disk' cells = dataBytes disk cells :=
  List.flatMap_congr same

/-- A store into a cluster replaces that part of its bytes. -/
theorem clusterBytes_writeCluster_same (small : c < clusterCount) (fits : k + bytes.length ≤ clusterSize)
    (mapped : disk.origin ≤ fsStartAddr) :
    clusterBytes (disk.writeBytes (clusterAddr c + k) bytes) c =
      (clusterBytes disk c).take k ++ bytes ++ (clusterBytes disk c).drop (k + bytes.length) := by
  have inside := cluster_inside (c := c) (k := 0) (n := 0) small (by decide)
  exact ByteMemory.readBytes_writeBytes_within bytes disk _ k clusterSize fits (by omega)

/-! ## The last cluster -/

/-- The walk stops at the cluster in front of the EOF cluster. -/
theorem lastClusterLoop_run (cells front : List Nat) (p marker bound : Nat) (enough : front.length < bound)
    (volume : Volume s.disk ((cells ++ (front ++ [p, marker])) :: chains) lost)
    (eof : fatValue s.disk marker = eofCluster) :
    lastClusterLoop bound ((front ++ [p]).headD 0) s = .ok (p, s) := by
  obtain ⟨bound, rfl⟩ : ∃ b, bound = b + 1 := ⟨bound - 1, by omega⟩
  induction front generalizing cells bound with
  | nil =>
    obtain ⟨small, markerSmall, link, _⟩ := volume_link_at cells p marker [] volume
    show (fat p s >>= _) = _
    rw [fat_run s small, link]
    show (fat marker s >>= _) = _
    rw [fat_run s markerSmall, eof]
    rfl
  | cons c rest ih =>
    obtain ⟨next, third, tail, shape⟩ : ∃ next third tail, rest ++ [p, marker] = next :: third :: tail := by
      cases rest with
      | nil => exact ⟨p, marker, [], rfl⟩
      | cons d rest =>
        cases rest with
        | nil => exact ⟨d, p, [marker], rfl⟩
        | cons e rest => exact ⟨d, e, rest ++ [p, marker], rfl⟩
    have head : (rest ++ [p]).headD 0 = next := by
      cases rest with
      | nil => exact (List.cons.inj shape).1
      | cons d rest => exact (List.cons.inj shape).1
    have links := volume
    rw [List.cons_append, shape] at links
    obtain ⟨small, nextSmall, link, _⟩ := volume_link_at cells c next _ links
    obtain ⟨_, _, link', notEof⟩ := volume_link_at (cells ++ [c]) next third tail
      (by rw [List.append_assoc]; exact links)
    rw [List.length_cons] at enough
    obtain ⟨bound, rfl⟩ : ∃ b, bound = b + 1 := ⟨bound - 1, by omega⟩
    have later := ih (cells ++ [c]) (by rw [List.append_assoc]; exact volume) bound (by omega)
    rw [head] at later
    show (fat c s >>= _) = _
    rw [fat_run s small, link]
    show (fat next s >>= _) = _
    rw [fat_run s nextSmall, link']
    show (if third ≠ eofCluster then lastClusterLoop (bound + 1) next else pure c : Kernel Nat) s = _
    rw [if_pos notEof]
    exact later

/-! ## Adding clusters -/

/-- One more cluster that starts with the given bytes. -/
theorem appendCluster_run (front : List Nat) (p : Nat) (bytes : List UInt8)
    (volume : Volume s.disk ((front ++ [p]) :: chains) lost) (fits : bytes.length ≤ clusterSize)
    (room : 0 < lowFree s.disk) :
    ∃ i linked disk, getFreeCluster s = .ok (i, { s with disk := setFatValue s.disk i takenCluster }) ∧
      setFat p i { s with disk := setFatValue s.disk i takenCluster } =
        .ok ((), { s with disk := linked }) ∧
      writeMemory (clusterAddr i) bytes { s with disk := linked } = .ok ((), { s with disk := disk }) ∧
      Volume disk ((front ++ [p] ++ [i]) :: chains) lost ∧
      (clusterBytes disk i).take bytes.length = bytes ∧
      (∀ c ∈ front ++ [p], clusterBytes disk c = clusterBytes s.disk c) ∧
      SameOn chains.flatten s.disk disk ∧ lowFree disk + 1 = lowFree s.disk := by
  obtain ⟨i, linked, take, link, volume', same, old, count⟩ := extendChain_run front p volume room
  have last : i ∈ front ++ [p] ++ [i] := List.mem_append_right _ List.mem_cons_self
  have small := volume_count volume' List.mem_cons_self last
  have fits' : 0 + bytes.length ≤ clusterSize := by omega
  have stored := volume_store volume' small fits'
  have single := ledger_head_nodup volume'.ledger
  refine ⟨i, linked, linked.writeBytes (clusterAddr i + 0) bytes, take, link,
    writeCluster_run { s with disk := linked } bytes small fits', stored, ?_, fun c member => ?_,
    sameOn_trans same (sameOn_store volume' last fits'), ?_⟩
  · rw [clusterBytes_writeCluster_same small fits' volume'.mapped, List.take_zero, List.nil_append]
    exact List.take_left' rfl
  · have cluster := volume_count volume' List.mem_cons_self (List.mem_append_left [i] member)
    rw [clusterBytes_writeCluster_other small fits' cluster, old c cluster]
    rintro rfl
    exact List.disjoint_of_nodup_append single member List.mem_cons_self
  · have before := lowFree_eq volume'
    have after := lowFree_eq stored
    omega

theorem appendClustersLoop_run (left : Nat) (front : List Nat) (p stored : Nat)
    (supplies : Supplies s.heap others data buffer) (owned : Owned s.heap live)
    (subset : others ⊆ live) (inside : stored + clusterSize * left ≤ data.length)
    (volume : Volume s.disk ((front ++ [p]) :: chains) lost) (room : left ≤ lowFree s.disk) :
    ∃ front' p' news disk, appendClustersLoop buffer left p stored s =
        .ok ((p', stored + clusterSize * left), { s with disk := disk }) ∧
      front' ++ [p'] = front ++ [p] ++ news ∧ news.length = left ∧
      Volume disk ((front' ++ [p']) :: chains) lost ∧
      dataBytes disk news = (data.drop stored).take (clusterSize * left) ∧
      (∀ c ∈ front ++ [p], clusterBytes disk c = clusterBytes s.disk c) ∧
      SameOn chains.flatten s.disk disk ∧ lowFree disk + left = lowFree s.disk := by
  induction left generalizing s front p stored with
  | zero =>
    refine ⟨front, p, [], s.disk, rfl, (List.append_nil _).symm, rfl, volume, ?_, fun _ _ => rfl,
      sameOn_refl, Nat.add_zero _⟩
    rw [Nat.mul_zero, List.take_zero]
    rfl
  | succ left ih =>
    rw [Nat.mul_succ] at inside
    have size : ((data.drop stored).take clusterSize).length = clusterSize := by
      rw [List.length_take, List.length_drop]
      omega
    obtain ⟨i, linked, disk, take, link, write, volume', start, old, same, count⟩ :=
      appendCluster_run front p ((data.drop stored).take clusterSize) volume (Nat.le_of_eq size) (by omega)
    rw [size, List.take_of_length_le (Nat.le_of_eq (length_clusterBytes disk i))] at start
    obtain ⟨front', p', news, disk', run, shape, length, volume'', stores, old', same', count'⟩ :=
      ih (s := { s with disk := disk }) (front ++ [p]) i (stored + clusterSize) supplies owned
        (by omega) volume' (by simp only; omega)
    have step : stored + clusterSize * (left + 1) = stored + clusterSize + clusterSize * left := by
      rw [Nat.mul_succ]
      omega
    rw [step]
    refine ⟨front', p', i :: news, disk', ?_, ?_, congrArg Nat.succ length, volume'', ?_,
      fun c member => ?_, sameOn_trans same same', ?_⟩
    · unfold appendClustersLoop
      rw [run_bind take, run_bind link, run_bind (readBuffer_run (s := { s with disk := linked })
        supplies owned subset (by omega)), run_bind write]
      exact run
    · rw [shape, List.append_assoc _ [i] news]
      rfl
    · have here := old' i (List.mem_append_right _ List.mem_cons_self)
      rw [dataBytes, List.flatMap_cons, here, start, show news.flatMap (clusterBytes disk') = _ from stores,
        ← List.drop_drop, Nat.mul_succ, Nat.add_comm (clusterSize * left), List.take_add]
    · rw [old' c (List.mem_append_left _ member)]
      exact old c member
    · simp only at count'
      omega

end

end Delos.Invariants
