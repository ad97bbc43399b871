import Delos.Invariants.DiskView

/-!
# Taking, linking and freeing clusters

The loops of vfs.cpp over the FAT, each as a change of the volume. `SameOn`
is the frame: the table entries and the bytes of the clusters of other chains.
-/
namespace Delos.Invariants
open Lib Source

structure SameOn (cells : List Nat) (disk disk' : ByteMemory) : Prop where
  fat : ∀ c ∈ cells, fatValue disk' c = fatValue disk c
  bytes : ∀ c ∈ cells, clusterBytes disk' c = clusterBytes disk c

/-- The chain has a first cluster and a marker cluster that holds EOF. -/
def Ends (disk : ByteMemory) (cells : List Nat) : Prop :=
  ∃ front marker, cells = front ++ [marker] ∧ front ≠ [] ∧ fatValue disk marker = eofCluster

section Frame
variable {disk disk' disk'' : ByteMemory} {cells cells' : List Nat} {c k v : Nat} {bytes : List UInt8}

theorem sameOn_refl : SameOn cells disk disk := ⟨fun _ _ => rfl, fun _ _ => rfl⟩

theorem sameOn_trans (first : SameOn cells disk disk') (second : SameOn cells disk' disk'') :
    SameOn cells disk disk'' :=
  ⟨fun c member => (second.fat c member).trans (first.fat c member),
    fun c member => (second.bytes c member).trans (first.bytes c member)⟩

theorem sameOn_subset (same : SameOn cells disk disk') (subset : cells' ⊆ cells) :
    SameOn cells' disk disk' :=
  ⟨fun c member => same.fat c (subset member), fun c member => same.bytes c (subset member)⟩

theorem sameOn_setFatValue (small : c < clusterCount) (count : ∀ d ∈ cells, d < clusterCount)
    (outside : c ∉ cells) : SameOn cells disk (setFatValue disk c v) := by
  refine ⟨fun d member => fatValue_setFatValue_other ?_, fun d member => ?_⟩
  · rintro rfl
    exact outside member
  · exact clusterBytes_setFatValue small (count d member)

theorem sameOn_writeCluster (small : c < clusterCount) (fits : k + bytes.length ≤ clusterSize)
    (count : ∀ d ∈ cells, d < clusterCount) (outside : c ∉ cells) :
    SameOn cells disk (disk.writeBytes (clusterAddr c + k) bytes) := by
  refine ⟨fun d member => fatValue_writeCluster small fits (count d member), fun d member => ?_⟩
  refine clusterBytes_writeCluster_other small fits (count d member) ?_
  rintro rfl
  exact outside member

theorem ends_same (ends : Ends disk cells) (same : ∀ c ∈ cells, fatValue disk' c = fatValue disk c) :
    Ends disk' cells := by
  obtain ⟨front, marker, rfl, nonempty, eof⟩ := ends
  refine ⟨front, marker, rfl, nonempty, ?_⟩
  rw [same marker (List.mem_append_right _ List.mem_cons_self), eof]

end Frame

section Volume
variable {disk disk' : ByteMemory} {chains : List (List Nat)} {lost cells front back : List Nat}
  {c i p k v : Nat} {bytes : List UInt8}

theorem volume_flatten_count (volume : Volume disk chains lost) :
    ∀ d ∈ chains.flatten, d < clusterCount := by
  intro d member
  obtain ⟨cells, inside, inner⟩ := List.mem_flatten.mp member
  exact volume_count volume inside inner

theorem volume_outside (volume : Volume disk (cells :: chains) lost) (member : c ∈ cells) :
    c ∉ chains.flatten := fun inside =>
  ledger_head_apart volume.ledger member (List.mem_append_left _ inside)

/-- An assignment to a cluster of the first chain keeps the others. -/
theorem sameOn_assign (volume : Volume disk (cells :: chains) lost) (member : c ∈ cells) :
    SameOn chains.flatten disk (setFatValue disk c v) := by
  have count := volume_flatten_count volume
  rw [List.flatten_cons] at count
  exact sameOn_setFatValue (volume_count volume List.mem_cons_self member)
    (fun d inside => count d (List.mem_append_right _ inside)) (volume_outside volume member)

theorem sameOn_store (volume : Volume disk (cells :: chains) lost) (member : c ∈ cells)
    (fits : k + bytes.length ≤ clusterSize) :
    SameOn chains.flatten disk (disk.writeBytes (clusterAddr c + k) bytes) := by
  have count := volume_flatten_count volume
  rw [List.flatten_cons] at count
  exact sameOn_writeCluster (volume_count volume List.mem_cons_self member) fits
    (fun d inside => count d (List.mem_append_right _ inside)) (volume_outside volume member)

theorem volume_store (volume : Volume disk chains lost) (small : c < clusterCount)
    (fits : k + bytes.length ≤ clusterSize) :
    Volume (disk.writeBytes (clusterAddr c + k) bytes) chains lost :=
  volume_congr volume (ByteMemory.origin_writeBytes _ _ _) fun _ entry =>
    fatValue_writeCluster small fits entry

/-- The value of a cluster inside a chain is the next cluster, no marker. -/
theorem volume_link (volume : Volume disk ((c :: i :: back) :: chains) lost) :
    fatValue disk c = i ∧ i ≠ eofCluster ∧ i ≠ freeCluster := by
  have linked := volume.ledger.linked _ List.mem_cons_self
  have low := volume_low volume List.mem_cons_self (List.mem_cons_of_mem c List.mem_cons_self)
  refine ⟨(List.isChain_cons_cons.mp linked).1, ?_, ?_⟩ <;>
  · unfold takenCluster at low
    simp only [eofCluster, freeCluster]
    omega

/-- Clusters of the table that follow one another; nothing is said about the others. -/
structure Path (disk : ByteMemory) (cells : List Nat) : Prop where
  linked : Linked (fatValue disk) cells
  count : ∀ c ∈ cells, c < clusterCount

theorem volume_path (volume : Volume disk (cells :: chains) lost) : Path disk cells :=
  ⟨volume.ledger.linked _ List.mem_cons_self, fun _ member =>
    volume_count volume List.mem_cons_self member⟩

/-- The same for a cluster anywhere in a path. -/
theorem path_link_at (front : List Nat) (c i : Nat) (back : List Nat)
    (path : Path disk (front ++ c :: i :: back)) :
    c < clusterCount ∧ i < clusterCount ∧ fatValue disk c = i ∧ i ≠ eofCluster := by
  have inside : c ∈ front ++ c :: i :: back := List.mem_append_right _ List.mem_cons_self
  have inside' : i ∈ front ++ c :: i :: back :=
    List.mem_append_right _ (List.mem_cons_of_mem _ List.mem_cons_self)
  have small := path.count i inside'
  refine ⟨path.count c inside, small, (List.isChain_append_cons_cons.mp path.linked).2.1, ?_⟩
  unfold clusterCount at small
  unfold eofCluster
  omega

theorem volume_link_at (front : List Nat) (c i : Nat) (back : List Nat)
    (volume : Volume disk ((front ++ c :: i :: back) :: chains) lost) :
    c < clusterCount ∧ i < clusterCount ∧ fatValue disk c = i ∧ i ≠ eofCluster :=
  path_link_at front c i back (volume_path volume)

/-- Every cluster keeps its bytes. -/
def SameBytes (disk disk' : ByteMemory) : Prop :=
  ∀ c < clusterCount, clusterBytes disk' c = clusterBytes disk c

theorem sameBytes_setFatValue (small : c < clusterCount) :
    SameBytes disk (setFatValue disk c v) := fun _ cluster => clusterBytes_setFatValue small cluster

/-! ## Searching the table -/

theorem firstFreeCluster_some (left i j : Nat) (inside : i ≤ j ∧ j < i + left)
    (free : fatValue disk j = freeCluster) :
    ∃ f, firstFreeCluster disk left i = some f ∧ f ≤ j ∧ fatValue disk f = freeCluster := by
  induction left generalizing i with
  | zero => omega
  | succ left ih =>
    rw [firstFreeCluster]
    by_cases here : fatValue disk i = freeCluster
    · exact ⟨i, by rw [if_pos here], inside.1, here⟩
    · rw [if_neg here]
      have different : i ≠ j := by
        rintro rfl
        exact here free
      exact ih (i + 1) (by omega)

/-- `exists_n_free_clusters` counts the free entries. -/
theorem existsNFreeClustersLoop_iff (n left i count : Nat) :
    existsNFreeClustersLoop disk n left i count = true ↔
      0 < left ∧ n ≤ count + ((List.range' i left).filter fun j => fatValue disk j = freeCluster).length := by
  induction left generalizing i count with
  | zero => simp [existsNFreeClustersLoop]
  | succ left ih =>
    rw [existsNFreeClustersLoop, List.range'_succ, List.filter_cons]
    by_cases here : fatValue disk i = freeCluster
    · simp only [here, if_true, decide_true, List.length_cons]
      by_cases enough : count + 1 ≥ n
      · simp only [enough, if_true, true_iff]
        omega
      · rw [if_neg enough, ih]
        cases left with
        | zero => simp; omega
        | succ left => omega
    · simp only [here, if_false, decide_false, Bool.false_eq_true, Nat.add_zero]
      by_cases enough : count ≥ n
      · simp only [enough, if_true, true_iff]
        omega
      · rw [if_neg enough, ih]
        cases left with
        | zero => simp; omega
        | succ left => omega

/-- The number of free clusters below the marker values. -/
def lowFree (disk : ByteMemory) : Nat := fatMarkers.room (fatValue disk)

theorem lowFree_eq (volume : Volume disk chains lost) :
    lowFree disk + (chains.flatten ++ lost).length = takenCluster := ledger_room volume.ledger

/-- The two clusters whose indices are marker values are free and counted, too. -/
theorem existsNFreeClusters_iff (volume : Volume disk chains lost) (n : Nat) :
    existsNFreeClustersLoop disk n clusterCount 0 0 = true ↔ n ≤ lowFree disk + 2 := by
  have split : List.range' 0 clusterCount = List.range takenCluster ++ [4093, 4094] := by
    have whole : clusterCount = takenCluster + 2 := by decide
    rw [whole, ← List.range'_append_1, List.range_eq_range']
    rfl
  have outside : ∀ j, takenCluster ≤ j → j ∉ chains.flatten ++ lost := fun j high member =>
    Nat.not_lt.mpr high (volume.ledger.low j member)
  have first : fatValue disk 4093 = freeCluster :=
    (volume.ledger.free 4093 (by decide)).mpr (outside _ (by decide))
  have second : fatValue disk 4094 = freeCluster :=
    (volume.ledger.free 4094 (by decide)).mpr (outside _ (by decide))
  rw [existsNFreeClustersLoop_iff, split, List.filter_append, List.length_append]
  simp only [List.filter_cons, first, second, decide_true, if_true, List.filter_nil, List.length_cons,
    List.length_nil, lowFree, Markers.room]
  have positive : 0 < clusterCount := by decide
  simp only [positive, true_and]
  have same : (List.range takenCluster).filter (fun j => decide (fatValue disk j = freeCluster)) =
      (List.range fatMarkers.limit).filter (fun j => decide (fatValue disk j = fatMarkers.free)) := rfl
  rw [same]
  omega

theorem getFreeCluster_found {s : Fs} {i : Nat} (found : firstFreeCluster s.disk clusterCount 0 = some i)
    (small : i < clusterCount) :
    getFreeCluster s = .ok (i, { s with disk := setFatValue s.disk i takenCluster }) := by
  unfold getFreeCluster
  rw [run_bind (show (get : Kernel Fs) s = .ok (s, s) from rfl), found]
  exact run_bind (setFat_run s small takenCluster)

theorem getFreeCluster_run {s : Fs} (volume : Volume s.disk chains lost) (room : 0 < lowFree s.disk) :
    ∃ i, getFreeCluster s = .ok (i, { s with disk := setFatValue s.disk i takenCluster }) ∧
      Volume (setFatValue s.disk i takenCluster) ([i] :: chains) lost ∧
      SameOn chains.flatten s.disk (setFatValue s.disk i takenCluster) := by
  obtain ⟨j, low, free⟩ := exists_free room
  have low : j < takenCluster := low
  have count : takenCluster < clusterCount := by decide
  obtain ⟨i, found, before, free⟩ :=
    firstFreeCluster_some clusterCount 0 j ⟨Nat.zero_le _, by omega⟩ free
  have small : i < clusterCount := by omega
  refine ⟨i, getFreeCluster_found found small, volume_take volume (by omega) free, ?_⟩
  refine sameOn_setFatValue small (volume_flatten_count volume) fun member => ?_
  exact (volume.ledger.free i small).mp free (List.mem_append_left _ member)

/-! ## Extending a chain -/

/-- A new cluster behind the last one of the first chain. -/
theorem extendChain_run {s : Fs} (front : List Nat) (p : Nat)
    (volume : Volume s.disk ((front ++ [p]) :: chains) lost)
    (room : 0 < lowFree s.disk) :
    ∃ i disk, getFreeCluster s = .ok (i, { s with disk := setFatValue s.disk i takenCluster }) ∧
      setFat p i { s with disk := setFatValue s.disk i takenCluster } =
        .ok ((), { s with disk := disk }) ∧
      Volume disk ((front ++ [p] ++ [i]) :: chains) lost ∧ SameOn chains.flatten s.disk disk ∧
      SameBytes s.disk disk ∧ lowFree disk + 1 = lowFree s.disk := by
  obtain ⟨i, run, taken, same⟩ := getFreeCluster_run volume room
  have last : p ∈ front ++ [p] := List.mem_append_right _ List.mem_cons_self
  have small := volume_count volume List.mem_cons_self last
  have fresh := volume_count taken List.mem_cons_self List.mem_cons_self
  have swapped := volume_perm taken (List.Perm.swap _ _ _)
  have joined : Volume (setFatValue (setFatValue s.disk i takenCluster) p i)
      ((front ++ [p] ++ [i]) :: chains) lost := by
    rw [List.append_assoc]
    exact volume_join swapped
  refine ⟨i, setFatValue (setFatValue s.disk i takenCluster) p i, run, setFat_run _ small i, joined,
    sameOn_trans (sameOn_subset same ?_) (sameOn_subset (sameOn_assign swapped last) ?_), ?_, ?_⟩
  · rw [List.flatten_cons]
    exact List.subset_append_right _ _
  · rw [List.flatten_cons]
    exact List.subset_append_right _ _
  · exact fun d cluster => (sameBytes_setFatValue small d cluster).trans
      (sameBytes_setFatValue fresh d cluster)
  · have before := lowFree_eq volume
    have after := lowFree_eq joined
    simp only [List.flatten_cons, List.length_append, List.length_cons, List.length_nil] at before after
    omega

/-- A new EOF cluster behind the last cluster of the first chain. -/
theorem closeChain_run {s : Fs} (front : List Nat) (p : Nat)
    (volume : Volume s.disk ((front ++ [p]) :: chains) lost)
    (room : 0 < lowFree s.disk) :
    ∃ i linked disk, getFreeCluster s =
        .ok (i, { s with disk := setFatValue s.disk i takenCluster }) ∧
      setFat p i { s with disk := setFatValue s.disk i takenCluster } =
        .ok ((), { s with disk := linked }) ∧
      setFat i eofCluster { s with disk := linked } = .ok ((), { s with disk := disk }) ∧
      Volume disk ((front ++ [p] ++ [i]) :: chains) lost ∧ Ends disk (front ++ [p] ++ [i]) ∧
      SameOn chains.flatten s.disk disk ∧ SameBytes s.disk disk ∧
      lowFree disk + 1 = lowFree s.disk := by
  obtain ⟨i, linked, take, link, volume', same, bytes, count⟩ := extendChain_run front p volume room
  have last : i ∈ (front ++ [p]) ++ [i] := List.mem_append_right _ List.mem_cons_self
  have small := volume_count volume' List.mem_cons_self last
  have marked := volume_mark volume'
  refine ⟨i, linked, setFatValue linked i eofCluster, take, link, setFat_run _ small _, marked, ?_,
    sameOn_trans same (sameOn_assign volume' last), ?_, ?_⟩
  · exact ⟨front ++ [p], i, rfl, by simp, fatValue_setFatValue_same volume'.mapped (by decide)⟩
  · exact fun d cluster => (sameBytes_setFatValue small d cluster).trans (bytes d cluster)
  · have before := lowFree_eq volume'
    have after := lowFree_eq marked
    omega

/-! ## Freeing a chain -/

/-- The walk frees the chain up to its marker, which it returns. -/
theorem freeClustersLoop_run {s : Fs} (bound : Nat) (front : List Nat) (marker : Nat)
    (enough : front.length < bound) (volume : Volume s.disk ((front ++ [marker]) :: chains) lost)
    (eof : fatValue s.disk marker = eofCluster) :
    ∃ disk, freeClustersLoop bound ((front ++ [marker]).headD 0) s =
        .ok (marker, { s with disk := disk }) ∧
      Volume disk ([marker] :: chains) lost ∧ SameOn chains.flatten s.disk disk ∧
      SameBytes s.disk disk ∧ fatValue disk marker = eofCluster := by
  obtain ⟨bound, rfl⟩ : ∃ b, bound = b + 1 := ⟨bound - 1, by omega⟩
  induction front generalizing s bound with
  | nil =>
    have small := volume_count volume List.mem_cons_self List.mem_cons_self
    refine ⟨s.disk, ?_, volume, sameOn_refl, fun _ _ => rfl, eof⟩
    show (fat marker s >>= _) = _
    rw [fat_run s small, eof]
    rfl
  | cons c rest ih =>
    have small := volume_count volume List.mem_cons_self List.mem_cons_self
    obtain ⟨next, tail, shape⟩ : ∃ next tail, rest ++ [marker] = next :: tail :=
      List.exists_cons_of_ne_nil (by simp)
    have link : fatValue s.disk c = next ∧ next ≠ eofCluster ∧ next ≠ freeCluster :=
      volume_link (by rw [List.cons_append, shape] at volume; exact volume)
    have freed := volume_free_head volume
    have notMarker : marker ≠ c := by
      have single := List.nodup_cons.mp (ledger_head_nodup volume.ledger)
      rintro rfl
      exact single.1 (List.mem_append_right _ List.mem_cons_self)
    have still : fatValue (setFatValue s.disk c freeCluster) marker = eofCluster := by
      rw [fatValue_setFatValue_other notMarker, eof]
    rw [List.length_cons] at enough
    obtain ⟨bound, rfl⟩ : ∃ b, bound = b + 1 := ⟨bound - 1, by omega⟩
    obtain ⟨disk, run, after, same, bytes, last⟩ := ih
      (s := { s with disk := setFatValue s.disk c freeCluster }) freed still bound (by omega)
    rw [shape, List.headD_cons] at run
    refine ⟨disk, ?_, after, sameOn_trans (sameOn_assign volume List.mem_cons_self) same, ?_, last⟩
    · show (fat c s >>= _) = _
      rw [fat_run s small, link.1]
      show (if next ≠ eofCluster ∧ next ≠ freeCluster then _ else _ : Kernel Nat) s = _
      rw [if_pos link.2]
      show (setFat c freeCluster s >>= _) = _
      rw [setFat_run s small]
      exact run
    · exact fun d cluster =>
        (bytes d cluster).trans (sameBytes_setFatValue small d cluster)

theorem freeAllOccupiedClusters_run {s : Fs} {first : Nat} (ends : Ends s.disk (first :: cells))
    (volume : Volume s.disk ((first :: cells) :: chains) lost) :
    ∃ disk, freeAllOccupiedClusters first s = .ok ((), { s with disk := disk }) ∧
      Volume disk ([first] :: chains) lost ∧ SameOn chains.flatten s.disk disk ∧
      SameBytes s.disk disk := by
  obtain ⟨front, marker, shape, nonempty, eof⟩ := ends
  obtain ⟨front, rfl⟩ : ∃ rest, front = first :: rest := by
    cases front with
    | nil => exact absurd rfl nonempty
    | cons c rest =>
      rw [List.cons_append] at shape
      exact ⟨rest, by rw [(List.cons.inj shape).1]⟩
  obtain rfl : cells = front ++ [marker] := (List.cons.inj shape).2
  have small := volume_count volume List.mem_cons_self List.mem_cons_self
  obtain ⟨next, tail, head⟩ : ∃ next tail, front ++ [marker] = next :: tail :=
    List.exists_cons_of_ne_nil (by simp)
  have link : fatValue s.disk first = next ∧ next ≠ eofCluster ∧ next ≠ freeCluster :=
    volume_link (by rw [← head]; exact volume)
  have detached : Volume s.disk ((front ++ [marker]) :: [first] :: chains) lost :=
    volume_perm (volume_split [first] _ volume) (List.Perm.swap _ _ _)
  have single := ledger_head_nodup detached.ledger
  have count : (front ++ [marker]).length ≤ takenCluster := by
    have room := lowFree_eq detached
    rw [List.flatten_cons, List.length_append, List.length_append] at room
    omega
  obtain ⟨disk, run, after, same, bytes, last⟩ := freeClustersLoop_run walkBound front marker
    (by rw [List.length_append] at count; unfold takenCluster at count; unfold walkBound; omega)
    detached eof
  have markerSmall := volume_count after List.mem_cons_self List.mem_cons_self
  refine ⟨setFatValue disk marker freeCluster, ?_, ?_, ?_, ?_⟩
  · show (fat first s >>= _) = _
    rw [fat_run s small, link.1]
    rw [head, List.headD_cons] at run
    show (freeClustersLoop walkBound next s >>= _) = _
    rw [run]
    exact setFat_run _ markerSmall _
  · exact volume_drop_nil (volume_free_head after)
  · have wider : SameOn ([first] :: chains).flatten s.disk (setFatValue disk marker freeCluster) :=
      sameOn_trans same (sameOn_assign after List.mem_cons_self)
    exact sameOn_subset wider fun c member => List.mem_cons_of_mem _ member
  · exact fun d cluster =>
      (sameBytes_setFatValue markerSmall d cluster).trans (bytes d cluster)

end Volume

end Delos.Invariants
