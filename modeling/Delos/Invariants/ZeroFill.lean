import Delos.Invariants.FatOperations
import Delos.Source.VfsOperations

/-!
# Filling a disk with zeros

Appending zero bytes to a disk whose free clusters were never written only changes
the FAT. The changes are made to the number that the FAT is, in blocks of clusters and
with one scan of the table, so that a disk can be filled in a closed run.
-/
namespace Delos.Invariants
open Lib Source

section Blank
variable {m : ByteMemory} {k : Nat}

/-- No byte from the offset `k` on was written. -/
def Blank (m : ByteMemory) (k : Nat) : Prop := m.image >>> (8 * k) = 0

instance (m : ByteMemory) (k : Nat) : Decidable (Blank m k) :=
  inferInstanceAs (Decidable (m.image >>> (8 * k) = 0))

theorem blank_later {j : Nat} (blank : Blank m k) (later : k ≤ j) : Blank m j := by
  unfold Blank at blank ⊢
  rw [show 8 * j = 8 * k + 8 * (j - k) by omega, Nat.shiftRight_add, blank, Nat.zero_shiftRight]

theorem writeByte_blank (blank : Blank m k) : m.writeByte (m.origin + k) 0 = m := by
  have above : ¬ m.origin + k < m.origin := by omega
  have zero : m.readByte (m.origin + k) = 0 := by
    rw [ByteMemory.readByte, if_neg above, Nat.add_sub_cancel_left, blank]
    rfl
  rw [ByteMemory.writeByte, if_neg above, zero]
  simp

theorem writeBytes_blank (n : Nat) (blank : Blank m k) :
    m.writeBytes (m.origin + k) (List.replicate n 0) = m := by
  induction n generalizing k with
  | zero => rfl
  | succ n ih =>
    rw [List.replicate_succ, ByteMemory.writeBytes, writeByte_blank blank, Nat.add_assoc]
    exact ih (blank_later blank (Nat.le_add_right k 1))

/-- A byte in front of the offset. -/
theorem blank_writeByte {a : Nat} (v : UInt8) (blank : Blank m k) (before : a < m.origin + k) :
    Blank (m.writeByte a v) k := by
  unfold Blank ByteMemory.writeByte at *
  split
  · exact blank
  · have bound := (m.readByte a ^^^ v).toNat_lt
    have small : (m.readByte a ^^^ v).toNat <<< (8 * (a - m.origin)) < 2 ^ (8 * k) := by
      rw [Nat.shiftLeft_eq]
      have room : 2 ^ 8 * 2 ^ (8 * (a - m.origin)) ≤ 2 ^ (8 * k) := by
        rw [← Nat.pow_add]
        exact Nat.pow_le_pow_right (by decide) (by omega)
      exact Nat.lt_of_lt_of_le (Nat.mul_lt_mul_of_pos_right bound (Nat.two_pow_pos _)) room
    simp only [Nat.shiftRight_xor_distrib, blank]
    rw [Nat.shiftRight_eq_div_pow, Nat.div_eq_of_lt small, Nat.xor_zero]

theorem blank_writeBytes (bytes : List UInt8) {a : Nat} (blank : Blank m k)
    (before : a + bytes.length ≤ m.origin + k) : Blank (m.writeBytes a bytes) k := by
  induction bytes generalizing m a with
  | nil => exact blank
  | cons v bytes ih =>
    rw [List.length_cons] at before
    rw [ByteMemory.writeBytes]
    apply ih (blank_writeByte v blank (by omega))
    rw [ByteMemory.origin_writeByte]
    omega

end Blank

section
variable {disk : ByteMemory} {left i c : Nat}

/-- No cluster in front of this one is free. -/
def TakenBelow (disk : ByteMemory) (c : Nat) : Prop := ∀ j < c, fatValue disk j ≠ freeCluster

/-- A search may start behind entries that are not free. -/
theorem firstFreeCluster_skip (skipped : Nat)
    (taken : ∀ j, i ≤ j → j < i + skipped → fatValue disk j ≠ freeCluster) :
    firstFreeCluster disk (skipped + left) i = firstFreeCluster disk left (i + skipped) := by
  induction skipped generalizing i with
  | zero => rw [Nat.zero_add, Nat.add_zero]
  | succ skipped ih =>
    rw [Nat.add_right_comm, firstFreeCluster, if_neg (taken i (Nat.le_refl i) (by omega))]
    rw [ih fun j low high => taken j (by omega) (by omega)]
    congr 1
    omega

theorem takenBelow_found (found : firstFreeCluster disk left 0 = some c) : TakenBelow disk c := by
  have general : ∀ left i, firstFreeCluster disk left i = some c →
      ∀ j, i ≤ j → j < c → fatValue disk j ≠ freeCluster := by
    intro left
    induction left with
    | zero => intro i found; cases found
    | succ left ih =>
      intro i found j low high
      rw [firstFreeCluster] at found
      by_cases here : fatValue disk i = freeCluster
      · rw [if_pos here] at found
        obtain rfl := Option.some.inj found
        omega
      · rw [if_neg here] at found
        by_cases same : j = i
        · rw [same]
          exact here
        · exact ih (i + 1) found j (by omega) high
  exact fun j high => general left 0 found j (Nat.zero_le j) high

theorem getFreeCluster_lowest {s : Fs} (below : TakenBelow s.disk c) (inside : c < clusterCount)
    (free : fatValue s.disk c = freeCluster) :
    getFreeCluster s = .ok (c, { s with disk := setFatValue s.disk c takenCluster }) := by
  have skip : firstFreeCluster s.disk (c + (clusterCount - c)) 0 =
      firstFreeCluster s.disk (clusterCount - c) (0 + c) :=
    firstFreeCluster_skip c fun j _ high => below j (by omega)
  obtain ⟨rest, room⟩ : ∃ rest, clusterCount - c = rest + 1 := ⟨clusterCount - c - 1, by omega⟩
  rw [Nat.add_sub_cancel' (by omega), Nat.zero_add, room, firstFreeCluster, if_pos free] at skip
  exact getFreeCluster_found skip inside

/-- Both entries are given a value that does not say free. -/
theorem takenBelow_link {p : Nat} (mapped : disk.origin ≤ fsStartAddr) (below : TakenBelow disk c)
    (small : c < freeCluster) :
    TakenBelow (setFatValue (setFatValue disk c takenCluster) p c) (c + 1) := by
  intro j near
  by_cases linked : j = p
  · rw [linked, fatValue_setFatValue_same (by rwa [origin_setFatValue])
      (by unfold freeCluster at small; omega)]
    exact Nat.ne_of_lt small
  · rw [fatValue_setFatValue_other linked]
    by_cases taken : j = c
    · rw [taken, fatValue_setFatValue_same mapped (by decide)]
      decide
    · rw [fatValue_setFatValue_other taken]
      exact below j (by omega)

theorem blank_setFatValue {k v : Nat} (entry : i < clusterCount) (mapped : disk.origin ≤ fsStartAddr)
    (blank : Blank disk k) (table : clusterStartAddr ≤ disk.origin + k) :
    Blank (setFatValue disk i v) k := by
  apply blank_writeBytes _ blank
  rw [ByteMemory.length_leBytes]
  unfold clusterStartAddr at table
  unfold fatEntrySize at *
  omega

end

/-! ## Blocks of clusters -/

/-- Clusters `c`, `c + 1`, ... taken and linked behind `prev`. -/
def linkRun : Nat → Nat → Nat → ByteMemory → ByteMemory
  | 0, _, _, disk => disk
  | left + 1, prev, c, disk =>
    linkRun left c (c + 1) (setFatValue (setFatValue disk c takenCluster) prev c)

theorem origin_linkRun (left prev c : Nat) (disk : ByteMemory) :
    (linkRun left prev c disk).origin = disk.origin := by
  induction left generalizing prev c disk with
  | zero => rfl
  | succ left ih => rw [linkRun, ih, origin_setFatValue, origin_setFatValue]

def freeRun (disk : ByteMemory) : Nat → Nat → Bool
  | 0, _ => true
  | left + 1, c => decide (fatValue disk c = freeCluster) && freeRun disk left (c + 1)

/-! ## The table as one number -/

section
variable {n left prev c i v image freeClusters : Nat}

def entryAt (image i : Nat) : Nat := (image >>> (16 * i)) % 0x1000

def putEntry (i v image : Nat) : Nat :=
  let word := (image >>> (16 * i)) % 0x10000
  image ^^^ ((word ^^^ (word / 0x1000 * 0x1000 + v % 0x1000)) <<< (16 * i))

def linkEntries : Nat → Nat → Nat → Nat → Nat
  | 0, _, _, image => image
  | left + 1, prev, c, image => linkEntries left c (c + 1) (putEntry prev c (putEntry c takenCluster image))

def freeEntries (image : Nat) : Nat → Nat → Bool
  | 0, _ => true
  | left + 1, c => decide (entryAt image c = freeCluster) && freeEntries image left (c + 1)

def firstFreeEntry (image : Nat) : Nat → Nat → Option Nat
  | 0, _ => none
  | left + 1, i => if entryAt image i = freeCluster then some i else firstFreeEntry image left (i + 1)

def enoughFreeEntries (image n : Nat) : Nat → Nat → Nat → Bool
  | 0, _, _ => false
  | left + 1, i, freeClusters =>
    let freeClusters := freeClusters + (if entryAt image i = freeCluster then 1 else 0)
    if freeClusters ≥ n then true else enoughFreeEntries image n left (i + 1) freeClusters

theorem entry_word (i image : Nat) : ByteMemory.leValue ((⟨fsStartAddr, image⟩ : ByteMemory).readBytes (fsStartAddr + fatEntrySize * i) 2) =
    (image >>> (16 * i)) % 0x10000 := by
  have place : 8 * (fsStartAddr + fatEntrySize * i - fsStartAddr) = 16 * i := by
    unfold fatEntrySize
    omega
  rw [ByteMemory.leValue_readBytes 2 ⟨fsStartAddr, image⟩ _ (Nat.le_add_right _ _)]
  dsimp only
  rw [place, show 256 ^ 2 = 0x10000 from rfl]

theorem fatValue_entry : fatValue ⟨fsStartAddr, image⟩ i = entryAt image i := by
  rw [fatValue, entry_word, entryAt, Nat.mod_mod_of_dvd _ (by decide)]

theorem setFatValue_entry : setFatValue ⟨fsStartAddr, image⟩ i v = ⟨fsStartAddr, putEntry i v image⟩ := by
  have place : 8 * (fsStartAddr + fatEntrySize * i - fsStartAddr) = 16 * i := by
    unfold fatEntrySize
    omega
  have word : (image >>> (16 * i)) % 0x10000 / 0x1000 * 0x1000 + v % 0x1000 < 256 ^ 2 := by omega
  rw [setFatValue, entry_word, ByteMemory.writeBytes_word 2 ⟨fsStartAddr, image⟩ _ _ (Nat.le_add_right _ _), entry_word,
    Nat.mod_eq_of_lt word]
  dsimp only
  rw [place]
  rfl

theorem linkRun_entries (left prev c image : Nat) :
    linkRun left prev c ⟨fsStartAddr, image⟩ = ⟨fsStartAddr, linkEntries left prev c image⟩ := by
  induction left generalizing prev c image with
  | zero => rfl
  | succ left ih => rw [linkRun, setFatValue_entry, setFatValue_entry, ih, linkEntries]

theorem freeRun_entries : freeRun ⟨fsStartAddr, image⟩ left c = freeEntries image left c := by
  induction left generalizing c with
  | zero => rfl
  | succ left ih => rw [freeRun, freeEntries, fatValue_entry, ih]

theorem firstFreeCluster_entries : firstFreeCluster ⟨fsStartAddr, image⟩ left i = firstFreeEntry image left i := by
  induction left generalizing i with
  | zero => rfl
  | succ left ih => rw [firstFreeCluster, firstFreeEntry, fatValue_entry, ih]

theorem existsNFreeClusters_entries :
    existsNFreeClustersLoop ⟨fsStartAddr, image⟩ n left i freeClusters = enoughFreeEntries image n left i freeClusters := by
  induction left generalizing i freeClusters with
  | zero => rfl
  | succ left ih =>
    rw [existsNFreeClustersLoop, enoughFreeEntries, fatValue_entry]
    simp only [ih]

/-- `get_free_cluster` on the number. -/
def takeFreeEntry : Kernel Nat := do
  let s ← get
  match firstFreeEntry s.disk.image clusterCount 0 with
  | some i => do
    setFat i takenCluster
    pure i
  | none => do
    panicWith "ERR: all clusters are full"
    pure takenCluster

theorem getFreeCluster_entry {s : Fs} (mapped : s.disk.origin = fsStartAddr) : getFreeCluster s = takeFreeEntry s := by
  have same : firstFreeCluster s.disk clusterCount 0 = firstFreeEntry s.disk.image clusterCount 0 := by
    rw [← firstFreeCluster_entries, ← mapped]
  show (match firstFreeCluster s.disk clusterCount 0 with
    | some i => do
      setFat i takenCluster
      pure i
    | none => do
      panicWith "ERR: all clusters are full"
      pure takenCluster : Kernel Nat) s = _
  rw [same]
  rfl

def quickFreeCluster : Kernel Nat := fun s =>
  if s.disk.origin = fsStartAddr then takeFreeEntry s else getFreeCluster s

theorem getFreeCluster_quick : getFreeCluster = quickFreeCluster := by
  funext s
  unfold quickFreeCluster
  split
  next mapped => exact getFreeCluster_entry mapped
  next => rfl

def quickExistsNFree (n : Nat) : Kernel Bool := fun s =>
  if s.disk.origin = fsStartAddr then .ok (enoughFreeEntries s.disk.image n clusterCount 0 0, s)
  else existsNFreeClusters n s

theorem existsNFreeClusters_quick (n : Nat) : existsNFreeClusters n = quickExistsNFree n := by
  funext s
  unfold quickExistsNFree
  split
  next mapped =>
    rw [← existsNFreeClusters_entries, ← mapped]
    rfl
  next => rfl

end

def zeros (n : Nat) : Buffer := .user (List.replicate n 0)

theorem readBuffer_zeros (n offset size : Nat) :
    readBuffer (zeros n) offset size = pure (List.replicate (min size (n - offset)) 0) := by
  simp [readBuffer, zeros]

/-- What the clusters from `c` on are before a block of them is taken. -/
structure Untaken (disk : ByteMemory) (c : Nat) : Prop where
  mapped : disk.origin ≤ fsStartAddr
  below : TakenBelow disk c
  blank : Blank disk (clusterAddr c - disk.origin)

theorem freeRun_setFatValue {disk : ByteMemory} {i v left c : Nat} (before : i < c) :
    freeRun (setFatValue disk i v) left c = freeRun disk left c := by
  induction left generalizing c with
  | zero => rfl
  | succ left ih =>
    rw [freeRun, freeRun, fatValue_setFatValue_other (by omega), ih (by omega)]

section
variable {n left prev c stored : Nat} {s : Fs}

theorem zeroCluster_run {disk : ByteMemory} (count : Nat) (inside : c < clusterCount)
    (mapped : disk.origin ≤ fsStartAddr) (blank : Blank disk (clusterAddr c - disk.origin))
    (fits : count ≤ clusterSize) :
    writeMemory (clusterAddr c) (List.replicate count 0) { s with disk := disk } =
      .ok ((), { s with disk := disk }) := by
  have reach : disk.origin ≤ clusterAddr c := by
    rw [clusterAddr_eq inside]
    omega
  have whole : 0 + (List.replicate count (0 : UInt8)).length ≤ clusterSize := by
    rwa [List.length_replicate, Nat.zero_add]
  have store := writeCluster_run { s with disk := disk } _ inside whole
  have unchanged := writeBytes_blank count blank
  rw [Nat.add_sub_cancel' reach] at unchanged
  rw [Nat.add_zero] at store
  dsimp only at store
  rwa [unchanged] at store

theorem untaken_link (untaken : Untaken s.disk c) (inTable : prev < clusterCount) (small : c < freeCluster) :
    Untaken (setFatValue (setFatValue s.disk c takenCluster) prev c) (c + 1) ∧
      Blank (setFatValue (setFatValue s.disk c takenCluster) prev c) (clusterAddr c - s.disk.origin) := by
  have count : freeCluster < clusterCount := by decide
  have here := clusterAddr_eq (c := c) (by omega)
  have next := clusterAddr_eq (c := c + 1) (by omega)
  have mapped := untaken.mapped
  have start : clusterStartAddr = fsStartAddr + 8190 := rfl
  have blank : Blank (setFatValue (setFatValue s.disk c takenCluster) prev c)
      (clusterAddr c - s.disk.origin) := by
    apply blank_setFatValue inTable (by rwa [origin_setFatValue])
    · exact blank_setFatValue (by omega) mapped untaken.blank (by omega)
    · rw [origin_setFatValue]
      omega
  refine ⟨⟨by rwa [origin_setFatValue, origin_setFatValue], ?_, ?_⟩, blank⟩
  · exact takenBelow_link mapped untaken.below small
  · rw [origin_setFatValue, origin_setFatValue]
    exact blank_later blank (by omega)

/-- A block of clusters that are all free. -/
theorem linkRun_run (n stored : Nat) (untaken : Untaken s.disk c) (before : prev < c)
    (free : freeRun s.disk left c = true) (fits : c + left ≤ freeCluster) :
    appendClustersLoop (zeros n) left prev stored s =
        .ok ((if left = 0 then prev else c + left - 1, stored + left * clusterSize),
          { s with disk := linkRun left prev c s.disk }) ∧
      TakenBelow (linkRun left prev c s.disk) (c + left) := by
  induction left generalizing s prev c stored with
  | zero =>
    rw [Nat.zero_mul]
    exact ⟨rfl, untaken.below⟩
  | succ left ih =>
    rw [freeRun, Bool.and_eq_true, decide_eq_true_eq] at free
    obtain ⟨here, later⟩ := free
    have count : freeCluster < clusterCount := by decide
    have inTable : prev < clusterCount := by omega
    obtain ⟨after, blank⟩ := untaken_link untaken inTable (by omega)
    have origin : (setFatValue (setFatValue s.disk c takenCluster) prev c).origin = s.disk.origin := by
      rw [origin_setFatValue, origin_setFatValue]
    have store := zeroCluster_run (s := s) (c := c) (min clusterSize (n - stored)) (by omega)
      after.mapped (by rwa [origin]) (Nat.min_le_left _ _)
    rw [appendClustersLoop, run_bind (getFreeCluster_lowest untaken.below (by omega) here)]
    rw [run_bind (setFat_run { s with disk := setFatValue s.disk c takenCluster } inTable c)]
    rw [readBuffer_zeros, run_bind rfl, run_bind store]
    have still : freeRun (setFatValue (setFatValue s.disk c takenCluster) prev c) left (c + 1) = true := by
      rw [freeRun_setFatValue (by omega), freeRun_setFatValue (by omega), later]
    have last : (if left = 0 then c else c + 1 + left - 1) = c + (left + 1) - 1 := by
      split <;> omega
    have total : stored + clusterSize + left * clusterSize = stored + (left + 1) * clusterSize := by
      rw [Nat.succ_mul]
      omega
    generalize filled : setFatValue (setFatValue s.disk c takenCluster) prev c = disk at after still ⊢
    obtain ⟨run, below⟩ := ih (s := { s with disk := disk }) (stored + clusterSize) after (Nat.lt_succ_self c) still (by omega)
    rw [run, last, total, if_neg (Nat.succ_ne_zero left), linkRun, filled]
    refine ⟨rfl, ?_⟩
    rw [Nat.add_right_comm] at below
    exact below

/-- The loop of the source, where the blocks do not apply. -/
def slowAppend (n left prev stored : Nat) : Kernel (Nat × Nat) :=
  appendClustersLoop (zeros n) left prev stored

/-- The loop in blocks of at most 64 clusters; `c` is the lowest free one. The
window is named anew behind every block, so that its origin stays at hand. -/
def zeroBlocks (n : Nat) : Nat → Nat → Nat → Nat → Nat → Kernel (Nat × Nat)
  | 0, left, prev, _, stored => slowAppend n left prev stored
  | blocks + 1, left, prev, c, stored => fun s =>
    let size := min left 64
    if prev < c ∧ 0 < size ∧ c + size ≤ freeCluster ∧ s.disk.origin = fsStartAddr ∧
        Blank s.disk (clusterAddr c - s.disk.origin) ∧ freeEntries s.disk.image size c = true then
      zeroBlocks n blocks (left - size) (c + size - 1) (c + size) (stored + size * clusterSize)
        { s with disk := ⟨fsStartAddr, linkEntries size prev c s.disk.image⟩ }
    else slowAppend n left prev stored s

theorem appendClustersLoop_add (buffer : Buffer) (first left prev stored : Nat) :
    appendClustersLoop buffer (first + left) prev stored = (do
      let p ← appendClustersLoop buffer first prev stored
      appendClustersLoop buffer left p.1 p.2) := by
  induction first generalizing prev stored with
  | zero =>
    rw [Nat.zero_add, appendClustersLoop]
    rfl
  | succ first ih =>
    rw [Nat.add_right_comm, appendClustersLoop, appendClustersLoop]
    simp only [ih, bind_assoc]

theorem zeroBlocks_run (blocks : Nat) (below : TakenBelow s.disk c) :
    zeroBlocks n blocks left prev c stored s = appendClustersLoop (zeros n) left prev stored s := by
  induction blocks generalizing s left prev c stored with
  | zero => rfl
  | succ blocks ih =>
    rw [zeroBlocks]
    dsimp only
    split
    next checked =>
      obtain ⟨before, positive, fits, mapped, blank, free⟩ := checked
      have untaken : Untaken s.disk c := ⟨Nat.le_of_eq mapped, below, blank⟩
      have disk : s.disk = ⟨fsStartAddr, s.disk.image⟩ := by rw [← mapped]
      rw [← freeRun_entries, ← disk] at free
      obtain ⟨run, after⟩ := linkRun_run n stored untaken before free fits
      have same := linkRun_entries (min left 64) prev c s.disk.image
      rw [← disk] at same
      rw [← same, ih (s := { s with disk := linkRun (min left 64) prev c s.disk }) after]
      rw [if_neg (Nat.ne_of_gt positive)] at run
      have whole := appendClustersLoop_add (zeros n) (min left 64) (left - min left 64) prev stored
      rw [Nat.add_sub_cancel' (Nat.min_le_left _ _)] at whole
      rw [whole, run_bind run]
    next => rfl

/-- The number of blocks that cover the table. -/
def tableBlocks : Nat := 64

def fromLowest (n left prev stored : Nat) : Kernel (Nat × Nat) := fun s =>
  match firstFreeCluster s.disk clusterCount 0 with
  | some c => zeroBlocks n tableBlocks left prev c stored s
  | none => slowAppend n left prev stored s

/-- One cluster, then blocks from the lowest free one on. -/
def fastAppend (n left prev stored : Nat) : Kernel (Nat × Nat) := do
  let p ← slowAppend n (min left 1) prev stored
  fromLowest n (left - min left 1) p.1 p.2

theorem fromLowest_eq (n left prev stored : Nat) :
    fromLowest n left prev stored = slowAppend n left prev stored := by
  funext s
  unfold fromLowest
  split
  next c found => exact zeroBlocks_run tableBlocks (takenBelow_found found)
  next => rfl

theorem appendClustersLoop_zeros (n left prev stored : Nat) :
    appendClustersLoop (zeros n) left prev stored = fastAppend n left prev stored := by
  have whole := appendClustersLoop_add (zeros n) (min left 1) (left - min left 1) prev stored
  rw [Nat.add_sub_cancel' (Nat.min_le_left _ _)] at whole
  simp only [fastAppend, fromLowest_eq]
  exact whole

end

end Delos.Invariants
