import Delos.Invariants.DirectorySaving
import Delos.Invariants.FileSystemRuns

/-!
# Saving and loading the directory

The two functions of vfs.cpp split the records over the clusters with separate loops.
Whatever the number of files, and although the last chunk may be longer than a cluster,
`load_root_folder` finds what `save_root_folder` has written, provided that cluster 0
is not marked as free. Cluster 0 is never handed out by `fs_init`; if it were marked as
free the directory would be linked to itself.
-/
namespace Delos.Guarantees
open Lib Source Invariants

/-- A root folder in the kernel heap; the one of `fs_init` has no array. -/
inductive InMemory (s : Fs) (others : List (Nat × Nat)) (rs : List Record) : Prop
  | array (files : Nat) (loaded : Loaded s others files rs)
  | empty (owned : Owned s.heap ((s.root, folderSize) :: others)) (folder : Folder s 0 [])
      (none : rs = [])

def saveAndLoad : Kernel Unit := do
  saveRootFolder
  loadRootFolder

/-- The same records are in memory afterwards, and there was no panic. -/
def Rebuilds (s : Fs) (others : List (Nat × Nat)) (rs : List Record) : Prop :=
  Completes saveAndLoad s fun _ s' => ∃ files, Loaded s' others files rs

section
variable {s : Fs} {others : List (Nat × Nat)} {rs : List Record}

theorem InMemory.folder (memory : InMemory s others rs) : ∃ files, Folder s files rs := by
  cases memory with
  | array files loaded => exact ⟨files, loaded.folder⟩
  | empty owned folder none =>
    subst none
    exact ⟨0, folder⟩

theorem InMemory.discards (memory : InMemory s others rs) (disk : ByteMemory) :
    Discards { s with disk := disk } others := by
  cases memory with
  | array files loaded => exact discards_parked (loaded.onDisk disk).parked
  | empty owned folder none =>
    obtain ⟨heap, run, owned', kept⟩ :=
      freeEmptyFolder_run (s := { s with disk := disk }) owned (folder.onDisk disk)
    refine ⟨heap, ?_, owned', kept⟩
    rw [doIf, if_pos (owned_nonzero owned List.mem_cons_self)]
    exact run

/-- The array lies in the kernel heap, so its size does not wrap around. -/
theorem InMemory.word (memory : InMemory s others rs) : rs.length < 2 ^ 27 := by
  cases memory with
  | array files loaded =>
    have records := loaded.records
    have low := records.low
    have high := records.high
    unfold fileRecordSize fsStartAddr at high
    omega
  | empty owned folder none =>
    rw [none]
    decide

theorem saved_loaded (memory : InMemory s others rs) (mapped : s.disk.origin ≤ fsStartAddr)
    (taken : fatValue s.disk 0 ≠ freeCluster)
    (room : existsNFreeClustersLoop s.disk (dirClusters rs.length) clusterCount 0 0 = true) :
    Rebuilds s others rs := by
  obtain ⟨files, folder⟩ := memory.folder
  have needed := dirClusters_div memory.word
  have all : dirClusters rs.length ≤ clusterCount := by
    apply Nat.le_trans (enough_freeClusters.mp room)
    exact Nat.le_trans (List.length_filter_le _ _) (Nat.le_of_eq List.length_range)
  unfold clusterCount at all
  obtain ⟨cells, disk, save, stored⟩ := saveRootFolder_stored folder (by omega) mapped taken room
  unfold Rebuilds saveAndLoad
  apply (meets_next save).mpr
  apply meets_mono (loadStored_run (memory.discards disk) stored (by omega) (by unfold walkBound; omega))
  rintro _ s' ⟨heap, root, files', rfl, loaded, _⟩
  exact ⟨files', loaded⟩

end

/-! ## Runs -/

theorem clearBoot_owned : Owned clearBoot.heap [] :=
  owned_heapInit (m := ⟨kernelHeap.addr, 0⟩) (Nat.le_refl _)

attribute [local irreducible] clearBoot fsInit initRootFolder

def ends {α : Type} : Except Stop α → Bool
  | .ok _ => true
  | .error _ => false

theorem ends_iff {α : Type} {x : Except Stop α} : ends x = true ↔ ∃ a, x = .ok a := by
  cases x <;> simp [ends]

/-- The three default files are saved and loaded. -/
theorem saved_loaded_defaults : ∃ s others rs, rs.length = 3 ∧ Rebuilds s others rs := by
  have loads : endsWith (fun s => ends (loadRootFolder s)) ((initRootFolder clearBoot).map Prod.snd) =
      true := by decide +kernel
  obtain ⟨res, s, run, loads⟩ := endsWith_run loads
  obtain ⟨p, load⟩ := ends_iff.mp loads
  obtain ⟨⟨others, owned⟩, mapped⟩ := boot_clear
  obtain ⟨dir, es, parked, catalog, _, few, _⟩ :=
    completes_result (fsInit_run owned mapped) (fsInit_clear.trans run)
  obtain ⟨heap, root, files, same, loaded, _⟩ := completes_result (loadCatalog_run parked catalog) load
  have length : (es.map Entry.record).length = 3 := by
    rw [List.length_map]
    exact few.count
  have disk : p.2.disk = s.disk := by rw [same]
  refine ⟨p.2, others, es.map Entry.record, length, saved_loaded (.array files loaded) ?_ ?_ ?_⟩
  · rw [disk]
    exact catalog.volume.mapped
  · rw [disk]
    intro free
    apply (catalog.volume.ledger.free 0 (by decide)).mp free
    simp
  · rw [disk, length, existsNFreeClusters_iff catalog.volume]
    exact Nat.le_trans (by decide) (Nat.le_add_left 2 _)

/-- The folder of `fs_init` before it is saved. -/
def emptyRoot : Kernel Unit := do
  let root ← kmalloc folderSize
  setRootPointer root
  setRootFileCount 0
  setRootFiles 0

theorem emptyRoot_run (s : Fs) (owned : Owned s.heap []) : Completes emptyRoot s fun _ s' =>
    InMemory s' [] [] ∧ s'.disk = s.disk := by
  unfold emptyRoot
  apply meets_call (completes_kmalloc owned (by decide))
  rintro root _ ⟨heap, rfl, ownedRoot, _⟩
  obtain ⟨counted, linked, count, link, ownedFolder, _, folder⟩ :=
    emptyFolder_run (s := { s with heap := heap, root := root }) ownedRoot
  rw [meets_next (show setRootPointer root { s with heap := heap } =
    .ok ((), { s with heap := heap, root := root }) from rfl), meets_next count]
  exact meets_run link ⟨.empty ownedFolder folder rfl, rfl⟩

def panics {α : Type} : Except Stop α → Bool
  | .error .panic => true
  | _ => false

theorem panics_not_rebuilds {s : Fs} {others : List (Nat × Nat)} {rs : List Record}
    (panicked : panics (saveAndLoad s) = true) : ¬ Rebuilds s others rs := by
  intro rebuilds
  unfold Rebuilds Completes Meets at rebuilds
  cases run : saveAndLoad s with
  | ok p => simp [panics, run] at panicked
  | error e =>
    rw [run] at rebuilds panicked
    dsimp only at rebuilds
    rw [rebuilds] at panicked
    exact absurd panicked (by decide)

/-- With cluster 0 marked as free the directory is linked to itself. -/
theorem saved_loaded_free_first : ¬ ∀ s others rs, InMemory s others rs → s.disk.origin ≤ fsStartAddr →
    existsNFreeClustersLoop s.disk (dirClusters rs.length) clusterCount 0 0 = true →
      Rebuilds s others rs := by
  intro claim
  have stops : endsWith (fun s => panics (saveAndLoad s)) ((emptyRoot clearBoot).map Prod.snd) = true := by
    decide +kernel
  obtain ⟨_, s, run, panicked⟩ := endsWith_run stops
  obtain ⟨memory, disk⟩ := completes_result (emptyRoot_run clearBoot clearBoot_owned) run
  apply panics_not_rebuilds panicked
  apply claim s [] [] memory
  · rw [disk]
    exact boot_clear.disk
  · rw [disk]
    decide +kernel

end Delos.Guarantees
