import Delos.Guarantees.Writing
import Delos.Invariants.ZeroFill

/-!
# What touch reports

With room for the file and the longer directory the result is the truth. The
check for two free clusters is in `create_file`, which cannot report it: on a
disk with fewer `touch` returns 0 and creates nothing.
-/
namespace Delos.Guarantees
open Lib Source Invariants

/-- The directory is the old one and one new empty file on two clusters that were free. -/
def CreatedLast (disk disk' : ByteMemory) (filename : CString) : Prop :=
  ∃ r start eof, dirEntries disk' = dirEntries disk ++ [r] ∧
    r.name = (normalizeFilename filename).bytes ∧ r.size = 0 ∧ r.isOpen = false ∧ r.isSystem = false ∧
    chainOf disk' r.startCluster = [start, eof] ∧ start ≠ eof ∧
    fatValue disk start = freeCluster ∧ fatValue disk eof = freeCluster

/-- The result 0 is for a new file, any other one for an unchanged disk. -/
def TouchTruthful (disk disk' : ByteMemory) (filename : CString) (res : Nat) : Prop :=
  (res = 0 → CreatedLast disk disk' filename) ∧ (res ≠ 0 → disk' = disk)

section
variable {start s : Fs} {ops : List FileOperation} {filename : CString}

theorem touch_truthful (boot : Boot start) (run : Reaches (fun disk op => op.Ready disk) start ops s)
    (room : (∀ r ∈ dirEntries s.disk, r.name ≠ (normalizeFilename filename).bytes) →
      CreateRoom (lowFree s.disk) (dirEntries s.disk).length) :
    Completes (touch filename) s fun res s' => TouchTruthful s.disk s'.disk filename res := by
  obtain ⟨others, dir, es, lost, parked, catalog⟩ := reaches_catalog boot run
  have entries := catalog_entries catalog
  rw [entries, List.length_map] at room
  have touched := touch_placed filename parked catalog fun missing =>
    room ((position_entries _).mp missing)
  apply meets_mono touched
  rintro res s' ⟨dir', es', _, catalog', _, _, result, _, same, fresh⟩
  cases result with
  | present found => exact ⟨fun zero => absurd zero (by decide), fun _ => (same rfl).1⟩
  | @created missing first eof r new =>
    refine ⟨fun _ => ⟨r, first, eof, ?_, new.name, new.size, new.closed, ?_⟩, fun other => absurd rfl other⟩
    · rw [entries, catalog_entries catalog', List.map_append]
      rfl
    · have last : Entry.mk r [first, eof] ∈ es ++ [Entry.mk r [first, eof]] :=
        List.mem_append_right _ List.mem_cons_self
      have chains := (List.nodup_append.mp catalog'.volume.ledger.apart).1
      have apart := (List.nodup_flatten.mp chains).1 [first, eof]
        (List.mem_cons_of_mem _ (List.mem_map.mpr ⟨_, last, rfl⟩))
      obtain old | ⟨user, free⟩ := fresh _ last
      · exact absurd new.name (position_none missing _ old)
      · refine ⟨user, catalog_file catalog' last, ?_, free first (by simp), free eof (by simp)⟩
        simpa using apart

end

/-- A new file on the disk that `fs_init` leaves. -/
theorem touch_truthful_new : ∃ s, Completes (touch fileA) s fun res s' =>
    TouchTruthful s.disk s'.disk fileA res := by
  have holds : endsWith (fun s => decide (CreateRoom (lowFree s.disk) (dirEntries s.disk).length))
      (clearRun []) = true := by
    rw [clearRun_ready]
    decide +kernel
  obtain ⟨s, run, room⟩ := endsWith_iff.mp holds
  exact ⟨s, touch_truthful boot_clear (clearRun_init run) fun _ => of_decide_eq_true room⟩

/-! ## A full disk -/

/-- README.md takes all clusters but the last one of the table. -/
def fullDisk : List FileOperation := [.write readmeName (List.replicate 261114 0) 199]

theorem fullDisk_touch : endsWith (fun s => endsWith (fun p => decide (p.1 = 0) &&
    (dirEntries p.2.disk).all fun r => decide (r.name ≠ (normalizeFilename fileA).bytes)) (touch fileA s))
      (clearRun fullDisk) = true := by
  have buffer : Buffer.user (List.replicate 261114 0) = zeros 261114 := rfl
  simp only [fullDisk, clearRun_ready, runAll, FileOperation.run, write, touch, createFile, List.length_replicate]
  simp only [appendData, buffer, readBuffer_zeros, appendClustersLoop_zeros, getFreeCluster_quick, existsNFreeClusters_quick]
  decide +kernel

/-- `touch` returns 0 and the name is not in the directory. -/
theorem touch_truthful_full : ¬ ∀ start s ops filename res s', Boot start →
    Reaches (fun _ _ => True) start ops s → touch filename s = .ok (res, s') →
      TouchTruthful s.disk s'.disk filename res := by
  intro claim
  obtain ⟨s, run, found⟩ := endsWith_iff.mp fullDisk_touch
  obtain ⟨⟨res, s'⟩, step, holds⟩ := endsWith_iff.mp found
  obtain ⟨zero, missing⟩ := (Bool.and_eq_true _ _).mp holds
  obtain ⟨r, _, _, entries, named, _⟩ :=
    (claim clearBoot s fullDisk fileA res s' boot_clear (clearRun_reaches run) step).1 (of_decide_eq_true zero)
  have inside : r ∈ dirEntries s'.disk := by
    rw [entries]
    exact List.mem_append_right _ List.mem_cons_self
  exact of_decide_eq_true (List.all_eq_true.mp missing r inside) named

end Delos.Guarantees
