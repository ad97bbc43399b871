import Delos.Invariants.FileSystemRuns

/-!
# Files that an operation is not about

In every run of ready operations each step leaves the record and the bytes of
every other file as they were. The directory is written to freshly chosen
clusters each time; a seventh record does not fit the last of them and is
written over the first bytes of the file behind it.
-/
namespace Delos.Guarantees
open Lib Source Invariants

/-- Every file with another name has the same record and the same contents. -/
def OthersUntouched (target : List UInt8) (disk disk' : ByteMemory) : Prop :=
  ∀ g ∈ dirEntries disk, g.name ≠ target → g ∈ dirEntries disk' ∧ contents disk' g = contents disk g

section
variable {disk disk' : ByteMemory} {dir dir' lost lost' : List Nat} {es es' : List Entry}
  {target : List UInt8}

theorem untouched_of_undisturbed (before : Catalog disk dir es lost)
    (after : Catalog disk' dir' es' lost') (same : Undisturbed target disk disk' es es') :
    OthersUntouched target disk disk' := by
  intro g inside other
  rw [catalog_entries before] at inside
  obtain ⟨e, member, rfl⟩ := List.mem_map.mp inside
  obtain ⟨kept, sameCells⟩ := same e member other
  constructor
  · rw [catalog_entries after]
    exact List.mem_map.mpr ⟨e, kept, rfl⟩
  · have bytes : dataBytes disk' e.data = dataBytes disk e.data := dataBytes_congr fun c inside =>
      sameCells.bytes c (List.dropLast_subset _ inside)
    rw [catalog_contents after kept, catalog_contents before member, bytes]

end

/-! ## The guarantee -/

/-- A ready operation in a state that ready operations have reached. -/
theorem file_isolation {start s s' : Fs} {ops : List FileOperation} {res : Nat} (boot : Boot start)
    (run : Reaches (fun disk op => op.Ready disk) start ops s) (op : FileOperation)
    (ready : op.Ready s.disk) (step : op.run s = .ok (res, s')) :
    OthersUntouched op.target.bytes s.disk s'.disk := by
  obtain ⟨others, dir, es, lost, parked, catalog⟩ := reaches_catalog boot run
  obtain ⟨dir', es', lost', _, catalog', _, same, _⟩ :=
    completes_result (operation_run op parked catalog ready) step
  exact untouched_of_undisturbed catalog catalog' same

/-- Opening README.md right after `fs_init`. -/
theorem file_isolation_open : ∃ s s' res, FileOperation.run (.openFile readmeName) s = .ok (res, s') ∧
    OthersUntouched readmeName.bytes s.disk s'.disk := by
  obtain ⟨s, s', res, before, step⟩ := clear_step fun disk op => op.Ready disk
  have same := file_isolation boot_clear before (.openFile readmeName) trivial step
  rw [FileOperation.target, normalizeFilename_of_short (by decide)] at same
  exact ⟨s, s', res, step, same⟩

/-- Six files, the fourth of them with eleven bytes. -/
def sixFiles : List FileOperation :=
  [.rm primesName, .touch ⟨textBytes "a", plain_a⟩, .touch ⟨textBytes "b", plain_b⟩,
    .touch ⟨textBytes "c", plain_c⟩, .touch ⟨textBytes "d", plain_d⟩,
    .write ⟨textBytes "b", plain_b⟩ (textBytes "hello world") 0]

def seventhFile : FileOperation := .touch ⟨textBytes "e", plain_e⟩

/-- Creating a seventh file overwrites the contents of another one. -/
theorem file_isolation_seventh_file : ¬ ∀ start s s' ops res op, Boot start →
    Reaches (fun _ _ => True) start ops s → FileOperation.run op s = .ok (res, s') →
      OthersUntouched op.target.bytes s.disk s'.disk := by
  intro claim
  have broken : endsWith (fun s => endsWith (fun s' => (dirEntries s.disk).any fun g =>
      decide (g.name ≠ seventhFile.target.bytes ∧ contents s'.disk g ≠ contents s.disk g))
        ((seventhFile.run s).map Prod.snd)) (clearRun sixFiles) = true := by
    rw [clearRun_ready]
    decide +kernel
  obtain ⟨s, run, changed⟩ := endsWith_iff.mp broken
  obtain ⟨res, s', step, found⟩ := endsWith_run changed
  obtain ⟨g, inside, differs⟩ := List.any_eq_true.mp found
  obtain ⟨other, differs⟩ := of_decide_eq_true differs
  have same := claim clearBoot s s' sixFiles res seventhFile boot_clear (clearRun_reaches run) step
  exact differs (same g inside other).2

end Delos.Guarantees
