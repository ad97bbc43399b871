import Delos.Invariants.CopySizes
import Delos.Invariants.FileSystemRuns

/-!
# What a copy leaves

`cp` tests the names and the source before it does anything; then nothing has changed.
A system file as the destination and a disk that is too full are not tested there: `rm`
and `touch` were called by then and their results dropped. A copy that is made gets the
clusters of the source, but its size is read through a pointer into the folder as it was
loaded first: when a file in front of the source was removed, another record stands there.
-/
namespace Delos.Guarantees
open Lib Source Invariants

def Missing (disk : ByteMemory) (filename : CString) : Prop :=
  ∀ r ∈ dirEntries disk, r.name ≠ (normalizeFilename filename).bytes

/-- `rm` refuses to delete the file. -/
def SystemFile (disk : ByteMemory) (filename : CString) : Prop :=
  ∃ r ∈ dirEntries disk, r.name = (normalizeFilename filename).bytes ∧ r.isSystem = true

/-- The free clusters do not suffice for a copy of the source. -/
def NoRoom (disk : ByteMemory) (src des : CString) : Prop :=
  ∃ r ∈ dirEntries disk, r.name = (normalizeFilename src).bytes ∧
    ¬ FileOperation.CopyFits disk (dataClusters disk r).length (normalizeFilename des)

/-- What a copy is refused for before anything is changed. -/
inductive RefusedEarly (disk : ByteMemory) (src des : CString) : Prop
  | missing (missing : Missing disk src)
  | same (same : normalizeFilename src = normalizeFilename des)

/-- Every reason to refuse a copy. -/
inductive RefusedCopy (disk : ByteMemory) (src des : CString) : Prop
  | early (early : RefusedEarly disk src des)
  | system (system : SystemFile disk des)
  | full (full : NoRoom disk src des)

section
variable {start s : Fs} {ops : List FileOperation} {src des : CString}

/-- In a copy whose reason to be refused is tested first nothing changes. -/
theorem refused_unchanged (boot : Boot start) (run : Reaches (fun disk op => op.Ready disk) start ops s)
    (tested : RefusedCopy s.disk src des → RefusedEarly s.disk src des)
    (refused : RefusedCopy s.disk src des) :
    Completes (cp src des) s fun res s' => res ≠ 0 ∧ s'.disk = s.disk := by
  cases tested refused with
  | same same =>
    refine meets_run (cp_same same) ⟨?_, rfl⟩
    exact Nat.one_ne_zero
  | missing missing =>
    obtain ⟨others, dir, es, lost, parked, catalog⟩ := reaches_catalog boot run
    have absent : position (normalizeFilename src) es = none := by
      apply (position_entries _).mpr
      rwa [← catalog_entries catalog]
    apply meets_mono (cp_missing parked catalog absent)
    rintro res s' ⟨rfl, disk⟩
    exact ⟨Nat.one_ne_zero, disk⟩

end

/-- README.md cannot be copied to itself. -/
theorem refused_unchanged_same : ∃ s, RefusedCopy s.disk readmeName readmeName ∧
    Completes (cp readmeName readmeName) s fun res s' => res ≠ 0 ∧ s'.disk = s.disk := by
  obtain ⟨s, _, _, run, _⟩ := clear_step fun disk op => op.Ready disk
  have early : RefusedEarly s.disk readmeName readmeName := .same rfl
  exact ⟨s, .early early, refused_unchanged boot_clear run (fun _ => early) (.early early)⟩

/-- README.md as a system file. -/
def systemReadme : List FileOperation := [.setAsSystemFile readmeName]

/-- The system file is copied over, and the copy reports success. -/
theorem refused_unchanged_system : ¬ ∀ start s ops src des res s', Boot start →
    Reaches (fun _ _ => True) start ops s → RefusedCopy s.disk src des → cp src des s = .ok (res, s') →
      res ≠ 0 ∧ s'.disk = s.disk := by
  intro claim
  have holds : endsWith (fun s => (dirEntries s.disk).any (fun r =>
      decide (r.name = (normalizeFilename readmeName).bytes ∧ r.isSystem = true)) &&
        decide ((cp asciiName readmeName s).toOption.map Prod.fst = some 0)) (clearRun systemReadme) = true := by
    rw [clearRun_ready]
    decide +kernel
  obtain ⟨s, run, found⟩ := endsWith_iff.mp holds
  obtain ⟨marked, copied⟩ := (Bool.and_eq_true _ _).mp found
  obtain ⟨r, inside, here⟩ := List.any_eq_true.mp marked
  cases step : cp asciiName readmeName s with
  | error e => simp [step, Except.toOption] at copied
  | ok p =>
    have zero : p.1 = 0 := by simpa [step, Except.toOption] using copied
    have refused : RefusedCopy s.disk asciiName readmeName := .system ⟨r, inside, of_decide_eq_true here⟩
    exact (claim clearBoot s systemReadme asciiName readmeName p.1 p.2 boot_clear (clearRun_reaches run)
      refused step).1 zero

/-! ## Copies that are made -/

/-- The free memory of the heap is in one piece, with room for the folder and two arrays. -/
def OnePiece (s : Fs) : Prop :=
  ∃ heap b pre sizes, Discarded s heap ∧ FreeFrom b pre sizes heap ∧
    ArraysFit sizes (dirEntries s.disk).length ((dirEntries s.disk).length + 1)

/-- No file in front of the source is removed. -/
def SourceFirst (disk : ByteMemory) (src des : CString) : Prop :=
  ∀ i j (_ : i < (dirEntries disk).length) (_ : j < (dirEntries disk).length),
    (dirEntries disk)[i].name = (normalizeFilename src).bytes →
      (dirEntries disk)[j].name = (normalizeFilename des).bytes → i < j

/-- The destination has the size and the content of the source, and the source is as before. -/
def CopiedTo (disk disk' : ByteMemory) (r : Record) (des : CString) : Prop :=
  (∃ r' ∈ dirEntries disk', r'.name = (normalizeFilename des).bytes ∧ r'.size = r.size ∧
    contents disk' r' = contents disk r) ∧ r ∈ dirEntries disk' ∧ contents disk' r = contents disk r

section
variable {start s : Fs} {ops : List FileOperation} {src des : CString} {r : Record}

theorem copy_exact (boot : Boot start) (run : Reaches (fun disk op => op.Ready disk) start ops s)
    (ready : (FileOperation.cp src des).Ready s.disk) (inside : r ∈ dirEntries s.disk)
    (named : r.name = (normalizeFilename src).bytes) (user : ¬ SystemFile s.disk des) (piece : OnePiece s)
    (first : SourceFirst s.disk src des) :
    Completes (cp src des) s fun res s' => res = 0 → CopiedTo s.disk s'.disk r des := by
  obtain ⟨others, dir, es, lost, parked, catalog⟩ := reaches_catalog boot run
  obtain ⟨heap, b, pre, sizes, discarded, free, fits⟩ := piece
  have entries := catalog_entries catalog
  have whole : (dirEntries s.disk).length = es.length := by rw [entries, List.length_map]
  have member : ∀ e ∈ es, e.record ∈ dirEntries s.disk := by
    intro e member
    rw [entries]
    exact List.mem_map.mpr ⟨e, member, rfl⟩
  have fitting : ∀ e ∈ es, e.record.name = (normalizeFilename src).bytes →
      normalizeFilename src ≠ normalizeFilename des →
        CopyReady (lowFree s.disk) e.data.length es (normalizeFilename des) := by
    intro e member' named' different
    have fits := ready _ (member e member') named' different
    rw [catalog_data catalog member'] at fits
    exact copyReady_of_fits catalog fits
  rw [whole] at fits
  rw [entries] at inside
  obtain ⟨source, sourceInside, rfl⟩ := List.mem_map.mp inside
  apply meets_mono (cp_traced src des parked catalog fitting)
  rintro res s' ⟨dir', es', lost', _, catalog', _, same, _, _, copied⟩ zero
  obtain ⟨different, e, inside', named', e', changed, name, data, r', size, traced, record⟩ := copied zero
  obtain rfl : e = source := entry_unique catalog.names inside' sourceInside (named'.trans named.symm)
  have sized : size = e.record.size := by
    obtain ⟨i, _, _, _, _, _, _, _, _, found, _⟩ := id traced
    obtain ⟨small, here⟩ := position_some found
    have size := source_size (normalizeFilename_short des) catalog (fitting e inside' named' different) discarded
      free fits small found (fun j small' found' => ?_) traced
    · rw [size, entry_unique catalog.names (List.getElem_mem small) inside' (here.trans named'.symm)]
    · obtain ⟨_, there⟩ := position_some found'
      constructor
      · apply first i j (by omega) (by omega)
        · simp only [entries, List.getElem_map]
          exact here
        · simp only [entries, List.getElem_map]
          exact there
      · by_contra system
        exact user ⟨_, member _ (List.getElem_mem small'), there, by simpa using system⟩
  have size' : e'.record.size = e.record.size := by
    rw [record, sized]
    exact Record.size_setSize _ _ (Record.size_lt _)
  have other : e.record.name ≠ (normalizeFilename des).bytes := by
    intro same
    apply different
    have bytes := named.symm.trans same
    cases left : normalizeFilename src
    cases right : normalizeFilename des
    rw [left, right] at bytes
    simpa using bytes
  obtain ⟨kept, sameCells⟩ := same e inside' other
  refine ⟨⟨e'.record, ?_, name, size', ?_⟩, ?_, ?_⟩
  · rw [catalog_entries catalog']
    exact List.mem_map.mpr ⟨e', changed, rfl⟩
  · rw [catalog_contents catalog' changed, catalog_contents catalog inside', data, size']
  · rw [catalog_entries catalog']
    exact List.mem_map.mpr ⟨e, kept, rfl⟩
  · rw [catalog_contents catalog' kept, catalog_contents catalog inside']
    congr 1
    exact dataBytes_congr fun c inner => sameCells.bytes c (List.dropLast_subset _ inner)

end

def copyName : CString := ⟨textBytes "copy.md", by decide⟩

/-- The free blocks of the heap after `fs_init`. -/
def clearSizes : List Nat := [17, 84, 59, 20971360]

theorem copy_exact_new : ∃ s r, r ∈ dirEntries s.disk ∧
    Completes (cp readmeName copyName) s fun res s' => res = 0 → CopiedTo s.disk s'.disk r copyName := by
  have holds : endsWith (fun s => decide (s.root = 0 ∧ s.heap.origin ≤ kernelHeap.addr ∧
      Stored s.heap (freeBlocks kernelHeap.addr clearSizes) ∧ (dirEntries s.disk).length = 3 ∧
        (∀ r ∈ dirEntries s.disk, r.name ≠ (normalizeFilename copyName).bytes ∧
          (dataClusters s.disk r).length ≤ 4) ∧ 9 ≤ lowFree s.disk) &&
      (dirEntries s.disk).any fun r => decide (r.name = (normalizeFilename readmeName).bytes)) (clearRun []) = true := by
    rw [clearRun_ready]
    decide +kernel
  obtain ⟨s, run, found⟩ := endsWith_iff.mp holds
  obtain ⟨facts, found⟩ := (Bool.and_eq_true _ _).mp found
  obtain ⟨unloaded, mapped, stored, count, others, room⟩ := of_decide_eq_true facts
  obtain ⟨r, inside, here⟩ := List.any_eq_true.mp found
  have ready : (FileOperation.cp readmeName copyName).Ready s.disk := by
    intro r inside named different
    obtain ⟨_, few⟩ := others r inside
    refine ⟨fun _ => ?_, fun d inside' same => absurd same (others d inside').1,
      fun d inside' same => absurd same (others d inside').1⟩
    rw [count]
    have three : dirClusters 3 = 2 := by decide
    have four : dirClusters (3 + 1) = 2 := by decide
    refine ⟨⟨by omega, by omega, by decide⟩, by omega⟩
  have piece : OnePiece s := by
    refine ⟨s.heap, kernelHeap.addr, [], clearSizes, discarded_none unloaded, ⟨⟨stored, ?_, ?_, mapped, by simp, List.nodup_nil⟩, trivial⟩, ?_⟩
    · exact freeBlocks_tiles kernelHeap.addr clearSizes
    · decide
    · rw [count]
      exact ⟨⟨by decide, by decide⟩, by decide⟩
  have user : ¬ SystemFile s.disk copyName := fun ⟨d, inside', same, _⟩ => (others d inside').1 same
  have first : SourceFirst s.disk readmeName copyName := by
    intro i j _ small _ same
    exact absurd same (others _ (List.getElem_mem small)).1
  exact ⟨s, r, inside, copy_exact boot_clear (clearRun_init run) ready inside (of_decide_eq_true here) user piece first⟩

/-- README.md is removed, and the new one gets the size of the empty file that stands at the
old position of the source. -/
theorem copy_exact_removed : ¬ ∀ start s ops src des r res s', Boot start →
    Reaches (fun _ _ => True) start ops s → r ∈ dirEntries s.disk →
      r.name = (normalizeFilename src).bytes → normalizeFilename src ≠ normalizeFilename des →
        ¬ SystemFile s.disk des → cp src des s = .ok (res, s') → res = 0 → CopiedTo s.disk s'.disk r des := by
  intro claim
  have holds : endsWith (fun s => (dirEntries s.disk).any (fun r => decide (r.name = (normalizeFilename primesName).bytes ∧
      r.size = 94)) && (dirEntries s.disk).all (fun r => decide (r.isSystem = false)) &&
        (match cp primesName readmeName s with
          | .ok (res, s') => decide (res = 0) && (dirEntries s'.disk).all fun r' =>
            decide (r'.name = (normalizeFilename readmeName).bytes → r'.size = 0)
          | .error _ => false)) (clearRun []) = true := by
    rw [clearRun_ready]
    decide +kernel
  obtain ⟨s, run, found⟩ := endsWith_iff.mp holds
  simp only [Bool.and_eq_true] at found
  obtain ⟨⟨found, user⟩, copied⟩ := found
  obtain ⟨r, inside, here⟩ := List.any_eq_true.mp found
  obtain ⟨named, size⟩ := of_decide_eq_true here
  cases step : cp primesName readmeName s with
  | error e => simp [step] at copied
  | ok p =>
    simp only [step, Bool.and_eq_true] at copied
    obtain ⟨zero, empty⟩ := copied
    have system : ¬ SystemFile s.disk readmeName := by
      rintro ⟨d, inside', _, marked⟩
      have free := of_decide_eq_true (List.all_eq_true.mp user d inside')
      exact absurd (free.symm.trans marked) Bool.false_ne_true
    obtain ⟨⟨r', inside', name, size', _⟩, _⟩ := claim clearBoot s [] primesName readmeName r p.1 p.2 boot_clear
      (clearRun_init run) inside named (by decide) system step (of_decide_eq_true zero)
    have nothing := of_decide_eq_true (List.all_eq_true.mp empty r' inside') name
    omega

end Delos.Guarantees
