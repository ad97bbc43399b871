import Delos.Invariants.HeldFiles
import Delos.Invariants.BlockedProcesses

/-!
# Names that come and go

A process gets a name when it opens a file and loses one when the address that it passes to
`close` is that of the name. A process that is killed gives all of its names back.
-/
namespace Delos.Invariants
open Lib Source

/-- The names of all processes but one. -/
def otherNames (σ : Sched) (p : Nat) : List Nat :=
  ((List.range σ.created).erase p).flatMap fun i => (σ.pcbs i).openFiles

/-- No name that is kept is that of the file. -/
def Free (kept : Nat → CString → Prop) (filename : CString) : Prop :=
  ∀ p name, kept p name → name.bytes ≠ (normalizeFilename filename).bytes

/-- Neither the process nor another one that keeps the name loses it when this one is killed. -/
def Survived (kept : Nat → CString → Prop) (s : System) (pcb : Nat) : Prop :=
  ∀ p name, kept p name → p ≠ pcb ∧ ¬ Lists s pcb name

section
variable {σ σ' : Sched} {s s' : System} {p pcb a : Nat} {kept : Nat → CString → Prop} {fs : Fs}

theorem openNames_perm (created : p < σ.created) :
    (openNames σ).Perm ((σ.pcbs p).openFiles ++ otherNames σ p) := by
  have first := List.perm_cons_erase (List.mem_range.mpr created)
  exact first.flatMap_right fun i => (σ.pcbs i).openFiles

theorem otherNames_same (created : σ'.created = σ.created)
    (files : ∀ i, i ≠ p → (σ'.pcbs i).openFiles = (σ.pcbs i).openFiles) : otherNames σ' p = otherNames σ p := by
  unfold otherNames
  rw [created]
  refine List.flatMap_congr fun i inside => files i ?_
  rintro rfl
  exact List.nodup_range.not_mem_erase inside

theorem mem_otherNames {i : Nat} (created : i < σ.created) (other : i ≠ p) (inside : a ∈ (σ.pcbs i).openFiles) :
    a ∈ otherNames σ p :=
  List.mem_flatMap.mpr ⟨i, (List.mem_erase_of_ne other).mpr (List.mem_range.mpr created), inside⟩

theorem files_openNames (created : pcb < s.sched.created) : (s.sched.pcbs pcb).openFiles ⊆ openNames s.sched :=
  fun a inside => List.mem_flatMap.mpr ⟨pcb, List.mem_range.mpr created, inside⟩

theorem survived_same {s s' : System} (same : SameNames s.sched s'.sched) (heap : s'.fs.heap = s.fs.heap)
    (created : pcb < s.sched.created) (survived : Survived kept s pcb) : Survived kept s' pcb := by
  intro p name is
  obtain ⟨other, none⟩ := survived p name is
  refine ⟨other, ?_⟩
  unfold Lists
  rwa [same.files pcb created, heap]

theorem onSched_run (f : Sched → Sched) (s : System) : onSched f s = .ok ((), { s with sched := f s.sched }) := rfl

/-! ## Killing -/

/-- The list of the process is emptied. -/
theorem keepsOpen_emptied (created : pcb < s.sched.created) (survived : Survived kept s pcb)
    (run : closeOpenFiles (s.sched.pcbs pcb).openFiles s.fs = .ok ((), fs)) (same : σ'.created = s.sched.created)
    (others : ∀ i, i ≠ pcb → (σ'.pcbs i).openFiles = (s.sched.pcbs i).openFiles)
    (none : (σ'.pcbs pcb).openFiles = []) : KeepsOpen kept s { s with fs := fs, sched := σ' } := by
  intro filed
  have before := filed_perm filed (openNames_perm created)
  obtain ⟨filed', heap, opened⟩ := closeOpenFiles_run before run
  have after := openNames_perm (σ := σ') (p := pcb) (created.trans_eq same.symm)
  rw [none, List.nil_append, otherNames_same same others] at after
  refine ⟨filed_perm filed' after.symm, fun p name is holds => ?_⟩
  obtain ⟨other, absent⟩ := survived p name is
  obtain ⟨a, inside, here⟩ := holds.listed
  constructor
  · exact holds.created.trans_eq same.symm
  · refine ⟨a, ?_, (nameAt_kept heap (mem_otherNames holds.created other inside)).mpr here⟩
    rwa [others p other]
  · apply opened name _ holds.opened
    exact fun b inside named => absent ⟨b, inside, named⟩

theorem keepsOpen_kill (created : pcb < s.sched.created) (survived : Survived kept s pcb)
    (run : killProcess pcb s = .ok ((), s')) : KeepsOpen kept s s' := by
  unfold killProcess at run
  rw [run_bind (getPcb_run pcb s)] at run
  obtain ⟨σ, same, run⟩ : ∃ σ, SameNames s.sched σ ∧ (onFs (closeOpenFiles (s.sched.pcbs pcb).openFiles) >>= fun _ =>
      onSched fun s' => { s' with
        pcbs := Function.update s'.pcbs pcb { s'.pcbs pcb with openFiles := [] }
        latestRunning := Function.update s'.latestRunning (Sched.terminalIndex (s.sched.pcbs pcb).shellId)
          s'.idleProcess }) { s with sched := σ } = .ok ((), s') := by
    have freed : SameNames s.sched (freePid (s.sched.pcbs pcb).pid s.sched) := sameNames_rest rfl rfl
    exact ⟨_, freed.trans (sameNames_forget (p := pcb)), run⟩
  obtain ⟨_, s1, work, run⟩ := bind_run run
  obtain ⟨fs, closed, rfl⟩ := onFs_run work
  cases run
  rw [← same.files pcb created] at closed
  have forgotten : KeepsOpen kept s { s with sched := σ } := keepsOpen_same same rfl
  have there := Nat.lt_of_lt_of_le created same.created
  have survived' : Survived kept { s with sched := σ } pcb := survived_same same rfl created survived
  refine IsTrans.trans _ _ _ forgotten (keepsOpen_emptied there survived' closed rfl ?_ ?_)
  · intro i other
    simp only [Function.update_of_ne other]
  · simp only [Function.update_self]

/-! ## Printing -/

/-- The text fits behind the file or into a new one, and the file is none that is kept. -/
structure PrintsApart (kept : Nat → CString → Prop) (disk : ByteMemory) (stdout buffer : CString) (addNewline : Bool) :
    Prop where
  safe : PrintSafe disk stdout buffer addNewline
  free : Free kept stdout

theorem keepsOpen_print {buffer : CString} {addNewline : Bool}
    (prints : PrintsApart kept s.fs.disk (s.sched.pcbs pcb).stdout buffer addNewline)
    (run : printToProcess pcb buffer addNewline s = .ok ((), s')) : KeepsOpen kept s s' := by
  unfold printToProcess at run
  rw [run_bind (getPcb_run pcb s)] at run
  obtain ⟨fs, done, rfl⟩ := onFs_run run
  exact keepsOpen_spares (sparing_print prints.safe done) prints.free

theorem focused_run (pcb : Nat) (s : System) :
    focused pcb s = .ok (decide (s.sched.focusedTerminal = (s.sched.pcbs pcb).shellId), s) := rfl

theorem keepsOpen_printf {user : UserSpace} (prints : PrintsApart kept s.fs.disk (s.sched.pcbs pcb).stdout
      (user.string (s.sched.pcbs pcb).regs.esi) false)
    (run : sysCallPrintf user pcb s = .ok ((), s')) : KeepsOpen kept s s' := by
  unfold sysCallPrintf at run
  rw [run_bind (getPcb_run pcb s), run_bind (focused_run pcb s)] at run
  split at run
  · obtain ⟨_, s1, shown, run⟩ := bind_run run
    have emitted : KeepsOpen kept s s1 := keepsOpen_emit _ s () s1 shown
    cases shown
    refine IsTrans.trans _ _ _ emitted (keepsOpen_behind (fun _ s2 => ?_) (fun _ => keepsOpen_setReady pcb) run)
    exact keepsOpen_print prints
  · exact keepsOpen_behind (fun _ s2 => keepsOpen_print prints) (fun _ => keepsOpen_setReady pcb) run

/-! ## Opening -/

/-- The terminator that `strcpy` stores a second time is inside the block, or falls on a byte that is 0. -/
def RememberSafe (name : CString) (fs : Fs) : Prop :=
  name.bytes.length + 2 ≤ fileNameLen ∨
    ∀ a fs', kmalloc fileNameLen fs = .ok (a, fs') → fs'.heap.readByte (a + fileNameLen) = 0

/-- What the name that is put at the end of the list makes of a state. -/
structure Remembers (pcb : Nat) (name : CString) (s s' : System) : Prop where
  filed : Filed (openNames s'.sched) s'.fs
  holds : ∀ p other, HoldsOpen s p other → HoldsOpen s' p other
  lists : Lists s' pcb name
  disk : s'.fs.disk = s.fs.disk
  created : s'.sched.created = s.sched.created

theorem remember_keeps {name : CString} (filed : Filed (openNames s.sched) s.fs) (created : pcb < s.sched.created)
    (room : 0 < s.sched.room) (short : name.bytes.length < fileNameLen) (harmless : RememberSafe name s.fs)
    (run : rememberOpenFile pcb name s = .ok ((), s')) : Remembers pcb name s s' := by
  unfold rememberOpenFile at run
  obtain ⟨a, s1, first, run⟩ := bind_run run
  obtain ⟨fs1, alloc, rfl⟩ := onFs_run first
  obtain ⟨_, s2, second, run⟩ := bind_run run
  obtain ⟨fs2, copy, rfl⟩ := onFs_run second
  rw [onSched_run, if_neg (Nat.ne_of_gt room)] at run
  obtain ⟨filed', named, heap, disk⟩ := remember_run filed short alloc (harmless.imp_right fun zero => zero a fs1 alloc) copy
  obtain ⟨σ', same, own, others, rfl⟩ : ∃ σ' : Sched, σ'.created = s.sched.created ∧
      (σ'.pcbs pcb).openFiles = (s.sched.pcbs pcb).openFiles ++ [a] ∧
      (∀ i, i ≠ pcb → (σ'.pcbs i).openFiles = (s.sched.pcbs i).openFiles) ∧ s' = { s with fs := fs2, sched := σ' } := by
    cases run
    refine ⟨_, ?_, ?_, ?_, rfl⟩
    · rfl
    · simp [Sched.setPcb]
    · intro i other
      simp [Sched.setPcb, Function.update_of_ne other]
  constructor
  · have after := openNames_perm (σ := σ') (p := pcb) (created.trans_eq same.symm)
    rw [otherNames_same same others, own, List.append_assoc, List.singleton_append] at after
    have moved := ((openNames_perm created).cons a).trans List.perm_middle.symm
    exact filed_perm filed' (moved.trans after.symm)
  · intro p other holds
    obtain ⟨b, inside, here⟩ := holds.listed
    have member : b ∈ openNames s.sched := List.mem_flatMap.mpr ⟨p, List.mem_range.mpr holds.created, inside⟩
    refine ⟨holds.created.trans_eq same.symm, ⟨b, ?_, (nameAt_kept heap member).mpr here⟩, ?_⟩
    · by_cases equal : p = pcb
      · subst equal
        rw [own]
        exact List.mem_append_left _ inside
      · rwa [others p equal]
    · show OpenOn fs2.disk other.bytes
      rw [disk]
      exact holds.opened
  · refine ⟨a, ?_, named⟩
    rw [own]
    exact List.mem_append_right _ List.mem_cons_self
  · exact disk
  · exact same

/-- What `open` needs: memory for the node, and a name that can be stored. -/
structure Opens (s : System) (filename : CString) : Prop where
  room : 0 < s.sched.room
  harmless : ∀ known fs1 res fs2, fileExists filename s.fs = .ok (known, fs1) → openFile filename fs1 = .ok (res, fs2) →
    RememberSafe (normalizeFilename filename) fs2

theorem answer_eax {res : Nat} (run : (setResult pcb res >>= fun _ => setReady pcb) s = .ok ((), s')) :
    (s'.sched.pcbs pcb).regs.eax = res := by
  cases run
  show (((s.sched.setEax pcb res).setProcessAsReady pcb).pcbs pcb).regs.eax = res
  rw [regs_setReady]
  simp [Sched.setEax, Sched.setRegs, Sched.setPcb]

/-- Every file that is held stays so. -/
def Every (_ : Nat) (_ : CString) : Prop := True

theorem keepsOpen_every (follows : KeepsOpen Every s s') : KeepsOpen kept s s' := by
  intro filed
  obtain ⟨filed', holds⟩ := follows filed
  exact ⟨filed', fun p name _ => holds p name trivial⟩

/-- The caller holds the file if 0 is returned. -/
theorem keepsOpen_open {user : UserSpace} (filed : Filed (openNames s.sched) s.fs) (created : pcb < s.sched.created)
    (opens : Opens s (user.string (s.sched.pcbs pcb).regs.ebx)) (run : sysCallOpen user pcb s = .ok ((), s')) :
    KeepsOpen Every s s' ∧ ((s'.sched.pcbs pcb).regs.eax = 0 →
      HoldsOpen s' pcb (normalizeFilename (user.string (s.sched.pcbs pcb).regs.ebx))) := by
  unfold sysCallOpen at run
  rw [run_bind (getPcb_run pcb s)] at run
  obtain ⟨known, s1, first, run⟩ := bind_run run
  obtain ⟨fs1, asked, rfl⟩ := onFs_run first
  have exist := fileExists_iff filed.sound asked
  have looked : KeepsOpen Every s { s with fs := fs1 } := keepsOpen_looks (along_fileExists _ _ _ _ asked)
  have disk1 : fs1.disk = s.fs.disk := (along_fileExists _ _ _ _ asked filed.sound).disk
  obtain ⟨filed1, _⟩ := looked filed
  split at run
  next known =>
    obtain ⟨res, s2, second, run⟩ := bind_run run
    obtain ⟨fs2, opened, rfl⟩ := onFs_run second
    have spared : Sparing (nameBlocks (openNames s.sched)) NoFile fs1 fs2 ∧ _ := openFile_opens opened filed1.sound
    have opening : KeepsOpen Every { s with fs := fs1 } { s with fs := fs2 } :=
      keepsOpen_spares (s := { s with fs := fs1 }) (fun _ => spared.1) fun _ _ _ => id
    obtain ⟨filed2, _⟩ := opening filed1
    have upToHere : KeepsOpen Every s { s with fs := fs2 } := IsTrans.trans _ _ _ looked opening
    split at run
    next zero =>
      obtain ⟨_, s3, third, run⟩ := bind_run run
      have remembers := remember_keeps (s := { s with fs := fs2 }) filed2 created opens.room
        (normalizeFilename_short _) (opens.harmless _ _ _ _ asked opened) third
      have remembered : KeepsOpen Every { s with fs := fs2 } s3 := fun _ =>
        ⟨remembers.filed, fun p name _ => remembers.holds p name⟩
      have answered : KeepsOpen Every s3 s' := keepsOpen_answer pcb res _ () s' run
      refine ⟨IsTrans.trans _ _ _ upToHere (IsTrans.trans _ _ _ remembered answered), fun _ => ?_⟩
      refine (answered remembers.filed).2 _ _ trivial ⟨created.trans_eq remembers.created.symm, remembers.lists, ?_⟩
      rw [remembers.disk]
      apply spared.2 zero
      rw [disk1]
      exact exist.mp known
    next other =>
      have answered : KeepsOpen Every { s with fs := fs2 } s' := keepsOpen_answer pcb res _ () s' run
      refine ⟨IsTrans.trans _ _ _ upToHere answered, fun zero => ?_⟩
      exact absurd ((answer_eax run).symm.trans zero) other
  next unknown =>
    have answered : KeepsOpen Every { s with fs := fs1 } s' := keepsOpen_answer pcb 1 _ () s' run
    refine ⟨IsTrans.trans _ _ _ looked answered, fun zero => ?_⟩
    exact absurd ((answer_eax run).symm.trans zero) Nat.one_ne_zero

/-! ## Closing -/

/-- No file that is kept is closed, and no name of the caller freed that is kept. A long name is not found. -/
structure Closes (kept : Nat → CString → Prop) (s : System) (pcb : Nat) (filename : CString) (address : Nat) : Prop where
  free : filename.bytes.length < fileNameLen → Free kept filename
  elsewhere : ∀ name, kept pcb name → address ∉ (s.sched.pcbs pcb).openFiles

theorem keepsOpen_forget {address : Nat} (created : pcb < s.sched.created)
    (elsewhere : ∀ name, kept pcb name → address ∉ (s.sched.pcbs pcb).openFiles)
    (run : forgetOpenFile pcb address s = .ok ((), s')) : KeepsOpen kept s s' := by
  unfold forgetOpenFile at run
  rw [run_bind (getPcb_run pcb s)] at run
  split at run
  next inside =>
    obtain ⟨_, s1, first, run⟩ := bind_run run
    obtain ⟨fs, freed, rfl⟩ := onFs_run first
    obtain ⟨σ', same, own, others, rfl⟩ : ∃ σ' : Sched, σ'.created = s.sched.created ∧
        (σ'.pcbs pcb).openFiles = (s.sched.pcbs pcb).openFiles.erase address ∧
        (∀ i, i ≠ pcb → (σ'.pcbs i).openFiles = (s.sched.pcbs i).openFiles) ∧ s' = { s with fs := fs, sched := σ' } := by
      cases run
      refine ⟨_, ?_, ?_, ?_, rfl⟩
      · rfl
      · simp [Sched.setPcb]
      · intro i other
        simp [Sched.setPcb, Function.update_of_ne other]
    intro filed
    have split := (openNames_perm created).trans ((List.perm_cons_erase inside).append_right _)
    obtain ⟨filed', heap, disk⟩ := filed_kfree (filed_perm filed split) freed
    have after := openNames_perm (σ := σ') (p := pcb) (created.trans_eq same.symm)
    rw [otherNames_same same others, own] at after
    refine ⟨filed_perm filed' after.symm, fun p name is holds => ?_⟩
    by_cases equal : p = pcb
    · subst equal
      exact absurd inside (elsewhere name is)
    · obtain ⟨b, listed, here⟩ := holds.listed
      have member := mem_otherNames holds.created equal listed
      refine ⟨holds.created.trans_eq same.symm, ⟨b, ?_, (nameAt_kept heap (List.mem_append_right _ member)).mpr here⟩, ?_⟩
      · rwa [others p equal]
      · show OpenOn fs.disk name.bytes
        rw [disk]
        exact holds.opened
  next =>
    cases run
    exact refl (r := KeepsOpen kept) s

theorem forget_disk {address : Nat} (run : forgetOpenFile pcb address s = .ok ((), s')) : s'.fs.disk = s.fs.disk := by
  unfold forgetOpenFile at run
  rw [run_bind (getPcb_run pcb s)] at run
  split at run <;> cases run <;> rfl

theorem keepsOpen_close {user : UserSpace} (filed : Filed (openNames s.sched) s.fs) (created : pcb < s.sched.created)
    (closes : Closes kept s pcb (user.string (s.sched.pcbs pcb).regs.ebx) (s.sched.pcbs pcb).regs.ebx)
    (run : sysCallClose user pcb s = .ok ((), s')) : KeepsOpen kept s s' := by
  unfold sysCallClose at run
  rw [run_bind (getPcb_run pcb s)] at run
  obtain ⟨known, s1, first, run⟩ := bind_run run
  obtain ⟨fs1, asked, rfl⟩ := onFs_run first
  obtain ⟨found, search, iff⟩ := openFilesContain_run (user.string (s.sched.pcbs pcb).regs.ebx) filed
    (files_openNames created)
  cases search.symm.trans asked
  split at run
  next found =>
    obtain ⟨a, _, named⟩ := iff.mp found
    obtain ⟨res, s2, second, run⟩ := bind_run run
    obtain ⟨fs2, closed, rfl⟩ := onFs_run second
    have closing : KeepsOpen kept s { s with fs := fs2 } :=
      keepsOpen_spares (along_closeFile _ _ _ _ closed) (closes.free named.short)
    obtain ⟨_, s3, third, run⟩ := bind_run run
    have forgotten : KeepsOpen kept { s with fs := fs2 } s3 := keepsOpen_forget created closes.elsewhere third
    have answered : KeepsOpen kept s3 s' := keepsOpen_answer pcb res _ () s' run
    exact IsTrans.trans _ _ _ closing (IsTrans.trans _ _ _ forgotten answered)
  next => exact keepsOpen_answer pcb 1 _ () s' run

end

end Delos.Invariants
