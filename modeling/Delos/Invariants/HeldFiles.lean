import Delos.Invariants.OpenNames
import Delos.Invariants.FileCalls
import Delos.Invariants.SchedulerSteps
import Delos.Invariants.ExitCodes

/-!
# The files that processes hold open

Between two interrupts every name in the list of a process is in a block of its own. An
interrupt keeps this, and a file that a process holds open stays so unless the interrupt
is one that closes or deletes the file, or ends the process.
-/
namespace Delos.Invariants
open Lib Source

/-- The addresses of the names that the processes have. -/
def openNames (σ : Sched) : List Nat := (List.range σ.created).flatMap fun p => (σ.pcbs p).openFiles

/-- The name is in the list of the process. -/
def Lists (s : System) (p : Nat) (name : CString) : Prop := ∃ a ∈ (s.sched.pcbs p).openFiles, NameAt s.fs.heap a name

/-- The process has opened the file under this name. -/
structure HoldsOpen (s : System) (p : Nat) (name : CString) : Prop where
  created : p < s.sched.created
  listed : Lists s p name
  opened : OpenOn s.fs.disk name.bytes

/-- The lists are as before, and those of new processes are empty. -/
structure SameNames (σ σ' : Sched) : Prop where
  created : σ.created ≤ σ'.created
  files : ∀ i < σ.created, (σ'.pcbs i).openFiles = (σ.pcbs i).openFiles
  new : ∀ i, σ.created ≤ i → i < σ'.created → (σ'.pcbs i).openFiles = []

/-- The names stay in their blocks, and what is `kept` is still open. -/
def KeepsOpen (kept : Nat → CString → Prop) (s s' : System) : Prop :=
  Filed (openNames s.sched) s.fs → Filed (openNames s'.sched) s'.fs ∧
    ∀ p name, kept p name → HoldsOpen s p name → HoldsOpen s' p name

section
variable {σ σ' σ'' : Sched} {s s' : System} {p : Nat} {q : ProcessList} {kept : Nat → CString → Prop} {α : Type}

/-! ## Lists of names -/

theorem sameNames_refl : SameNames σ σ :=
  ⟨Nat.le_refl _, fun _ _ => rfl, fun _ old new => absurd new (Nat.not_lt.mpr old)⟩

theorem SameNames.trans (first : SameNames σ σ') (second : SameNames σ' σ'') : SameNames σ σ'' := by
  constructor
  · exact Nat.le_trans first.created second.created
  · intro i old
    rw [second.files i (Nat.lt_of_lt_of_le old first.created), first.files i old]
  · intro i new small
    by_cases early : i < σ'.created
    · rw [second.files i early]
      exact first.new i new early
    · exact second.new i (Nat.not_lt.mp early) small

theorem openNames_same (same : SameNames σ σ') : openNames σ' = openNames σ := by
  obtain ⟨n, grown⟩ := Nat.exists_eq_add_of_le same.created
  have old : ((List.range σ.created).flatMap fun p => (σ'.pcbs p).openFiles) = openNames σ :=
    List.flatMap_congr fun i inside => same.files i (List.mem_range.mp inside)
  have new : ((List.range n).map (σ.created + ·)).flatMap (fun p => (σ'.pcbs p).openFiles) = [] := by
    apply List.flatMap_eq_nil_iff.mpr
    intro i inside
    obtain ⟨k, small, rfl⟩ := List.mem_map.mp inside
    have bound := List.mem_range.mp small
    exact same.new _ (Nat.le_add_right _ _) (by omega)
  rw [openNames, grown, List.range_add, List.flatMap_append, old, new, List.append_nil]

theorem sameNames_rest (created : σ'.created = σ.created) (pcbs : σ'.pcbs = σ.pcbs) : SameNames σ σ' := by
  refine ⟨created.ge, fun i _ => by rw [pcbs], fun i old new => ?_⟩
  omega

theorem sameNames_setPcb {f : Pcb → Pcb} (same : ∀ p, (f p).openFiles = p.openFiles) :
    SameNames σ (σ.setPcb p f) :=
  ⟨Nat.le_refl _, fun _ _ => pcbs_setPcb Pcb.openFiles same, fun _ old new => absurd new (Nat.not_lt.mpr old)⟩

theorem sameNames_setState {state : ProcessState} : SameNames σ (σ.setState p state) := by
  unfold Sched.setState
  exact sameNames_setPcb fun _ => rfl

theorem sameNames_setRegs {f : Regs → Regs} : SameNames σ (σ.setRegs p f) := by
  unfold Sched.setRegs
  exact sameNames_setPcb fun _ => rfl

theorem sameNames_setEax {eax : Nat} : SameNames σ (σ.setEax p eax) := sameNames_setRegs

theorem sameNames_listAddLast : SameNames σ (σ.listAddLast q p) := by
  unfold Sched.listAddLast
  split
  · exact sameNames_refl
  · exact sameNames_rest rfl rfl

theorem sameNames_listAddFirst : SameNames σ (σ.listAddFirst q p) := by
  unfold Sched.listAddFirst
  split
  · exact sameNames_refl
  · exact sameNames_rest rfl rfl

theorem sameNames_listRemoveData : SameNames σ (σ.listRemoveData q p) := by
  unfold Sched.listRemoveData
  split
  · exact sameNames_rest rfl rfl
  · exact sameNames_refl

theorem sameNames_setReady : SameNames σ (σ.setProcessAsReady p) := by
  unfold Sched.setProcessAsReady
  split
  · exact sameNames_refl
  · exact sameNames_setState.trans sameNames_listAddLast

theorem sameNames_unblock : SameNames σ (Sched.unblock p q σ) := by
  unfold Sched.unblock
  split
  · exact sameNames_refl
  · exact sameNames_setReady

theorem sameNames_wake {ppid code : Nat} : SameNames σ (σ.wakeUpParentProcess ppid code) := by
  unfold Sched.wakeUpParentProcess
  split
  · exact sameNames_refl
  · exact (sameNames_listRemoveData.trans sameNames_setEax).trans sameNames_unblock

theorem sameNames_forget : SameNames σ (Sched.forgetProcess p σ) :=
  ((sameNames_listRemoveData.trans sameNames_listRemoveData).trans sameNames_listRemoveData).trans
    sameNames_listRemoveData

theorem sameNames_dispatchNext : SameNames σ (dispatchNext σ) := by
  unfold dispatchNext
  dsimp only
  split
  · exact sameNames_rest rfl rfl
  · exact sameNames_rest rfl rfl

/-- A process that is created has no file open. -/
theorem sameNames_newPcb {filename stdout : CString} {ppid shellId entry cr3 : Nat} :
    SameNames σ (newPcb filename ppid stdout shellId entry cr3 σ) := by
  obtain ⟨pcb, new, fields⟩ := newPcb_fields filename ppid stdout shellId entry cr3 σ
  rw [fields]
  refine ⟨Nat.le_succ _, fun i old => ?_, fun i old small => ?_⟩
  · simp only [Function.update_of_ne (Nat.ne_of_lt old)]
  · obtain rfl : i = σ.created := Nat.le_antisymm (Nat.le_of_lt_succ small) old
    simp only [Function.update_self]
    exact new.files

/-! ## Steps of a handler -/

instance (kept : Nat → CString → Prop) : IsPreorder System (KeepsOpen kept) where
  refl _ := fun filed => ⟨filed, fun _ _ _ holds => holds⟩
  trans _ _ _ first second := by
    intro filed
    obtain ⟨filed1, holds1⟩ := first filed
    obtain ⟨filed2, holds2⟩ := second filed1
    exact ⟨filed2, fun p name is holds => holds2 p name is (holds1 p name is holds)⟩

theorem onFs_run {x : Kernel α} {a : α} (run : onFs x s = .ok (a, s')) :
    ∃ fs, x s.fs = .ok (a, fs) ∧ s' = { s with fs := fs } := by
  unfold onFs at run
  split at run
  next a' fs done =>
    cases run
    exact ⟨fs, done, rfl⟩
  next => cases run

theorem keepsOpen_same (same : SameNames s.sched s'.sched) (fs : s'.fs = s.fs) : KeepsOpen kept s s' := by
  intro filed
  rw [openNames_same same, fs]
  refine ⟨filed, fun p name _ holds => ?_⟩
  obtain ⟨created, listed, opened⟩ := holds
  unfold Lists at listed
  rw [← same.files p created] at listed
  constructor
  · exact Nat.lt_of_lt_of_le created same.created
  · unfold Lists
    rwa [fs]
  · rwa [fs]

/-- The file system has run, and no target is kept. -/
theorem keepsOpen_spares {fs : Fs} {target : List UInt8 → Prop}
    (spares : Spares (nameBlocks (openNames s.sched)) target s.fs fs)
    (free : ∀ p name, kept p name → ¬ target name.bytes) : KeepsOpen kept s { s with fs := fs } := by
  intro filed
  have sparing := spares filed.sound
  refine ⟨filed_kept filed sparing.sound sparing.kept, fun p name is holds => ?_⟩
  obtain ⟨created, ⟨a, inside, here⟩, opened⟩ := holds
  have member : a ∈ openNames s.sched := List.mem_flatMap.mpr ⟨p, List.mem_range.mpr created, inside⟩
  exact ⟨created, ⟨a, inside, (nameAt_kept sparing.kept member).mpr here⟩,
    sparing.opened name.bytes (free p name is) opened⟩

theorem keepsOpen_onSched {f : Sched → Sched} (same : ∀ σ, SameNames σ (f σ)) :
    Along (KeepsOpen kept) (onSched f) := along_modify fun s => keepsOpen_same (same s.sched) rfl

theorem keepsOpen_looks {fs : Fs} (looks : Looks (nameBlocks (openNames s.sched)) s.fs fs) :
    KeepsOpen kept s { s with fs := fs } := by
  have spares : Spares _ NoFile s.fs fs := spares_looks looks
  exact keepsOpen_spares spares fun _ _ _ => id

theorem keepsOpen_onFs {x : Kernel α} (looks : ∀ others, Along (Looks others) x) :
    Along (KeepsOpen kept) (onFs x) := by
  intro s a s' run
  obtain ⟨fs, done, rfl⟩ := onFs_run run
  exact keepsOpen_looks (looks _ s.fs a fs done)

theorem keepsOpen_emit (call : ScreenCall) : Along (KeepsOpen kept) (onFs (emit call)) :=
  keepsOpen_onFs fun _ => along_emit call

theorem keepsOpen_getSched : Along (KeepsOpen kept) getSched := along_bind along_get fun _ => along_pure _

theorem keepsOpen_getPcb (pcb : Nat) : Along (KeepsOpen kept) (getPcb pcb) :=
  along_bind keepsOpen_getSched fun _ => along_pure _

theorem keepsOpen_focused (pcb : Nat) : Along (KeepsOpen kept) (focused pcb) :=
  along_bind keepsOpen_getSched fun _ => along_pure _

theorem keepsOpen_setEax (pcb eax : Nat) : Along (KeepsOpen kept) (onSched (Sched.setEax pcb eax)) :=
  keepsOpen_onSched fun _ => sameNames_setEax

theorem keepsOpen_setReady (pcb : Nat) : Along (KeepsOpen kept) (setReady pcb) :=
  keepsOpen_onSched fun _ => sameNames_setReady

theorem keepsOpen_setLastExitCode (code : Nat) : Along (KeepsOpen kept) (setLastExitCode code) :=
  along_modify fun _ => keepsOpen_same sameNames_refl rfl

theorem keepsOpen_storeToUser (address len : Nat) : Along (KeepsOpen kept) (storeToUser address len) :=
  along_ite (fun _ => along_pure _) fun _ => along_throw

/-- The end of most calls. -/
theorem keepsOpen_answer (pcb result : Nat) : Along (KeepsOpen kept) (setResult pcb result >>= fun _ => setReady pcb) :=
  along_bind (along_bind (keepsOpen_setEax _ _) fun _ => keepsOpen_setLastExitCode _) fun _ => keepsOpen_setReady _

theorem keepsOpen_switchToNextProcess : Along (KeepsOpen kept) switchToNextProcess := by
  refine along_bind keepsOpen_getSched fun _ => along_ite (fun _ => ?_) fun _ => ?_
  · exact along_bind (keepsOpen_emit _) fun _ => along_bind (keepsOpen_emit _) fun _ =>
      along_bind (keepsOpen_emit _) fun _ => along_throw
  · refine along_bind (keepsOpen_onSched fun _ => sameNames_dispatchNext) fun _ => along_bind keepsOpen_getSched fun _ => ?_
    refine along_bind (keepsOpen_onSched fun _ => sameNames_setState) fun _ => along_bind (keepsOpen_getPcb _) fun _ => ?_
    exact along_modify fun _ => keepsOpen_same sameNames_refl rfl

/-- The new process has no file. -/
theorem keepsOpen_createProcess (filename : CString) (ppid : Nat) (stdout : CString) (shellId entry cr3 : Nat) :
    Along (KeepsOpen kept) (createProcess filename ppid stdout shellId entry cr3) := by
  unfold createProcess createProcessUnless
  refine along_ite (fun _ => along_pure _) fun _ => ?_
  split
  next => exact along_pure _
  next =>
    refine along_bind keepsOpen_getSched fun σ => along_ite (fun _ => ?_) fun _ => ?_
    · refine along_bind (keepsOpen_onFs fun _ => ?_) fun _ => along_pure _
      exact along_bind (along_emit _) fun _ => along_bind (along_emit _) fun _ => along_throw
    · refine along_bind (keepsOpen_onSched fun _ => sameNames_newPcb) fun _ => ?_
      exact along_bind (keepsOpen_onSched fun _ => sameNames_listAddLast) fun _ => along_pure _

/-! ## System calls that leave the files alone -/

theorem openFilesContain_calm (filename : CString) (addresses : List Nat) : Calm (openFilesContain filename addresses) := by
  induction addresses with
  | nil => exact calm_pure false
  | cons a addresses ih =>
    unfold openFilesContain storedName
    refine calm_bind (calm_bind (readString_calm _ _) fun bytes => ?_) fun name => calm_ite (calm_pure true) ih
    split
    · exact calm_pure _
    · exact calm_throw (by decide)

theorem along_mayUse {others : List (Nat × Nat)} (filename : CString) (addresses : List Nat) :
    Along (Looks others) (mayUse filename addresses) :=
  along_bind (along_fileExists filename) fun _ =>
    along_ite (fun _ => along_calm (openFilesContain_calm _ _)) fun _ => along_pure _

theorem printAllProcesses_calm (pcbs : List Pcb) : Calm (printAllProcesses pcbs) := by
  induction pcbs with
  | nil => exact calm_pure ()
  | cons pcb pcbs ih =>
    refine calm_bind ?_ fun _ => ih
    refine calm_bind (lsField_calm _ _) fun _ => calm_bind (lsField_calm _ _) fun _ => ?_
    exact calm_bind (lsField_calm _ _) fun _ => lsField_calm _ _

theorem printAllPrograms_calm (names : List String) : Calm (printAllPrograms names) := by
  induction names with
  | nil => exact calm_pure ()
  | cons name names ih => exact calm_bind (emit_calm _) fun _ => ih

/-- A field of the PCB is returned. -/
theorem keepsOpen_reply (pcb : Nat) (field : Pcb → Nat) : Along (KeepsOpen kept) (do
    let p ← getPcb pcb
    onSched (Sched.setEax pcb (field p))
    setReady pcb) :=
  along_bind (keepsOpen_getPcb _) fun _ => along_bind (keepsOpen_setEax _ _) fun _ => keepsOpen_setReady _

theorem keepsOpen_shown {x : Kernel Unit} (pcb : Nat) (calm : Calm x) :
    Along (KeepsOpen kept) (onFs x >>= fun _ => setReady pcb) :=
  along_bind (keepsOpen_onFs fun _ => along_calm calm) fun _ => keepsOpen_setReady _

theorem keepsOpen_ls (pcb : Nat) : Along (KeepsOpen kept) (sysCallLs pcb) :=
  along_bind (keepsOpen_onFs fun _ => along_ls) fun _ => keepsOpen_setReady _

theorem keepsOpen_ps (pcb : Nat) : Along (KeepsOpen kept) (sysCallPs pcb) :=
  along_bind keepsOpen_getSched fun _ => keepsOpen_shown pcb (printAllProcesses_calm _)

theorem keepsOpen_malloc (user : UserSpace) (pcb : Nat) : Along (KeepsOpen kept) (sysCallMalloc user pcb) := by
  refine along_bind (keepsOpen_getPcb _) fun p => ?_
  cases user.malloc p.regs.ebx with
  | none => exact along_throw
  | some block => exact keepsOpen_answer pcb block

theorem keepsOpen_readLine (pcb : Nat) : Along (KeepsOpen kept) (sysCallReadLine pcb) :=
  keepsOpen_onSched fun _ => sameNames_setState.trans sameNames_listAddFirst

theorem keepsOpen_wait (pcb : Nat) : Along (KeepsOpen kept) (sysCallWait pcb) := by
  refine along_bind (keepsOpen_getPcb _) fun _ => along_bind keepsOpen_getSched fun _ => along_ite (fun _ => ?_) fun _ => ?_
  · exact keepsOpen_onSched fun _ => sameNames_setState.trans sameNames_listAddLast
  · exact keepsOpen_answer pcb 1

theorem keepsOpen_exitCode (pcb : Nat) : Along (KeepsOpen kept) (sysCallExitCode pcb) :=
  along_bind along_get fun _ => along_bind (keepsOpen_setEax _ _) fun _ =>
    along_bind (keepsOpen_setLastExitCode _) fun _ => keepsOpen_setReady _

theorem keepsOpen_exec (user : UserSpace) (pcb : Nat) : Along (KeepsOpen kept) (sysCallExec user pcb) := by
  refine along_bind (keepsOpen_getPcb _) fun _ => along_ite (fun _ => along_throw) fun _ => ?_
  refine along_bind (keepsOpen_setReady _) fun _ => along_bind (keepsOpen_setEax _ _) fun _ => ?_
  refine along_bind (keepsOpen_createProcess _ _ _ _ _ _) fun child => ?_
  cases child with
  | none => exact keepsOpen_setLastExitCode 0
  | some child =>
    exact along_bind (keepsOpen_getPcb _) fun _ => along_bind (keepsOpen_setEax _ _) fun _ =>
      along_bind (keepsOpen_setReady _) fun _ => keepsOpen_setLastExitCode _

theorem keepsOpen_fork (user : UserSpace) (pcb : Nat) : Along (KeepsOpen kept) (sysCallFork user pcb) := by
  refine along_bind (keepsOpen_getPcb _) fun _ => along_bind (keepsOpen_createProcess _ _ _ _ _ _) fun child => ?_
  cases child with
  | none => exact along_throw
  | some child =>
    refine along_bind (keepsOpen_onSched fun _ => sameNames_setRegs) fun _ => along_bind (keepsOpen_setEax _ _) fun _ => ?_
    refine along_bind (keepsOpen_setEax _ _) fun _ => along_bind (keepsOpen_setLastExitCode _) fun _ => ?_
    exact along_bind (keepsOpen_setReady _) fun _ => keepsOpen_setReady _

theorem keepsOpen_cat (user : UserSpace) (pcb : Nat) : Along (KeepsOpen kept) (sysCallCat user pcb) :=
  along_bind (keepsOpen_getPcb _) fun _ => along_bind (keepsOpen_onFs fun _ => along_cat _) fun _ => keepsOpen_answer _ _

theorem keepsOpen_read (user : UserSpace) (pcb : Nat) : Along (KeepsOpen kept) (sysCallRead user pcb) := by
  refine along_bind (keepsOpen_getPcb _) fun _ => along_bind (keepsOpen_onFs fun _ => along_mayUse _ _) fun _ => ?_
  refine along_ite (fun _ => ?_) fun _ => keepsOpen_answer pcb 1
  exact along_bind (keepsOpen_onFs fun _ => along_read _ _ _) fun _ => along_bind (keepsOpen_storeToUser _ _) fun _ =>
    keepsOpen_answer pcb _

theorem keepsOpen_colorCommand (pcb : Nat) : Along (KeepsOpen kept) (sysCallColorCommand pcb) := by
  refine along_bind (keepsOpen_getPcb _) fun _ => along_bind (keepsOpen_focused _) fun _ => along_ite (fun _ => ?_) fun _ => ?_
  · exact along_bind (keepsOpen_emit _) fun _ => keepsOpen_answer pcb 0
  · exact keepsOpen_answer pcb 0

theorem keepsOpen_setCursor (pcb : Nat) : Along (KeepsOpen kept) (sysCallSetCursor pcb) := by
  refine along_bind (keepsOpen_getPcb _) fun _ => along_bind (keepsOpen_focused _) fun _ => along_ite (fun _ => ?_) fun _ => ?_
  · refine along_ite (fun _ => keepsOpen_answer pcb 1) fun _ => ?_
    exact along_bind (keepsOpen_emit _) fun _ => keepsOpen_answer pcb 0
  · exact keepsOpen_answer pcb 0

/-! ## System calls that change files -/

/-- What `file_append` needs: room for the text, behind a file or in a new one. -/
structure AppendSafe (disk : ByteMemory) (filename : CString) (len : Nat) : Prop where
  present : ∀ r ∈ dirEntries disk, r.name = (normalizeFilename filename).bytes → AppendReady (lowFree disk) r.size len
  missing : (∀ r ∈ dirEntries disk, r.name ≠ (normalizeFilename filename).bytes) →
    CreateRoom (lowFree disk) (dirEntries disk).length ∧
      AppendReady (createdFree (lowFree disk) (dirEntries disk).length) 0 len

section
variable {fs fs' : Fs} {filename : CString} {buffer : List UInt8} {res : Nat} {others : List (Nat × Nat)}
  {target : List UInt8 → Prop}

/-- The file is there. -/
theorem sparing_appendPresent {dir lost : List Nat} {es : List Entry} {i : Nat} (parked : Parked fs others)
    (catalog : Catalog fs.disk dir es lost) (found : position (normalizeFilename filename) es = some i)
    (fits : ∀ r ∈ dirEntries fs.disk, r.name = (normalizeFilename filename).bytes →
      AppendReady (lowFree fs.disk) r.size buffer.length)
    (run : fileAppend filename buffer fs = .ok (res, fs')) : Sparing others target fs fs' := by
  obtain ⟨small, named⟩ := position_some found
  unfold fileAppend at run
  obtain ⟨size, s1, first, run⟩ := bind_run run
  obtain ⟨heap1, rfl, owned1, _, rfl⟩ := completes_result (getFileSize_run filename parked catalog found small) first
  have sound1 : Sound others { fs with heap := heap1, root := 0 } := ⟨dir, es, lost, .empty rfl owned1, catalog⟩
  have looks1 : Spares others target fs _ := spares_looks (along_getFileSize filename fs _ _ first)
  obtain ⟨known, s2, second, run⟩ := bind_run run
  have looks2 : Spares others target _ s2 := spares_looks (along_fileExists filename _ known s2 second)
  obtain ⟨heap2, rfl, owned2, _, rfl⟩ := completes_result
    (fileExists_run (s := { fs with heap := heap1, root := 0 }) filename (.empty rfl owned1) catalog) second
  rw [found, if_pos Option.isSome_some] at run
  have ready : FileOperation.Ready fs.disk (.write filename buffer es[i].record.size) := by
    intro r inside same
    have fits := fits r inside same
    rw [catalog_entries catalog] at inside
    obtain ⟨e, member, rfl⟩ := List.mem_map.mp inside
    obtain rfl : e = es[i] := entry_unique catalog.names member (List.getElem_mem small) (same.trans named.symm)
    exact ⟨fun _ => fits, fun less => absurd less (Nat.lt_irrefl _)⟩
  have written : Spares others target { fs with heap := heap2, root := 0 } fs' := sparing_write ready run
  have sparing := (looks1 ⟨dir, es, lost, parked, catalog⟩).trans (looks2 sound1)
  exact sparing.trans (written sparing.sound)

/-- The file is created. -/
theorem sparing_appendMissing {dir lost : List Nat} {es : List Entry} (parked : Parked fs others)
    (catalog : Catalog fs.disk dir es lost) (missing : position (normalizeFilename filename) es = none)
    (room : CreateRoom (lowFree fs.disk) es.length)
    (fits : AppendReady (createdFree (lowFree fs.disk) es.length) 0 buffer.length)
    (run : fileAppend filename buffer fs = .ok (res, fs')) : Sparing others target fs fs' := by
  unfold fileAppend at run
  obtain ⟨size, s1, first, run⟩ := bind_run run
  have looks1 : Spares others target fs s1 := spares_looks (along_getFileSize filename fs size s1 first)
  obtain ⟨rfl, parked1, disk1⟩ := completes_result (getFileSize_missing parked catalog missing) first
  rw [← disk1] at catalog room fits
  obtain ⟨known, s2, second, run⟩ := bind_run run
  have looks2 : Spares others target s1 s2 := spares_looks (along_fileExists filename s1 known s2 second)
  obtain ⟨heap2, rfl, owned2, _, rfl⟩ := completes_result (fileExists_run filename parked1 catalog) second
  rw [missing, if_neg (by simp)] at run
  obtain ⟨_, s3, third, run⟩ := bind_run run
  have touched : Spares others target { s1 with heap := heap2, root := 0 } s3 := by
    refine sparing_touch (fun _ => ?_) third
    have files : (dirEntries s1.disk).length = es.length := by rw [catalog_entries catalog, List.length_map]
    rwa [files]
  have unloaded : Parked { s1 with heap := heap2, root := 0 } others := .empty rfl owned2
  obtain ⟨dir3, e, parked3, catalog3, name, zero, free⟩ :=
    completes_result (touch_created unloaded catalog missing room) third
  rw [← free] at fits
  have ready : FileOperation.Ready s3.disk (.write filename buffer 0) := by
    intro r inside same
    rw [catalog_entries catalog3] at inside
    obtain ⟨d, member, rfl⟩ := List.mem_map.mp inside
    rw [catalog_data catalog3 member]
    exact writeReady_created missing zero fits member same
  have written : Spares others target s3 fs' := sparing_write ready run
  have sound1 : Sound others s1 := ⟨dir, es, lost, parked1, catalog⟩
  rw [disk1] at catalog
  have sparing := (looks1 ⟨dir, es, lost, parked, catalog⟩).trans (looks2 sound1)
  have created := sparing.trans (touched sparing.sound)
  exact created.trans (written created.sound)

theorem spares_fileAppend (safe : AppendSafe fs.disk filename buffer.length)
    (run : fileAppend filename buffer fs = .ok (res, fs')) : Spares others target fs fs' := by
  rintro ⟨dir, es, lost, parked, catalog⟩
  cases found : position (normalizeFilename filename) es with
  | some i => exact sparing_appendPresent parked catalog found safe.present run
  | none =>
    have absent := (position_entries (normalizeFilename filename)).mp found
    rw [← catalog_entries catalog] at absent
    obtain ⟨room, fits⟩ := safe.missing absent
    have files : (dirEntries fs.disk).length = es.length := by rw [catalog_entries catalog, List.length_map]
    rw [files] at room fits
    exact sparing_appendMissing parked catalog found room fits run

end

/-- The results of a call behind its work on the files. -/
theorem keepsOpen_behind {x : Handler α} {f : α → Handler Unit} (work : ∀ a s1, x s = .ok (a, s1) → KeepsOpen kept s s1)
    (rest : ∀ a, Along (KeepsOpen kept) (f a)) (run : (x >>= f) s = .ok ((), s')) : KeepsOpen kept s s' := by
  obtain ⟨a, s1, first, run⟩ := bind_run run
  exact IsTrans.trans _ _ _ (work a s1 first) (rest a s1 () s' run)

theorem keepsOpen_fileCall {call : Regs → Kernel Nat} {pcb : Nat} {target : List UInt8 → Prop}
    (spares : ∀ res fs, call (s.sched.pcbs pcb).regs s.fs = .ok (res, fs) →
      Spares (nameBlocks (openNames s.sched)) target s.fs fs)
    (free : ∀ p name, kept p name → ¬ target name.bytes) (run : fileCall pcb call s = .ok ((), s')) :
    KeepsOpen kept s s' := by
  unfold fileCall at run
  rw [run_bind (getPcb_run pcb s)] at run
  refine keepsOpen_behind (fun res s1 work => ?_) (fun res => keepsOpen_answer pcb res) run
  obtain ⟨fs, done, rfl⟩ := onFs_run work
  exact keepsOpen_spares (spares res fs done) free

theorem keepsOpen_write {user : UserSpace} {pcb : Nat}
    (ready : FileOperation.Ready s.fs.disk (.write (user.string (s.sched.pcbs pcb).regs.esi)
      (user.bytes (s.sched.pcbs pcb).regs.ebx (s.sched.pcbs pcb).regs.edx) (s.sched.pcbs pcb).regs.ecx))
    (run : sysCallWrite user pcb s = .ok ((), s')) : KeepsOpen kept s s' := by
  intro filed
  unfold sysCallWrite at run
  rw [run_bind (getPcb_run pcb s)] at run
  obtain ⟨allowed, s1, test, run⟩ := bind_run run
  obtain ⟨fs1, asked, rfl⟩ := onFs_run test
  have looks : Looks (nameBlocks (openNames s.sched)) s.fs fs1 := along_mayUse _ _ s.fs allowed fs1 asked
  have tested : KeepsOpen kept s { s with fs := fs1 } := keepsOpen_looks looks
  have written : KeepsOpen kept { s with fs := fs1 } s' := by
    cases allowed with
    | false => exact keepsOpen_answer pcb 1 _ () s' run
    | true =>
      refine keepsOpen_behind (fun res s2 work => ?_) (fun res => keepsOpen_answer pcb res) run
      obtain ⟨fs2, done, rfl⟩ := onFs_run work
      have disk : fs1.disk = s.fs.disk := (looks filed.sound).disk
      rw [← disk] at ready
      have spares : Spares (nameBlocks (openNames s.sched)) NoFile fs1 fs2 := sparing_write ready done
      exact keepsOpen_spares (s := { s with fs := fs1 }) spares fun _ _ _ => id
  have both : KeepsOpen kept s s' := IsTrans.trans _ _ _ tested written
  exact both filed

/-- The handler of `file_append` around its work on the files. -/
theorem fileAppend_call {user : UserSpace} {pcb : Nat} (run : sysCallFileAppend user pcb s = .ok ((), s')) :
    ∃ res fs, fileAppend (user.string (s.sched.pcbs pcb).regs.ebx)
        (user.string (s.sched.pcbs pcb).regs.ecx).bytes s.fs = .ok (res, fs) ∧
      (setResult pcb res >>= fun _ => setReady pcb) { s with fs := fs } = .ok ((), s') := by
  unfold sysCallFileAppend at run
  rw [run_bind (getPcb_run pcb s)] at run
  obtain ⟨size, s1, first, run⟩ := bind_run run
  obtain ⟨fs1, sized, rfl⟩ := onFs_run first
  obtain ⟨known, s2, second, run⟩ := bind_run run
  obtain ⟨fs2, asked, rfl⟩ := onFs_run second
  unfold fileAppend
  rw [run_bind sized, run_bind asked]
  cases known with
  | true =>
    obtain ⟨res, s3, third, run⟩ := bind_run run
    obtain ⟨fs3, written, rfl⟩ := onFs_run third
    exact ⟨res, fs3, written, run⟩
  | false =>
    obtain ⟨_, s3, third, run⟩ := bind_run run
    obtain ⟨fs3, touched, rfl⟩ := onFs_run third
    obtain ⟨res, s4, fourth, run⟩ := bind_run run
    obtain ⟨fs4, written, rfl⟩ := onFs_run fourth
    refine ⟨res, fs4, ?_, run⟩
    exact (run_bind touched).trans written

theorem keepsOpen_append {user : UserSpace} {pcb : Nat}
    (safe : AppendSafe s.fs.disk (user.string (s.sched.pcbs pcb).regs.ebx)
      (user.string (s.sched.pcbs pcb).regs.ecx).bytes.length)
    (run : sysCallFileAppend user pcb s = .ok ((), s')) : KeepsOpen kept s s' := by
  obtain ⟨res, fs, done, rest⟩ := fileAppend_call run
  have spares : Spares (nameBlocks (openNames s.sched)) NoFile s.fs fs := spares_fileAppend safe done
  have written : KeepsOpen kept s { s with fs := fs } := keepsOpen_spares spares fun _ _ _ => id
  exact IsTrans.trans _ _ _ written (keepsOpen_answer pcb res _ () s' rest)

end

end Delos.Invariants
