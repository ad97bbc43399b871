import Delos.Invariants.FiledRuns

/-!
# The files at the start

The start of the scheduler makes the stdout files of the terminals and marks them, and
leaves the files alone otherwise. If there is room for them, no name is open and the file
system is as the operations on the files have left it.
-/
namespace Delos.Invariants
open Lib Source

/-- The stdout file of a terminal. -/
def shellFile (i : Fin 4) : List FileOperation := [.touch (shellStdout i), .setAsSystemFile (shellStdout i)]

def shellFiles : List FileOperation := shellFile 0 ++ (shellFile 1 ++ (shellFile 2 ++ shellFile 3))

/-- Only the scheduler has changed. -/
structure OnlySched (s s' : System) : Prop where
  names : SameNames s.sched s'.sched
  fs : s'.fs = s.fs

section
variable {s s' : System} {fs fs' : Fs} {heap : ByteMemory} {live live' others : List (Nat × Nat)}
  {ops ops' : List FileOperation} {loader : Loader} {pcb : Nat}

instance : IsPreorder System OnlySched where
  refl _ := ⟨sameNames_refl, rfl⟩
  trans _ _ _ first second := ⟨first.names.trans second.names, second.fs.trans first.fs⟩

theorem only_onSched {f : Sched → Sched} (same : ∀ σ, SameNames σ (f σ)) : Along OnlySched (onSched f) :=
  along_modify fun s => ⟨same s.sched, rfl⟩

/-- A program that stops goes along every relation. -/
theorem only_panic (message : String) : Along OnlySched (onFs (panicWith message)) := by
  intro s _ s' run
  obtain ⟨fs, done, _⟩ := onFs_run run
  cases done

theorem only_createProcess (filename : CString) (ppid : Nat) (stdout : CString) (shellId entry cr3 : Nat) :
    Along OnlySched (createProcess filename ppid stdout shellId entry cr3) := by
  unfold createProcess createProcessUnless
  refine along_ite (fun _ => along_pure _) fun _ => ?_
  split
  next => exact along_pure _
  next =>
    refine along_bind (along_bind along_get fun _ => along_pure _) fun σ => along_ite (fun _ => ?_) fun _ => ?_
    · exact along_bind (only_panic _) fun _ => along_pure _
    · refine along_bind (only_onSched fun _ => sameNames_newPcb) fun _ => ?_
      exact along_bind (only_onSched fun _ => sameNames_listAddLast) fun _ => along_pure _

theorem runAll_append (first : runAll ops fs = .ok fs') (second : Except Stop Fs) (rest : runAll ops' fs' = second) :
    runAll (ops ++ ops') fs = second := by
  induction ops generalizing fs with
  | nil =>
    cases first
    exact rest
  | cons op ops ih =>
    cases done : op.run fs with
    | error e => simp [runAll, done, bind, Except.bind] at first
    | ok p =>
      simp only [runAll, done, bind, Except.bind, List.cons_append] at first ⊢
      exact ih first

/-- The file is made and marked, and the shell created. -/
theorem createShell_files {i : Fin 4} (run : createShell loader i s = .ok (pcb, s')) :
    runAll (shellFile i) s.fs = .ok s'.fs ∧ SameNames s.sched s'.sched := by
  unfold createShell at run
  obtain ⟨res, s1, first, run⟩ := bind_run run
  obtain ⟨fs1, touched, rfl⟩ := onFs_run first
  obtain ⟨res', s2, second, run⟩ := bind_run run
  obtain ⟨fs2, marked, rfl⟩ := onFs_run second
  have files : runAll (shellFile i) s.fs = .ok fs2 := by
    simp [shellFile, runAll, FileOperation.run, touched, marked, bind, Except.bind]
  obtain ⟨child, s3, third, run⟩ := bind_run run
  have created := only_createProcess _ _ _ _ _ _ _ _ _ third
  cases child with
  | none => cases run
  | some child =>
    cases run
    refine ⟨?_, created.names.trans (sameNames_rest rfl rfl)⟩
    rw [files, created.fs]

theorem only_setReady (pcb : Nat) : Along OnlySched (setReady pcb) := only_onSched fun _ => sameNames_setReady

theorem createShells_files (run : createShells loader s = .ok ((), s')) :
    runAll shellFiles s.fs = .ok s'.fs ∧ SameNames s.sched s'.sched := by
  unfold createShells at run
  obtain ⟨first, s1, run1, run⟩ := bind_run run
  obtain ⟨second, s2, run2, run⟩ := bind_run run
  obtain ⟨_, t2, ready2, run⟩ := bind_run run
  obtain ⟨third, s3, run3, run⟩ := bind_run run
  obtain ⟨_, t3, ready3, run⟩ := bind_run run
  obtain ⟨fourth, s4, run4, run⟩ := bind_run run
  have last : Along OnlySched (setReady fourth >>= fun _ => setReady first) :=
    along_bind (only_setReady _) fun _ => only_setReady _
  have ready2 := only_setReady _ _ _ _ ready2
  have ready3 := only_setReady _ _ _ _ ready3
  have ready4 := last _ _ _ run
  obtain ⟨files1, names1⟩ := createShell_files run1
  obtain ⟨files2, names2⟩ := createShell_files run2
  obtain ⟨files3, names3⟩ := createShell_files run3
  obtain ⟨files4, names4⟩ := createShell_files run4
  rw [ready2.fs] at files3
  rw [ready3.fs] at files4
  rw [ready4.fs]
  refine ⟨runAll_append files1 _ (runAll_append files2 _ (runAll_append files3 _ files4)), ?_⟩
  have shells := (names1.trans names2).trans (ready2.names.trans names3)
  exact (shells.trans (ready3.names.trans names4)).trans ready4.names

theorem only_switchToNextProcess : Along OnlySched switchToNextProcess := by
  intro s _ s' run
  unfold switchToNextProcess at run
  rw [run_bind (getSched_run s)] at run
  split at run
  next => cases run
  next =>
    cases run
    exact ⟨sameNames_dispatchNext.trans sameNames_setState, rfl⟩

/-- What the start does to the files, but for the screen. -/
theorem startProcesses_files (run : startProcesses loader s = .ok ((), s')) :
    (∃ fs, runAll shellFiles s.fs = .ok fs ∧ Shown fs s'.fs) ∧ SameNames s.sched s'.sched := by
  unfold startProcesses initProcessScheduler at run
  obtain ⟨_, s4, first, run⟩ := bind_run run
  obtain ⟨idle, s1, created, first⟩ := bind_run first
  have idleOnly := only_createProcess _ _ _ _ _ _ _ _ _ created
  cases idle with
  | none => cases first
  | some idle =>
    obtain ⟨_, s2, waiting, first⟩ := bind_run first
    have waitingOnly : OnlySched s1 s2 := by
      cases waiting
      exact ⟨sameNames_setState.trans (sameNames_rest rfl rfl), rfl⟩
    obtain ⟨_, s3, shells, first⟩ := bind_run first
    obtain ⟨files, names⟩ := createShells_files shells
    have switched := only_switchToNextProcess _ _ _ run
    have drawn : SameNames s3.sched s4.sched ∧ Shown s3.fs s4.fs := by
      cases first
      exact ⟨sameNames_rest rfl rfl, _, rfl⟩
    rw [waitingOnly.fs, idleOnly.fs] at files
    refine ⟨⟨s3.fs, files, ?_⟩, ?_⟩
    · rw [switched.fs]
      exact drawn.2
    · have started := (idleOnly.names.trans waitingOnly.names).trans names
      exact (started.trans drawn.1).trans switched.names

/-! ## A sound file system -/

theorem owned_sublist (owned : Owned heap live) (less : live'.Sublist live) : Owned heap live' := by
  obtain ⟨bs, inv⟩ := owned
  refine ⟨bs, inv.stored, inv.tiled, inv.large, inv.mapped, fun region member => ?_, ?_⟩
  · exact inv.owners region (less.subset member)
  · exact inv.distinct.sublist (less.map Prod.fst)

/-- Blocks with other owners do not matter. -/
theorem parked_alone (parked : Parked fs others) : Parked fs [] := by
  cases parked with
  | empty none owned => exact .empty none (owned_sublist owned (List.nil_sublist _))
  | folder files size owned pointer =>
    exact .folder files size (owned_sublist owned (((List.nil_sublist _).cons₂ _).cons₂ _)) pointer

/-- The start behind any ready operations, the last of which make the stdout files. -/
theorem filed_start {start s0 : Fs} (boot : Boot start)
    (reaches : Reaches (fun disk op => op.Ready disk) start ops fs) (files : runAll shellFiles s0 = .ok fs)
    (run : startProcesses loader s = .ok ((), s')) (same : s.fs = s0) (none : s.sched.created = 0) :
    Filed (openNames s'.sched) s'.fs := by
  obtain ⟨⟨fs', made, screen, shown⟩, names⟩ := startProcesses_files run
  rw [same] at made
  obtain rfl : fs = fs' := Except.ok.inj (files.symm.trans made)
  obtain ⟨others, dir, es, lost, parked, catalog⟩ := reaches_catalog boot reaches
  have nobody : openNames s'.sched = [] := by
    rw [openNames_same names, openNames, none]
    rfl
  rw [nobody, shown]
  exact ⟨⟨dir, es, lost, (parked_alone parked).onScreen screen, catalog⟩, fun a inside => absurd inside List.not_mem_nil⟩

end

end Delos.Invariants
