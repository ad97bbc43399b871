import Delos.Lib.Runs
import Delos.Invariants.FileSystemRuns
import Delos.Invariants.SchedulerStart

/-!
# Runs of the scheduler

A run starts behind `_kernel_main` and takes one interrupt after the other. For each
interrupt the number of list nodes that the kernel heap has memory for is arbitrary.
-/
namespace Delos.Invariants
open Lib Source

/-- The processes have been started. -/
def Started (s : System) : Prop :=
  ∃ loader s0, Fresh s0 ∧ startProcesses loader s0 = .ok ((), s)

def Taken (s : System) (e : Nat × Event) (s' : System) : Prop :=
  Happens s e.2 ∧ interrupt e.1 e.2 s = .ok ((), s')

/-- Neither a node is missing nor the idle process killed. -/
def Orderly (s : System) (e : Nat × Event) : Prop := eventNodes e.2 ≤ e.1 ∧ ¬ KillsIdle s e.2

/-- Every interrupt may be taken. -/
def Anyhow (_ : System) (_ : Nat × Event) : Prop := True

section
variable {s s' : System} {e : Nat × Event} {full : Prop}

theorem scheduled_withRoom (room : Nat) (scheduled : Scheduled full s.sched) :
    Scheduled full (withRoom room s).sched := by
  obtain ⟨queued, alive, active, focus, idlePid⟩ := scheduled
  exact ⟨queued.same ⟨fun _ => .refl _, rfl, rfl, rfl, fun _ => rfl, fun _ => rfl⟩, alive, active, focus,
    idlePid⟩

theorem Queued.weaken {σ : Sched} {out : List Nat} (queued : Queued full out σ) : Queued False out σ :=
  { queued with complete := fun impossible => impossible.elim }

theorem scheduled_weaken {σ : Sched} (scheduled : Scheduled full σ) : Scheduled False σ :=
  { scheduled with queued := scheduled.queued.weaken }

-- the comparison of two large numbers would otherwise be unfolded
attribute [local irreducible] startProcesses

theorem scheduled_start (started : Started s) :
    Scheduled True s.sched ∧ Numbered s.sched ∧ NobodyBlocked s.sched := by
  obtain ⟨_, _, fresh, run⟩ := started
  have result := meets_result (startProcesses_finishes fresh) run
  exact result

/-- The idle process does not survive its own page fault. -/
theorem killsIdle_dead {event : Event} (scheduled : Scheduled full s.sched) (kills : KillsIdle s event)
    (step : Interrupted s event s') : s'.sched.idleProcess ∉ s'.sched.lists .all := by
  have idleDies : Dispatches s (Sched.aborted s.sched.runningProcess s.sched) s' →
      s.sched.runningProcess = s.sched.idleProcess →
      s'.sched.idleProcess ∉ s'.sched.lists .all := by
    intro dispatch idle
    have dispatched := dispatched_switched (σ := Sched.aborted s.sched.runningProcess s.sched)
    obtain ⟨_, _, _, _, _, fields⟩ := killed_fields (p := s.sched.runningProcess)
      (σ := s.sched.wakeUpParentProcess (s.sched.pcbs s.sched.runningProcess).ppid 1)
    have moved : Moved s.sched
      (s.sched.wakeUpParentProcess (s.sched.pcbs s.sched.runningProcess).ppid 1) := moved_wake
    rw [dispatch.sched, dispatched.all, dispatched.idle, Sched.aborted, fields]
    simp only [moved.idle, moved.all]
    rw [idle]
    exact scheduled.queued.unique.not_mem_erase
  cases step with
  | tick _ _ | timer _ | systemCall _ _ | fault _ | shell _ _ _ | abort _ _ | noTerminal _ _
  | terminal _ _ _ => exact absurd kills id
  | delivered _ _ _ _ _ => exact absurd kills.1 (by decide)
  | dropped _ _ nobody =>
    obtain ⟨_, _, pcb, first, focused⟩ := kills
    exact absurd focused (nobody pcb first)
  | pageFault _ _ dispatch => exact idleDies dispatch kills.2.1

theorem taken_interrupted (taken : Taken s e s') : (s.sched.runningProcess ∈ s.sched.lists .all ∧
    s.sched.idleProcess ∈ s.sched.lists .all) ∧ Interrupted (withRoom e.1 s) e.2 s' :=
  interrupt_run taken.2

theorem happens_withRoom {room : Nat} {event : Event} (happens : Happens s event) :
    Happens (withRoom room s) event := by
  cases event <;> exact happens

theorem killsIdle_withRoom {room : Nat} {event : Event} (kills : KillsIdle (withRoom room s) event) :
    KillsIdle s event := by
  cases event <;> exact kills

/-- The step lemma of the runs in which no process is lost. -/
theorem scheduled_taken (scheduled : Scheduled True s.sched) (orderly : Orderly s e)
    (taken : Taken s e s') : Scheduled True s'.sched :=
  (scheduled_withRoom _ scheduled).step (fun _ => orderly.1) (happens_withRoom taken.1)
    (fun kills => orderly.2 (killsIdle_withRoom kills)) (taken_interrupted taken).2

theorem numbered_taken (scheduled : Scheduled True s.sched) (numbered : Numbered s.sched)
    (orderly : Orderly s e) (taken : Taken s e s') : Numbered s'.sched := by
  have same : Numbered (withRoom e.1 s).sched :=
    ⟨numbered.unique, numbered.created, numbered.distinct, numbered.taken, numbered.held⟩
  exact same.step (scheduled_withRoom _ scheduled) orderly.1 (taken_interrupted taken).2

theorem scheduled_run (run : Run Started Orderly Taken s) : Scheduled True s.sched ∧ Numbered s.sched := by
  apply run.invariant
  · intro s started
    obtain ⟨scheduled, numbered, _⟩ := scheduled_start started
    exact ⟨scheduled, numbered⟩
  · rintro s e s' ⟨scheduled, numbered⟩ orderly taken
    exact ⟨scheduled_taken scheduled orderly taken, numbered_taken scheduled numbered orderly taken⟩

/-- What holds in every run, as long as there is an idle process. -/
theorem scheduled_anyhow (run : Run Started Anyhow Taken s)
    (idle : s.sched.idleProcess ∈ s.sched.lists .all) : Scheduled False s.sched := by
  revert idle
  apply run.invariant
  · exact fun s started _ => scheduled_weaken (scheduled_start started).1
  · intro s e s' before _ taken idle
    obtain ⟨⟨_, alive⟩, step⟩ := taken_interrupted taken
    have scheduled := scheduled_withRoom e.1 (before alive)
    refine scheduled.step (fun impossible => impossible.elim) (happens_withRoom taken.1) ?_ step
    exact fun kills => killsIdle_dead scheduled kills step idle

end

/-! ## Runs with a record of what has happened -/

section Recorded
variable {γ : Type} {note : System → Event → γ → γ} {nothing : γ} {allowed : System × γ → Nat × Event → Prop}

def RecordedStart (nothing : γ) (o : System × γ) : Prop := Started o.1 ∧ o.2 = nothing

/-- `note` is told every interrupt and the state that it finds. -/
def Recorded (note : System → Event → γ → γ) (o : System × γ) (e : Nat × Event) (o' : System × γ) : Prop :=
  Taken o.1 e o'.1 ∧ o'.2 = note o.1 e.2 o.2

theorem recorded_run {o : System × γ} (run : Run (RecordedStart nothing) allowed (Recorded note) o) :
    Run Started Anyhow Taken o.1 := by
  induction run with
  | init started => exact .init started.1
  | step _ _ next ih => exact .step ih trivial next.1

theorem run_recorded {s : System} (run : Run Started Anyhow Taken s) (note : System → Event → γ → γ)
    (nothing : γ) : ∃ g, Run (RecordedStart nothing) (fun _ _ => True) (Recorded note) (s, g) := by
  induction run with
  | init started => exact ⟨nothing, .init ⟨started, rfl⟩⟩
  | step _ _ next ih =>
    obtain ⟨g, before⟩ := ih
    exact ⟨_, .step before trivial ⟨next, rfl⟩⟩

end Recorded

/-! ## Runs behind a clear disk -/

instance (s : System) (event : Event) : Decidable (Happens s event) :=
  match event with
  | .systemCall _ _ | .fault _ =>
    inferInstanceAs (Decidable (s.sched.runningProcess ≠ s.sched.idleProcess))
  | .enter line _ => inferInstanceAs (Decidable (line.bytes.length < keyboardBuffSize))
  | .terminal number => inferInstanceAs (Decidable (1 ≤ number ∧ number ≤ numberOfTerminals))
  | .timer _ | .abort _ => inferInstanceAs (Decidable True)

def noPcb : Pcb where
  pid := 0
  ppid := 0
  regs := ⟨0, 0, 0, 0, 0, 0, 0, 0, 0, 0, 0⟩
  name := ⟨[], plain_nil⟩
  stdout := ⟨[], plain_nil⟩
  state := .new
  shellId := 0
  openFiles := []

/-- The nodes that the kernel heap has memory for in these runs. -/
def plenty : Nat := 100

def freshSystem (fs : Fs) : System where
  fs := fs
  sched :=
    { pcbs := fun _ => noPcb, created := 0, pids := fun _ => false, lists := fun _ => []
      runningProcess := 0, idleProcess := 0, latestRunning := fun _ => 0, focusedTerminal := 0
      room := plenty }
  lastExitCode := 0
  ticks := 0
  switches := []
  delivered := []

/-- One interrupt after the other, as long as they can happen. -/
def script : List Event → System → Except Stop System
  | [], s => .ok s
  | event :: rest, s =>
    if Happens s event then do
      let (_, s) ← interrupt plenty event s
      script rest s
    else .error .wildAccess

/-- The loaded programs start where the linker script puts them. -/
def plainLoader : Loader := fun _ => (userStart, 0)

def bootRun (events : List Event) : Except Stop System := do
  let fs ← clearRun []
  let (_, s) ← startProcesses plainLoader (freshSystem fs)
  script events s

/-! ## The start without its files -/

section Blind
variable {α β : Type} {s : System} {fs : Fs} {loader : Loader} {i : Fin 4}

def withFs (fs : Fs) (s : System) : System := { s with fs := fs }

/-- The file system is neither read nor written. -/
def Blind (x : Handler α) : Prop := ∀ s fs, x (withFs fs s) = (x s).map fun p => (p.1, withFs fs p.2)

theorem blind_bind {x : Handler α} {f : α → Handler β} (first : Blind x) (rest : ∀ a, Blind (f a)) :
    Blind (x >>= f) := by
  intro s fs
  cases run : x s with
  | error e =>
    have stops : x (withFs fs s) = .error e := by rw [first, run]; rfl
    rw [run_stop run, run_stop stops]
    rfl
  | ok p =>
    have goes : x (withFs fs s) = .ok (p.1, withFs fs p.2) := by rw [first, run]; rfl
    rw [run_bind run, run_bind goes]
    exact rest p.1 p.2 fs

theorem blind_onSched (f : Sched → Sched) : Blind (onSched f) := fun _ _ => rfl

-- the comparison of two large numbers would otherwise be unfolded
attribute [local irreducible] framesTakenUp

theorem blind_createProcess (filename : CString) (ppid : Nat) (stdout : CString) (shellId entry cr3 : Nat) :
    Blind (createProcess filename ppid stdout shellId entry cr3) := by
  unfold createProcess createProcessUnless
  split
  · exact fun _ _ => rfl
  · cases getProgram filename with
    | none => exact fun _ _ => rfl
    | some _ =>
      intro s fs
      have known : ∀ s : System, (getSched : Handler Sched) s = .ok (s.sched, s) := fun _ => rfl
      dsimp only
      rw [run_bind (known s), run_bind (known (withFs fs s))]
      show (if framesTakenUp s.sched then _ else _ : Handler (Option Nat)) (withFs fs s) = _
      split
      · rfl
      · rfl

/-- A shell whose stdout file is there already. -/
def enrolShell (loader : Loader) (i : Fin 4) : Handler Nat := do
  let (entry, cr3) := loader (i + 1)
  let pcb ← createProcess shellExe 0 (shellStdout i) (i + 1) entry cr3
  match pcb with
  | none => throw .wildAccess
  | some pcb => do
    onSched fun s => { s with latestRunning := Function.update s.latestRunning i pcb }
    pure pcb

theorem blind_enrolShell : Blind (enrolShell loader i) := by
  apply blind_bind (blind_createProcess _ _ _ _ _ _)
  intro pcb
  cases pcb with
  | none => exact fun _ _ => rfl
  | some pcb => exact blind_bind (blind_onSched _) fun _ _ _ => rfl

/-- `touch` and `set_as_system_file` for the stdout file of a terminal. -/
def stdoutFile (i : Fin 4) : Kernel Unit := do
  let _ ← touch (shellStdout i)
  let _ ← setAsSystemFile (shellStdout i)

theorem onFs_known {x : Kernel α} {a : α} (run : x s.fs = .ok (a, fs)) : onFs x s = .ok (a, withFs fs s) := by
  rw [onFs, run]
  rfl

/-- `x` does the same as `y` does when the files are there already. -/
def Splits (x : Handler α) (files : Kernel Unit) (y : Handler α) : Prop :=
  ∀ s fs, files s.fs = .ok ((), fs) → x s = y (withFs fs s)

theorem splits_shell : Splits (createShell loader i) (stdoutFile i) (enrolShell loader i) := by
  intro s fs made
  obtain ⟨res, fs1, first, made⟩ := bind_run made
  obtain ⟨res', fs2, second, last⟩ := bind_run made
  obtain rfl : fs2 = fs := congrArg Prod.snd (Except.ok.inj last)
  unfold createShell
  rw [run_bind (onFs_known first), run_bind (onFs_known (s := withFs fs1 s) second)]
  rfl

theorem splits_then {x y : Handler α} {files : Kernel Unit} (first : Splits x files y) (f : α → Handler β) :
    Splits (x >>= f) files (y >>= f) := by
  intro s fs made
  show (x s >>= _) = (y (withFs fs s) >>= _)
  rw [first s fs made]

theorem splits_bind {x y : Handler α} {files files' : Kernel Unit} {f g : α → Handler β} (first : Splits x files y)
    (blind : Blind y) (rest : ∀ a, Splits (f a) files' (g a)) : Splits (x >>= f) (files >>= fun _ => files') (y >>= g) := by
  intro s fs made
  obtain ⟨_, fs1, made1, made⟩ := bind_run made
  have same := first s fs1 made1
  rw [blind] at same
  have later := blind s fs
  cases run : y s with
  | error e =>
    rw [run] at same later
    rw [run_stop same, run_stop later]
  | ok p =>
    rw [run] at same later
    rw [run_bind same, run_bind later]
    exact rest p.1 (withFs fs1 p.2) fs made

theorem splits_behind {x : Handler α} {files : Kernel Unit} {f g : α → Handler β} (blind : Blind x)
    (rest : ∀ a, Splits (f a) files (g a)) : Splits (x >>= f) files (x >>= g) := by
  intro s fs made
  have same := blind s s.fs
  have later := blind s fs
  cases run : x s with
  | error e =>
    rw [run] at later
    rw [run_stop run, run_stop later]
  | ok p =>
    rw [run] at same later
    rw [show x s = _ from same] at run
    rw [run_bind (show x s = _ from same), run_bind later]
    exact rest p.1 (withFs s.fs p.2) fs made

/-- The files of the four shells. -/
def bootFiles : Kernel Unit := do
  stdoutFile 0
  stdoutFile 1
  stdoutFile 2
  stdoutFile 3

/-- The shells one after the other. -/
def enrolShells (loader : Loader) : Handler Unit := do
  let first ← enrolShell loader 0
  let second ← enrolShell loader 1
  setReady second
  let third ← enrolShell loader 2
  setReady third
  let fourth ← enrolShell loader 3
  setReady fourth
  setReady first

theorem splits_shells : Splits (createShells loader) bootFiles (enrolShells loader) := by
  apply splits_bind splits_shell blind_enrolShell
  intro first
  apply splits_bind splits_shell blind_enrolShell
  intro second
  apply splits_behind (blind_onSched _)
  intro _
  apply splits_bind splits_shell blind_enrolShell
  intro third
  apply splits_behind (blind_onSched _)
  intro _
  exact splits_then splits_shell _

/-- `init_process_scheduler` behind the files. -/
def enrolProcesses (loader : Loader) : Handler Unit := do
  let (entry, cr3) := loader 0
  let idle ← createProcess idleExe 0 ⟨[], plain_nil⟩ 0 entry cr3
  match idle with
  | none => throw .wildAccess
  | some idle => do
    onSched fun s => { s.setState idle .waiting with idleProcess := idle, runningProcess := idle }
    enrolShells loader
    onSched fun s => { s with focusedTerminal := 1 }
    onFs (emit (.setColor .cyan))
    onFs (emit (.terminalIndex 1))
    onFs (emit .resetColor)

theorem splits_start : Splits (startProcesses loader) bootFiles (enrolProcesses loader >>= fun _ => switchToNextProcess) := by
  apply splits_then
  apply splits_behind (blind_createProcess _ _ _ _ _ _)
  intro idle
  cases idle with
  | none => exact fun _ _ _ => rfl
  | some idle => exact splits_behind (blind_onSched _) fun _ => splits_then splits_shells _

end Blind

def shellRecord (i : Fin 4) (start flags : Nat) : List UInt8 := rawRecord (shellStdout i) start 0 flags

/-- `flags` are those of the last record, which is written anew when it is marked as a system file. -/
def bootRecords (flags : Nat) : List UInt8 :=
  readmeRecord ++ asciiRecord ++ primesRecord 94 ++ shellRecord 0 14 2 ++ shellRecord 1 16 2 ++ shellRecord 2 19 2 ++
    shellRecord 3 21 flags

def bootedFs : Fs where
  page0 := ⟨0, 0⟩
  heap := savedHeap 7 (bootRecords 2) ((bootRecords 0).drop 25)
  disk := savedDisk [1, 12, 3, 4, 5, 6, eofCluster, 8, 9, eofCluster, 11, 13, 18, eofCluster, 15, eofCluster, 17,
    eofCluster, eofCluster, 20, eofCluster, 22, eofCluster] 7 (bootRecords 2)
  root := 0
  screen := []

theorem bootFiles_ready : bootFiles readyFs = .ok ((), bootedFs) := by
  have same : endsWith (fun p => decide (p = ((), bootedFs))) (bootFiles readyFs) = true := by decide +kernel
  obtain ⟨p, run, holds⟩ := endsWith_iff.mp same
  rw [run, of_decide_eq_true holds]

attribute [local irreducible] readyFs bootedFs startProcesses

theorem bootRun_booted (events : List Event) : bootRun events = (do
    let (_, s) ← (enrolProcesses plainLoader >>= fun _ => switchToNextProcess) (freshSystem bootedFs)
    script events s) := by
  have splits : Splits (startProcesses plainLoader) bootFiles
      (enrolProcesses plainLoader >>= fun _ => switchToNextProcess) := splits_start
  have start := splits (freshSystem readyFs) bootedFs bootFiles_ready
  rw [bootRun, clearRun_ready]
  show (startProcesses plainLoader (freshSystem readyFs) >>= _) = _
  rw [start]
  rfl

theorem script_run {start : System → Prop} {allowed : System → Nat × Event → Prop} {events : List Event}
    {s s' : System} (before : Run start allowed Taken s) (free : ∀ s, ∀ event ∈ events, allowed s (plenty, event))
    (run : script events s = .ok s') : Run start allowed Taken s' := by
  induction events generalizing s with
  | nil =>
    obtain rfl : s = s' := Except.ok.inj run
    exact before
  | cons event rest ih =>
    rw [script] at run
    split at run
    next happens =>
      cases first : interrupt plenty event s with
      | error e => simp [first, bind, Except.bind] at run
      | ok p =>
        simp only [first, bind, Except.bind] at run
        refine ih (.step (e := (plenty, event)) before (free _ _ List.mem_cons_self) ⟨happens, first⟩) ?_ run
        exact fun s event inside => free s event (List.mem_cons_of_mem _ inside)
    next => cases run

attribute [local irreducible] clearBoot

theorem bootRun_started {events : List Event} {s' : System} (run : bootRun events = .ok s') :
    ∃ s, Started s ∧ script events s = .ok s' := by
  cases disk : clearRun [] with
  | error e => simp [bootRun, disk, bind, Except.bind] at run
  | ok fs =>
    cases started : startProcesses plainLoader (freshSystem fs) with
    | error e => simp [bootRun, disk, started, bind, Except.bind] at run
    | ok p =>
      simp only [bootRun, disk, started, bind, Except.bind] at run
      have fresh : Fresh (freshSystem fs) :=
        ⟨rfl, fun _ => rfl, fun _ => rfl, fun _ => rfl, (by decide : 9 ≤ 100), rfl⟩
      exact ⟨p.2, ⟨plainLoader, _, fresh, started⟩, run⟩

theorem script_taken {event : Event} {test : System → Bool} {s : System}
    (ends : endsWith test (script [event] s) = true) :
    ∃ s', Taken s (plenty, event) s' ∧ test s' = true := by
  obtain ⟨s', run, holds⟩ := endsWith_iff.mp ends
  rw [script] at run
  split at run
  next happens =>
    cases first : interrupt plenty event s with
    | error e => simp [first, bind, Except.bind] at run
    | ok p =>
      simp only [first, bind, Except.bind] at run
      obtain rfl : p.2 = s' := Except.ok.inj run
      exact ⟨p.2, ⟨happens, first⟩, holds⟩
  next => cases run

/-- A run that is known to end in a state of some kind. -/
theorem bootRun_reaches {events : List Event} {test : System → Bool}
    (ends : endsWith test (bootRun events) = true) :
    ∃ s, Run Started Anyhow Taken s ∧ test s = true := by
  obtain ⟨s, run, holds⟩ := endsWith_iff.mp ends
  obtain ⟨s0, started, run⟩ := bootRun_started run
  exact ⟨s, script_run (.init started) (fun _ _ _ => trivial) run, holds⟩

def calcExe : CString := ⟨textBytes "calc.exe", by decide⟩

/-- A system call in which every string is the name of a program. -/
def callWith (number ebx edi : Nat) : Event :=
  .systemCall ⟨number, 0, 0, ebx, 0, 0, 0, edi, 0, 0⟩
    ⟨fun _ => calcExe, fun _ _ => [], fun _ => none, userStart, 0⟩

theorem boots : ∃ s, Started s := by
  have ends : endsWith (fun _ => true) (bootRun []) = true := by
    rw [bootRun_booted]
    decide +kernel
  obtain ⟨s, run, _⟩ := endsWith_iff.mp ends
  obtain ⟨s0, started, _⟩ := bootRun_started run
  exact ⟨s0, started⟩

end Delos.Invariants
