import Delos.Source.Syscalls

/-!
# What a system call does to the processes

The file system and the screen have no part in scheduling. `CallEffect` lists all
that a system call can do to the lists and the PCBs: most calls only set EAX and
make the caller ready again.
-/
namespace Delos.Invariants
open Lib Source

/-- The program may stop for any reason. -/
abbrev Finishes {α : Type} (x : Handler α) (s : System) (post : α → System → Prop) : Prop :=
  Meets (fun _ => True) x s post

section Rules
variable {α β : Type} {s : System} {post : β → System → Prop}

/-- A call of the file system changes nothing but the file system. -/
theorem finishes_fs {x : Kernel α} {f : α → Handler β}
    (rest : ∀ a fs, Finishes (f a) { s with fs := fs } post) : Finishes (onFs x >>= f) s post := by
  refine meets_bind.mpr ?_
  unfold Meets onFs
  split
  next a s' run =>
    split at run
    next a' fs _ =>
      cases run
      exact rest a fs
    next => cases run
  next => trivial

theorem finishes_fs_last {x : Kernel β} (rest : ∀ a fs, post a { s with fs := fs }) :
    Finishes (onFs x) s post := by
  unfold Finishes Meets onFs
  split
  next a s' run =>
    split at run
    next a' fs _ =>
      cases run
      exact rest a fs
    next => cases run
  next => trivial

theorem meets_onFs {allowed : Stop → Prop} {x : Kernel α} {post : α → Fs → Prop}
    (callee : Meets allowed x s.fs post) :
    Meets allowed (onFs x) s fun a s' => ∃ fs, s' = { s with fs := fs } ∧ post a fs := by
  unfold Meets at callee
  unfold Meets onFs
  split
  next a s' run =>
    split at run
    next a' fs first =>
      cases run
      rw [first] at callee
      exact ⟨fs, rfl, callee⟩
    next => cases run
  next e run =>
    split at run
    next => cases run
    next e' first =>
      cases run
      rw [first] at callee
      exact callee

theorem finishes_throw {e : Stop} : Finishes (throw e : Handler β) s post := meets_throw.mpr trivial

theorem finishes_panic {message : String} {f : Unit → Handler β} :
    Finishes (onFs (panicWith message) >>= f) s post := meets_bind.mpr trivial

theorem finishes_storeToUser {address len : Nat} {f : Unit → Handler β} (rest : Finishes (f ()) s post) :
    Finishes (storeToUser address len >>= f) s post := by
  unfold storeToUser
  split
  · exact (meets_next rfl).mpr rest
  · exact meets_bind.mpr finishes_throw

end Rules

namespace Sched

/-- What `kill_process` leaves. -/
def killed (pcb : Nat) (σ : Sched) : Sched :=
  let p := σ.pcbs pcb
  let σ := Sched.forgetProcess pcb (freePid p.pid σ)
  { σ with
    pcbs := Function.update σ.pcbs pcb { σ.pcbs pcb with openFiles := [] }
    latestRunning := Function.update σ.latestRunning (Sched.terminalIndex p.shellId) σ.idleProcess }

/-- What `switch_to_next_process` leaves. -/
def switched (σ : Sched) : Sched :=
  (dispatchNext σ).setState (dispatchNext σ).runningProcess .running

/-- The new process of `create_process`, whose number is that of the processes before. -/
def withProcess (filename : CString) (ppid : Nat) (stdout : CString) (shellId entry cr3 : Nat)
    (σ : Sched) : Sched :=
  Sched.listAddLast .all σ.created (newPcb filename ppid stdout shellId entry cr3 σ)

end Sched

/-- Only EAX and the open files of the caller, and the memory for nodes, have changed. -/
structure Answered (pcb : Nat) (σ σ' : Sched) : Prop where
  caller : ∃ eax openFiles, σ'.pcbs = Function.update σ.pcbs pcb
    { σ.pcbs pcb with regs := { (σ.pcbs pcb).regs with eax := eax }, openFiles := openFiles }
  lists : σ'.lists = σ.lists
  pids : σ'.pids = σ.pids
  created : σ'.created = σ.created
  running : σ'.runningProcess = σ.runningProcess
  idle : σ'.idleProcess = σ.idleProcess
  latest : σ'.latestRunning = σ.latestRunning
  focused : σ'.focusedTerminal = σ.focusedTerminal
  room : σ.room ≤ σ'.room + 1

/-- What the system call with the number does to the processes. -/
inductive CallEffect (pcb : Nat) (σ : Sched) : Nat → Sched → Prop
  | answer {number : Nat} {σ' : Sched} (answered : Answered pcb σ σ')
      (nodes : number = 109 ∨ σ.room ≤ σ'.room) (other : number ≠ 100) : CallEffect pcb σ number (σ'.setProcessAsReady pcb)
  | exec {filename : CString} {entry cr3 : Nat} {σ0 σ' : Sched}
      (ready : σ0 = (σ.setProcessAsReady pcb).setEax pcb 0) (few : framesTakenUp σ0 = false)
      (made : σ' = Sched.withProcess filename (σ.pcbs pcb).pid (σ.pcbs pcb).stdout
        (σ.pcbs pcb).shellId entry cr3 σ0) :
      CallEffect pcb σ 107
        ((σ'.setEax pcb (σ'.pcbs σ0.created).pid).setProcessAsReady σ0.created)
  | execFailed : CallEffect pcb σ 107 ((σ.setProcessAsReady pcb).setEax pcb 0)
  | fork {entry cr3 : Nat} {σ' : Sched} (few : framesTakenUp σ = false)
      (made : σ' = Sched.withProcess (σ.pcbs pcb).name (σ.pcbs pcb).pid (σ.pcbs pcb).stdout
        (σ.pcbs pcb).shellId entry cr3 σ) :
      CallEffect pcb σ 120
        (((((σ'.setRegs σ.created (forkRegs (σ.pcbs pcb).regs)).setEax pcb 1).setEax σ.created
          0).setProcessAsReady pcb).setProcessAsReady σ.created)
  | wait (alive : σ.existsProcess (σ.pcbs pcb).regs.ebx = true) :
      CallEffect pcb σ 121 (σ.blockProcessOnAnotherProcess pcb)
  | readLine : CallEffect pcb σ 102 (σ.blockProcessOnKeyboard pcb)
  | exit : CallEffect pcb σ 100
      (Sched.killed pcb (σ.wakeUpParentProcess (σ.pcbs pcb).ppid (σ.pcbs pcb).regs.ebx))
  | unknown {number : Nat} (outside : number < 100 ∨ 126 < number ∨ number = 108) :
      CallEffect pcb σ number (Sched.killed pcb σ)

/-- Neither a switch nor the delivery of a line. -/
def Silent (s s' : System) : Prop := s'.switches = s.switches ∧ s'.delivered = s.delivered

section Calls
variable {s : System} {pcb : Nat} {user : UserSpace}

theorem silent_refl : Silent s s := ⟨rfl, rfl⟩

theorem answered_eax (result : Nat) (σ : Sched) : Answered pcb σ (σ.setEax pcb result) :=
  ⟨⟨result, (σ.pcbs pcb).openFiles, rfl⟩, rfl, rfl, rfl, rfl, rfl, rfl, rfl, Nat.le_succ _⟩

theorem answered_refl (σ : Sched) : Answered pcb σ σ :=
  ⟨⟨(σ.pcbs pcb).regs.eax, (σ.pcbs pcb).openFiles, (Function.update_eq_self pcb σ.pcbs).symm⟩, rfl,
    rfl, rfl, rfl, rfl, rfl, rfl, Nat.le_succ _⟩

/-- Most calls end like this. -/
theorem answer_finishes (number : Nat) {result : Nat} {σ : Sched} (answered : Answered pcb σ s.sched)
    (nodes : number = 109 ∨ σ.room ≤ s.sched.room) (other : number ≠ 100) :
    Finishes (setResult pcb result >>= fun _ => setReady pcb) s fun _ s' =>
      CallEffect pcb σ number s'.sched ∧ Silent s s' := by
  refine meets_run rfl ⟨.answer ?_ nodes other, silent_refl⟩
  obtain ⟨⟨eax, openFiles, caller⟩, lists, pids, created, running, idle, latest, focused, room⟩ :=
    answered
  refine ⟨⟨result, openFiles, ?_⟩, lists, pids, created, running, idle, latest, focused, room⟩
  show Function.update s.sched.pcbs pcb _ = _
  rw [caller, Function.update_idem, Function.update_self]

theorem answer_plain {number result : Nat} (other : number ≠ 100) :
    Finishes (setResult pcb result >>= fun _ => setReady pcb) s fun _ s' =>
      CallEffect pcb s.sched number s'.sched ∧ Silent s s' :=
  answer_finishes number (answered_refl s.sched) (.inr (Nat.le_refl _)) other

theorem killProcess_finishes : Finishes (killProcess pcb) s fun _ s' =>
    s'.sched = Sched.killed pcb s.sched ∧ Silent s s' := by
  unfold killProcess
  refine (meets_next rfl).mpr ((meets_next rfl).mpr ((meets_next rfl).mpr ?_))
  apply finishes_fs
  intro _ fs
  exact meets_run rfl ⟨rfl, silent_refl⟩

-- the comparison of two large numbers would otherwise be unfolded
attribute [local irreducible] framesTakenUp

/-- Either there is no such program or the new process is the next one. -/
theorem createProcess_finishes {β : Type} {filename stdout : CString} {ppid shellId entry cr3 : Nat}
    {f : Option Nat → Handler β} {post : β → System → Prop} (failed : Finishes (f none) s post)
    (made : framesTakenUp s.sched = false → Finishes (f (some s.sched.created)) { s with
      sched := Sched.withProcess filename ppid stdout shellId entry cr3 s.sched } post) :
    Finishes (createProcess filename ppid stdout shellId entry cr3 >>= f) s post := by
  unfold createProcess createProcessUnless
  rw [if_neg (by decide)]
  split
  · exact failed
  · apply meets_bind.mpr
    refine (meets_next rfl).mpr ?_
    split
    · exact finishes_panic
    next few =>
      refine (meets_next rfl).mpr ?_
      refine (meets_next rfl).mpr ?_
      exact made (Bool.eq_false_of_not_eq_true few)

theorem fileCall_finishes {number : Nat} {call : Regs → Kernel Nat}
    (other : number ≠ 100) :
    Finishes (fileCall pcb call) s fun _ s' => CallEffect pcb s.sched number s'.sched ∧ Silent s s' := by
  refine (meets_next rfl).mpr ?_
  apply finishes_fs
  intro result fs
  exact answer_plain other

theorem sysCallExit_finishes : Finishes (sysCallExit pcb) s fun _ s' =>
    CallEffect pcb s.sched 100 s'.sched ∧ Silent s s' := by
  unfold sysCallExit
  refine (meets_next rfl).mpr ((meets_next rfl).mpr ((meets_next rfl).mpr ?_))
  apply meets_mono killProcess_finishes
  rintro _ s' ⟨sched, silent⟩
  rw [sched]
  exact ⟨.exit, silent⟩

theorem sysCallPrintf_finishes : Finishes (sysCallPrintf user pcb) s fun _ s' =>
    CallEffect pcb s.sched 101 s'.sched ∧ Silent s s' := by
  unfold sysCallPrintf
  refine (meets_next rfl).mpr ((meets_next rfl).mpr ?_)
  split
  · apply finishes_fs
    intro _ fs
    refine meets_bind.mpr ((meets_next rfl).mpr ?_)
    apply finishes_fs_last
    intro _ fs
    exact meets_run rfl ⟨.answer (answered_refl s.sched) (.inr (Nat.le_refl _)) (by decide), silent_refl⟩
  · refine meets_bind.mpr ((meets_next rfl).mpr ?_)
    apply finishes_fs_last
    intro _ fs
    exact meets_run rfl ⟨.answer (answered_refl s.sched) (.inr (Nat.le_refl _)) (by decide), silent_refl⟩

theorem sysCallMalloc_finishes : Finishes (sysCallMalloc user pcb) s fun _ s' =>
    CallEffect pcb s.sched 103 s'.sched ∧ Silent s s' := by
  unfold sysCallMalloc
  refine (meets_next rfl).mpr ?_
  split
  · exact finishes_throw
  · exact answer_plain (by decide)

/-- A call that ends with the caller in the ready list. -/
theorem ready_finishes {number : Nat} {σ : Sched} (answered : Answered pcb σ s.sched)
    (nodes : σ.room ≤ s.sched.room) (other : number ≠ 100) :
    Finishes (setReady pcb) s fun _ s' => CallEffect pcb σ number s'.sched ∧ Silent s s' :=
  meets_run rfl ⟨.answer answered (.inr nodes) other, silent_refl⟩

theorem sysCallPid_finishes : Finishes (sysCallPid pcb) s fun _ s' =>
    CallEffect pcb s.sched 105 s'.sched ∧ Silent s s' := by
  refine (meets_next rfl).mpr ((meets_next rfl).mpr ?_)
  exact ready_finishes (answered_eax _ s.sched) (Nat.le_refl _) (by decide)

theorem sysCallPpid_finishes : Finishes (sysCallPpid pcb) s fun _ s' =>
    CallEffect pcb s.sched 106 s'.sched ∧ Silent s s' := by
  refine (meets_next rfl).mpr ((meets_next rfl).mpr ?_)
  exact ready_finishes (answered_eax _ s.sched) (Nat.le_refl _) (by decide)

theorem sysCallExec_finishes : Finishes (sysCallExec user pcb) s fun _ s' =>
    CallEffect pcb s.sched 107 s'.sched ∧ Silent s s' := by
  unfold sysCallExec
  refine (meets_next rfl).mpr ?_
  simp only
  split
  · exact finishes_throw
  · refine (meets_next rfl).mpr ((meets_next rfl).mpr ?_)
    apply createProcess_finishes
    · exact meets_run rfl ⟨.execFailed, silent_refl⟩
    · intro few
      refine (meets_next rfl).mpr ((meets_next rfl).mpr ((meets_next rfl).mpr ?_))
      exact meets_run rfl ⟨.exec rfl few rfl, silent_refl⟩

theorem sysCallFork_finishes : Finishes (sysCallFork user pcb) s fun _ s' =>
    CallEffect pcb s.sched 120 s'.sched ∧ Silent s s' := by
  unfold sysCallFork
  refine (meets_next rfl).mpr ?_
  apply createProcess_finishes
  · exact finishes_throw
  · intro few
    refine (meets_next rfl).mpr ((meets_next rfl).mpr ((meets_next rfl).mpr ((meets_next rfl).mpr ?_)))
    exact meets_run rfl ⟨.fork few rfl, silent_refl⟩

theorem sysCallWait_finishes : Finishes (sysCallWait pcb) s fun _ s' =>
    CallEffect pcb s.sched 121 s'.sched ∧ Silent s s' := by
  unfold sysCallWait
  refine (meets_next rfl).mpr ((meets_next rfl).mpr ?_)
  split
  next alive => exact meets_run rfl ⟨.wait alive, silent_refl⟩
  next => exact answer_plain (by decide)

/-- The name of an opened file takes one node. -/
theorem rememberOpenFile_finishes {β : Type} {filename : CString} {f : Unit → Handler β}
    {post : β → System → Prop}
    (rest : ∀ s', Answered pcb s.sched s'.sched → Silent s s' → Finishes (f ()) s' post) :
    Finishes (rememberOpenFile pcb filename >>= f) s post := by
  unfold rememberOpenFile
  apply meets_bind.mpr
  apply finishes_fs
  intro a fs
  apply finishes_fs
  intro _ fs
  refine meets_run rfl (rest _ ?_ silent_refl)
  simp only
  split
  · exact answered_refl s.sched
  · exact ⟨⟨(s.sched.pcbs pcb).regs.eax, _, rfl⟩, rfl, rfl, rfl, rfl, rfl, rfl, rfl, by
      simp only
      omega⟩

theorem sysCallOpen_finishes : Finishes (sysCallOpen user pcb) s fun _ s' =>
    CallEffect pcb s.sched 109 s'.sched ∧ Silent s s' := by
  unfold sysCallOpen
  refine (meets_next rfl).mpr ?_
  apply finishes_fs
  intro known fs
  split
  · apply finishes_fs
    intro result fs
    split
    · apply rememberOpenFile_finishes
      intro s' answered silent
      apply meets_mono (answer_finishes 109 answered (.inl rfl) (by decide))
      rintro _ s'' ⟨effect, silent'⟩
      exact ⟨effect, silent'.1.trans silent.1, silent'.2.trans silent.2⟩
    · exact answer_plain (by decide)
  · exact answer_plain (by decide)

theorem forgetOpenFile_finishes {β : Type} {address : Nat} {f : Unit → Handler β} {post : β → System → Prop}
    (rest : ∀ s', Answered pcb s.sched s'.sched → s.sched.room ≤ s'.sched.room → Silent s s' → Finishes (f ()) s' post) :
    Finishes (forgetOpenFile pcb address >>= f) s post := by
  unfold forgetOpenFile
  apply meets_bind.mpr
  refine (meets_next rfl).mpr ?_
  split
  · apply finishes_fs
    intro _ fs
    refine meets_run rfl (rest _ ?_ (Nat.le_succ _) silent_refl)
    exact ⟨⟨(s.sched.pcbs pcb).regs.eax, _, rfl⟩, rfl, rfl, rfl, rfl, rfl, rfl, rfl, by
      simp only
      omega⟩
  · exact meets_pure.mpr (rest s (answered_refl s.sched) (Nat.le_refl _) silent_refl)

theorem sysCallClose_finishes : Finishes (sysCallClose user pcb) s fun _ s' =>
    CallEffect pcb s.sched 110 s'.sched ∧ Silent s s' := by
  unfold sysCallClose
  refine (meets_next rfl).mpr ?_
  apply finishes_fs
  intro opened fs
  split
  · apply finishes_fs
    intro result fs
    apply forgetOpenFile_finishes
    intro s' answered more silent
    apply meets_mono (answer_finishes 110 answered (.inr more) (by decide))
    rintro _ s'' ⟨effect, silent'⟩
    exact ⟨effect, silent'.1.trans silent.1, silent'.2.trans silent.2⟩
  · exact answer_plain (by decide)

theorem sysCallRead_finishes : Finishes (sysCallRead user pcb) s fun _ s' =>
    CallEffect pcb s.sched 111 s'.sched ∧ Silent s s' := by
  unfold sysCallRead
  refine (meets_next rfl).mpr ?_
  apply finishes_fs
  intro allowed fs
  split
  · apply finishes_fs
    intro p fs
    apply finishes_storeToUser
    exact answer_plain (by decide)
  · exact answer_plain (by decide)

theorem sysCallWrite_finishes : Finishes (sysCallWrite user pcb) s fun _ s' =>
    CallEffect pcb s.sched 112 s'.sched ∧ Silent s s' := by
  unfold sysCallWrite
  refine (meets_next rfl).mpr ?_
  apply finishes_fs
  intro allowed fs
  split
  · apply finishes_fs
    intro result fs
    exact answer_plain (by decide)
  · exact answer_plain (by decide)

theorem sysCallFileAppend_finishes : Finishes (sysCallFileAppend user pcb) s fun _ s' =>
    CallEffect pcb s.sched 124 s'.sched ∧ Silent s s' := by
  unfold sysCallFileAppend
  refine (meets_next rfl).mpr ?_
  apply finishes_fs
  intro size fs
  apply finishes_fs
  intro known fs
  split
  · apply finishes_fs
    intro result fs
    exact answer_plain (by decide)
  · apply finishes_fs
    intro _ fs
    apply finishes_fs
    intro result fs
    exact answer_plain (by decide)

/-- A call that only prints. -/
theorem shown_finishes {number : Nat} {x : Kernel Unit} (other : number ≠ 100) :
    Finishes (onFs x >>= fun _ => setReady pcb) s fun _ s' =>
      CallEffect pcb s.sched number s'.sched ∧ Silent s s' := by
  apply finishes_fs
  intro _ fs
  exact ready_finishes (answered_refl s.sched) (Nat.le_refl _) other

theorem sysCallColorCommand_finishes : Finishes (sysCallColorCommand pcb) s fun _ s' =>
    CallEffect pcb s.sched 125 s'.sched ∧ Silent s s' := by
  unfold sysCallColorCommand
  refine (meets_next rfl).mpr ((meets_next rfl).mpr ?_)
  split
  · apply finishes_fs
    intro _ fs
    exact answer_plain (by decide)
  · exact answer_plain (by decide)

theorem sysCallSetCursor_finishes : Finishes (sysCallSetCursor pcb) s fun _ s' =>
    CallEffect pcb s.sched 126 s'.sched ∧ Silent s s' := by
  unfold sysCallSetCursor
  refine (meets_next rfl).mpr ((meets_next rfl).mpr ?_)
  split
  · split
    · exact answer_plain (by decide)
    · apply finishes_fs
      intro _ fs
      exact answer_plain (by decide)
  · exact answer_plain (by decide)

theorem sysCallExitCode_finishes : Finishes (sysCallExitCode pcb) s fun _ s' =>
    CallEffect pcb s.sched 123 s'.sched ∧ Silent s s' := by
  unfold sysCallExitCode
  refine (meets_next rfl).mpr ((meets_next rfl).mpr ((meets_next rfl).mpr ?_))
  exact ready_finishes (answered_eax _ s.sched) (Nat.le_refl _) (by decide)

theorem unknownSystemCall_finishes {number : Nat} (outside : number < 100 ∨ 126 < number ∨ number = 108) :
    Finishes (unknownSystemCall pcb number) s fun _ s' =>
      CallEffect pcb s.sched number s'.sched ∧ Silent s s' := by
  unfold unknownSystemCall
  apply finishes_fs
  intro _ fs
  apply finishes_fs
  intro _ fs
  apply finishes_fs
  intro _ fs
  apply meets_mono killProcess_finishes
  rintro _ s' ⟨sched, silent⟩
  rw [sched]
  exact ⟨.unknown outside, silent⟩

/-- Every case of the switch in `sys_callback`. -/
theorem sysCall_finishes (number : Nat) : Finishes (sysCall user pcb number) s fun _ s' =>
    CallEffect pcb s.sched number s'.sched ∧ Silent s s' := by
  unfold sysCall
  split
  · exact sysCallExit_finishes
  · exact sysCallPrintf_finishes
  · exact meets_run rfl ⟨.readLine, silent_refl⟩
  · exact sysCallMalloc_finishes
  · exact ready_finishes (answered_refl s.sched) (Nat.le_refl _) (by decide)
  · exact sysCallPid_finishes
  · exact sysCallPpid_finishes
  · exact sysCallExec_finishes
  · exact sysCallOpen_finishes
  · exact sysCallClose_finishes
  · exact sysCallRead_finishes
  · exact sysCallWrite_finishes
  · exact fileCall_finishes (by decide)
  · exact shown_finishes (by decide)
  · exact fileCall_finishes (by decide)
  · exact fileCall_finishes (by decide)
  · exact fileCall_finishes (by decide)
  · exact shown_finishes (by decide)
  · exact shown_finishes (by decide)
  · exact sysCallFork_finishes
  · exact sysCallWait_finishes
  · exact shown_finishes (by decide)
  · exact sysCallExitCode_finishes
  · exact sysCallFileAppend_finishes
  · exact sysCallColorCommand_finishes
  · exact sysCallSetCursor_finishes
  · apply unknownSystemCall_finishes
    grind

end Calls

end Delos.Invariants
