import Delos.Lib.Frames
import Delos.Invariants.BlockedProcesses

/-!
# The exit code that can be asked for

`last_exit_code` is one variable for all processes. Most system calls assign the result
that they return; the calls here assign nothing or 0, and no other interrupt assigns it.
-/
namespace Delos.Invariants
open Lib Source

/-- The calls that assign a result of their own. -/
def assigningCalls : List Nat := [103, 109, 110, 111, 112, 113, 115, 116, 117, 120, 124]

/-- The system call assigns nothing to `last_exit_code`, or 0. -/
def QuietCall (σ : Sched) (user : UserSpace) (pcb ebx ecx : Nat) : Nat → Prop
  | 100 => ebx = 0
  | 107 => getProgram (user.string ebx) = none
  | 121 => σ.existsProcess ebx = true
  | 126 => σ.focusedTerminal ≠ (σ.pcbs pcb).shellId ∨ ebx < maxCols ∧ ecx < maxRows
  | number => number ∉ assigningCalls

/-- So does the interrupt. -/
def Quiet (s : System) : Event → Prop
  | .systemCall cpu user => QuietCall s.sched user s.sched.runningProcess cpu.ebx cpu.ecx cpu.eax
  | _ => True

/-- The code is as before, or 0. -/
def CodeQuiet (s s' : System) : Prop := s'.lastExitCode = s.lastExitCode ∨ s'.lastExitCode = 0

instance : IsPreorder System CodeQuiet where
  refl _ := .inl rfl
  trans s s' s'' first second := by
    rcases second with same | zero
    · rw [CodeQuiet, same]
      exact first
    · exact .inr zero

section
variable {α : Type} {s s' : System} {user : UserSpace} {pcb n : Nat}

theorem quiet_onFs (x : Kernel α) : Along CodeQuiet (onFs x) := by
  intro s a s' run
  unfold onFs at run
  split at run
  next =>
    cases run
    exact .inl rfl
  next => cases run

theorem quiet_onSched (f : Sched → Sched) : Along CodeQuiet (onSched f) := along_modify fun _ => .inl rfl

theorem quiet_getSched : Along CodeQuiet getSched := along_bind along_get fun _ => along_pure _

theorem quiet_getPcb (pcb : Nat) : Along CodeQuiet (getPcb pcb) := along_bind quiet_getSched fun _ => along_pure _

theorem quiet_zero : Along CodeQuiet (setLastExitCode 0) := along_modify fun _ => .inr rfl

theorem quiet_setReady (pcb : Nat) : Along CodeQuiet (setReady pcb) := quiet_onSched _

theorem quiet_storeToUser (address len : Nat) : Along CodeQuiet (storeToUser address len) :=
  along_ite (fun _ => along_pure _) fun _ => along_throw

theorem quiet_setZero (pcb : Nat) : Along CodeQuiet (setResult pcb 0 >>= fun _ => setReady pcb) :=
  along_bind (along_bind (quiet_onSched _) fun _ => quiet_zero) fun _ => quiet_setReady pcb

theorem quiet_focused (pcb : Nat) : Along CodeQuiet (focused pcb) :=
  along_bind quiet_getSched fun _ => along_pure _

theorem quiet_switchToNextProcess : Along CodeQuiet switchToNextProcess := by
  refine along_bind quiet_getSched fun _ => along_ite (fun _ => ?_) fun _ => ?_
  · exact along_bind (quiet_onFs _) fun _ => along_bind (quiet_onFs _) fun _ =>
      along_bind (quiet_onFs _) fun _ => along_throw
  · refine along_bind (quiet_onSched _) fun _ => along_bind quiet_getSched fun _ => ?_
    exact along_bind (quiet_onSched _) fun _ => along_bind (quiet_getPcb _) fun _ => along_modify fun _ => .inl rfl

theorem quiet_killProcess (pcb : Nat) : Along CodeQuiet (killProcess pcb) := by
  refine along_bind (quiet_getPcb _) fun _ => along_bind (quiet_onSched _) fun _ => ?_
  exact along_bind (quiet_onSched _) fun _ => along_bind (quiet_onFs _) fun _ => quiet_onSched _

theorem quiet_printToProcess (pcb : Nat) (buffer : CString) (addNewline : Bool) :
    Along CodeQuiet (printToProcess pcb buffer addNewline) :=
  along_bind (quiet_getPcb _) fun _ => quiet_onFs _

theorem quiet_killRunningProcess : Along CodeQuiet killRunningProcess := by
  refine along_bind quiet_getSched fun _ => along_bind (quiet_onSched _) fun _ => ?_
  exact along_bind (quiet_killProcess _) fun _ => quiet_switchToNextProcess

theorem quiet_faultHandler (fault : Fault) : Along CodeQuiet (faultHandler fault) := by
  refine along_bind (quiet_onFs _) fun _ => along_bind (quiet_onFs _) fun _ => ?_
  cases fault with
  | invalidTss | coprocessor => exact along_bind (quiet_onFs _) fun _ => along_throw
  | unknown => exact quiet_killRunningProcess
  | _ => exact along_bind (quiet_onFs _) fun _ => quiet_killRunningProcess

theorem quiet_reschedule (shellId : Nat) (queue : ProcessList) : Along CodeQuiet (reschedule shellId queue) :=
  along_bind quiet_getSched fun _ => along_ite (fun _ => along_throw) fun _ => quiet_onSched _

theorem quiet_timerHandler (cpu : Cpu) : Along CodeQuiet (timerHandler cpu) := by
  refine along_bind (along_modify fun _ => .inl rfl) fun _ => along_bind along_get fun _ => ?_
  refine along_ite (fun _ => ?_) fun _ => along_pure _
  refine along_bind (along_modify fun _ => .inl rfl) fun _ => along_bind (quiet_onSched _) fun _ => ?_
  exact along_bind (quiet_onSched _) fun _ => quiet_switchToNextProcess

theorem quiet_enterHandler (line : CString) (mapped : Bool) : Along CodeQuiet (enterHandler line mapped) := by
  refine along_bind (quiet_onFs _) fun _ => along_bind quiet_getSched fun s => ?_
  cases (s.lists .blockedOnKeyboard).head? with
  | none => exact along_pure _
  | some pcb =>
    refine along_ite (fun _ => along_pure _) fun _ => along_bind (quiet_storeToUser _ _) fun _ => ?_
    refine along_ite (fun _ => ?_) fun _ => quiet_faultHandler _
    exact along_bind (along_modify fun _ => .inl rfl) fun _ =>
      along_bind (quiet_printToProcess _ _ _) fun _ => quiet_onSched _

theorem quiet_abortCurrentCmd : Along CodeQuiet abortCurrentCmd := by
  refine along_bind quiet_getSched fun _ => along_ite (fun _ => quiet_onFs _) fun _ => ?_
  refine along_bind (quiet_onSched _) fun _ => along_bind (quiet_killProcess _) fun _ => ?_
  refine along_bind (quiet_onFs _) fun _ => along_ite (fun _ => ?_) fun _ => quiet_switchToNextProcess
  exact along_bind (quiet_setReady _) fun _ => quiet_switchToNextProcess

theorem quiet_switchToTerminal (pid : Nat) : Along CodeQuiet (switchToTerminal pid) := by
  refine along_bind quiet_getSched fun s => ?_
  cases (s.lists .all).find? fun pcb => (s.pcbs pcb).pid = pid with
  | none => exact along_pure _
  | some pcb =>
    refine along_bind (quiet_onSched _) fun _ => along_bind (quiet_reschedule _ _) fun _ => ?_
    refine along_bind (quiet_reschedule _ _) fun _ => along_bind (quiet_onFs _) fun _ => ?_
    refine along_bind (quiet_onFs _) fun _ => along_bind (quiet_onFs _) fun _ => ?_
    exact along_bind (quiet_onFs _) fun _ => quiet_onFs _

/-! ## System calls -/

theorem getPcb_run (pcb : Nat) (s : System) : getPcb pcb s = .ok (s.sched.pcbs pcb, s) := rfl

theorem quiet_exit (zero : (s.sched.pcbs pcb).regs.ebx = 0) (run : sysCallExit pcb s = .ok ((), s')) :
    CodeQuiet s s' := by
  unfold sysCallExit at run
  rw [run_bind (getPcb_run pcb s), zero] at run
  have rest : Along CodeQuiet (setLastExitCode 0 >>= fun _ =>
      onSched (Sched.wakeUpParentProcess (s.sched.pcbs pcb).ppid 0) >>= fun _ => killProcess pcb) :=
    along_bind quiet_zero fun _ => along_bind (quiet_onSched _) fun _ => quiet_killProcess _
  exact rest s () s' run

/-- There is no such program. -/
theorem quiet_exec (unknown : getProgram (user.string (s.sched.pcbs pcb).regs.ebx) = none)
    (run : sysCallExec user pcb s = .ok ((), s')) : CodeQuiet s s' := by
  unfold sysCallExec at run
  rw [run_bind (getPcb_run pcb s)] at run
  simp only [createProcess, createProcessUnless, unknown] at run
  rw [if_neg (show ¬ processCount ≥ maxNumberOfProcesses by decide)] at run
  have rest : Along CodeQuiet (if execBufferSize < (user.string (s.sched.pcbs pcb).regs.ebx).bytes.length + 2 then
      throw .wildAccess
    else do
      setReady pcb
      onSched (Sched.setEax pcb 0)
      setLastExitCode 0 : Handler Unit) :=
    along_ite (fun _ => along_throw) fun _ => along_bind (quiet_setReady _) fun _ =>
      along_bind (quiet_onSched _) fun _ => quiet_zero
  exact rest s () s' run

theorem quiet_wait (alive : s.sched.existsProcess (s.sched.pcbs pcb).regs.ebx = true)
    (run : sysCallWait pcb s = .ok ((), s')) : CodeQuiet s s' := by
  unfold sysCallWait at run
  rw [run_bind (getPcb_run pcb s), run_bind (show getSched s = .ok (s.sched, s) from rfl), if_pos alive] at run
  exact quiet_onSched _ s () s' run

theorem quiet_setCursor (inside : s.sched.focusedTerminal ≠ (s.sched.pcbs pcb).shellId ∨
    (s.sched.pcbs pcb).regs.ebx < maxCols ∧ (s.sched.pcbs pcb).regs.ecx < maxRows)
    (run : sysCallSetCursor pcb s = .ok ((), s')) : CodeQuiet s s' := by
  unfold sysCallSetCursor at run
  have shown : focused pcb s = .ok (decide (s.sched.focusedTerminal = (s.sched.pcbs pcb).shellId), s) := rfl
  rw [run_bind (getPcb_run pcb s), run_bind shown] at run
  by_cases here : s.sched.focusedTerminal = (s.sched.pcbs pcb).shellId
  · obtain ⟨column, row⟩ := inside.resolve_left fun other => other here
    rw [if_pos (decide_eq_true here), if_neg (by omega)] at run
    exact along_bind (quiet_onFs _) (fun _ => quiet_setZero pcb) s () s' run
  · rw [if_neg (by simpa using here)] at run
    exact quiet_setZero pcb s () s' run

theorem quiet_printf (user : UserSpace) (pcb : Nat) : Along CodeQuiet (sysCallPrintf user pcb) := by
  have print := quiet_printToProcess pcb
  refine along_bind (quiet_getPcb _) fun _ => along_bind (quiet_focused _) fun _ => along_ite (fun _ => ?_) fun _ => ?_
  · exact along_bind (quiet_onFs _) fun _ => along_bind (print _ _) fun _ => quiet_setReady _
  · exact along_bind (print _ _) fun _ => quiet_setReady _

/-- A field of the PCB is returned. -/
theorem quiet_reply (pcb : Nat) (field : Pcb → Nat) : Along CodeQuiet (do
    let p ← getPcb pcb
    onSched (Sched.setEax pcb (field p))
    setReady pcb) :=
  along_bind (quiet_getPcb _) fun _ => along_bind (quiet_onSched _) fun _ => quiet_setReady _

/-- Nothing but the screen. -/
theorem quiet_shown {α : Type} (pcb : Nat) (x : Kernel α) : Along CodeQuiet (onFs x >>= fun _ => setReady pcb) :=
  along_bind (quiet_onFs _) fun _ => quiet_setReady _

theorem quiet_exitCode (pcb : Nat) : Along CodeQuiet (sysCallExitCode pcb) :=
  along_bind along_get fun _ => along_bind (quiet_onSched _) fun _ =>
    along_bind quiet_zero fun _ => quiet_setReady _

theorem quiet_colorCommand (pcb : Nat) : Along CodeQuiet (sysCallColorCommand pcb) := by
  refine along_bind (quiet_getPcb _) fun _ => along_bind (quiet_focused _) fun _ => along_ite (fun _ => ?_) fun _ => ?_
  · exact along_bind (quiet_onFs _) fun _ => quiet_setZero pcb
  · exact quiet_setZero pcb

theorem quiet_unknown (pcb number : Nat) : Along CodeQuiet (unknownSystemCall pcb number) := by
  refine along_bind (quiet_onFs _) fun _ => along_bind (quiet_onFs _) fun _ => ?_
  exact along_bind (quiet_onFs _) fun _ => quiet_killProcess _

theorem quiet_sysCall (quiet : QuietCall s.sched user pcb (s.sched.pcbs pcb).regs.ebx
    (s.sched.pcbs pcb).regs.ecx n)
    (run : sysCall user pcb n s = .ok ((), s')) : CodeQuiet s s' := by
  have plain : ∀ {x : Handler Unit}, Along CodeQuiet x → x s = .ok ((), s') → CodeQuiet s s' :=
    fun within run => within s () s' run
  unfold sysCall at run
  split at run
  · exact quiet_exit quiet run
  · exact plain (quiet_printf user pcb) run
  · exact plain (quiet_onSched _) run
  · exact (quiet (by decide)).elim
  · exact plain (quiet_setReady pcb) run
  · exact plain (quiet_reply pcb fun p => p.pid) run
  · exact plain (quiet_reply pcb fun p => p.ppid) run
  · exact quiet_exec quiet run
  · exact (quiet (by decide)).elim
  · exact (quiet (by decide)).elim
  · exact (quiet (by decide)).elim
  · exact (quiet (by decide)).elim
  · exact (quiet (by decide)).elim
  · exact plain (quiet_shown pcb ls) run
  · exact (quiet (by decide)).elim
  · exact (quiet (by decide)).elim
  · exact (quiet (by decide)).elim
  · exact plain (along_bind quiet_getSched fun _ => quiet_shown pcb _) run
  · exact plain (quiet_shown pcb _) run
  · exact (quiet (by decide)).elim
  · exact quiet_wait quiet run
  · exact plain (quiet_shown pcb _) run
  · exact plain (quiet_exitCode pcb) run
  · exact (quiet (by decide)).elim
  · exact plain (quiet_colorCommand pcb) run
  · exact quiet_setCursor quiet run
  · exact plain (quiet_unknown pcb _) run

/-! ## Interrupts -/

/-- The state in which a system call starts. -/
def entered (room : Nat) (cpu : Cpu) (s : System) : System :=
  { s with sched := Sched.saved cpu 0x80 { s.sched with room := room } }

theorem existsProcess_saved (cpu : Cpu) (number pid : Nat) (σ : Sched) :
    (Sched.saved cpu number σ).existsProcess pid = σ.existsProcess pid := by
  have pids : ∀ i, ((Sched.saved cpu number σ).pcbs i).pid = (σ.pcbs i).pid :=
    pcbs_saved Pcb.pid (fun _ _ => rfl) cpu number
  unfold Sched.existsProcess
  simp only [pids]
  rfl

theorem entered_regs (room : Nat) (cpu : Cpu) (s : System) :
    ((entered room cpu s).sched.pcbs s.sched.runningProcess).regs = ⟨cpu.eax, cpu.ecx, cpu.edx, cpu.ebx, cpu.esp,
      cpu.ebp, cpu.esi, cpu.edi, cpu.eflags, (s.sched.pcbs s.sched.runningProcess).regs.cr3, cpu.eip⟩ := by
  have regs := saved_regs cpu 0x80 { s.sched with room := room }
  rw [entered, regs]
  simp only [Function.update_self]

theorem quietCall_entered (room : Nat) (cpu : Cpu) {ebx ecx : Nat}
    (quiet : QuietCall s.sched user s.sched.runningProcess ebx ecx n) :
    QuietCall (entered room cpu s).sched user s.sched.runningProcess ebx ecx n := by
  have terminal : ((entered room cpu s).sched.pcbs s.sched.runningProcess).shellId =
      (s.sched.pcbs s.sched.runningProcess).shellId :=
    pcbs_saved (σ := { s.sched with room := room }) Pcb.shellId (fun _ _ => rfl) cpu 0x80 _
  have exists' : (entered room cpu s).sched.existsProcess ebx = s.sched.existsProcess ebx :=
    existsProcess_saved cpu 0x80 ebx { s.sched with room := room }
  unfold QuietCall at quiet ⊢
  split at quiet
  · exact quiet
  · exact quiet
  · exact exists'.trans quiet
  · rw [terminal]
    exact quiet
  · exact quiet

/-- The call, and the switch behind it. -/
theorem interrupt_call {room : Nat} {cpu : Cpu} (run : interrupt room (.systemCall cpu user) s = .ok ((), s')) :
    ∃ s1, sysCall user s.sched.runningProcess cpu.eax (entered room cpu s) = .ok ((), s1) ∧
      switchToNextProcess s1 = .ok ((), s') := by
  unfold interrupt at run
  rw [run_bind (show getSched s = .ok (s.sched, s) from rfl)] at run
  split at run
  next =>
    have number : ((entered room cpu s).sched.pcbs s.sched.runningProcess).regs.eax = cpu.eax := by
      rw [entered_regs]
    have start : (sysCall user s.sched.runningProcess cpu.eax >>= fun _ => switchToNextProcess) (entered room cpu s) =
        .ok ((), s') := by
      rw [← number]
      exact run
    cases call : sysCall user s.sched.runningProcess cpu.eax (entered room cpu s) with
    | error e =>
      rw [run_stop call] at start
      cases start
    | ok p =>
      rw [run_bind call] at start
      exact ⟨p.2, rfl, start⟩
  next => cases run

theorem quiet_interrupt {room : Nat} {event : Event} (quiet : Quiet s event)
    (run : interrupt room event s = .ok ((), s')) : CodeQuiet s s' := by
  have handled : ∀ {x : Handler Unit}, Along CodeQuiet x → (do
      let s ← getSched
      if s.runningProcess ∈ s.lists .all ∧ s.idleProcess ∈ s.lists .all then do
        onSched fun s => { s with room := room }
        x
      else throw .wildAccess : Handler Unit) s = .ok ((), s') → CodeQuiet s s' := by
    intro x within run
    refine along_bind quiet_getSched (fun _ => along_ite (fun _ => ?_) fun _ => along_throw) s () s' run
    exact along_bind (quiet_onSched _) fun _ => within
  cases event with
  | timer cpu => exact handled (quiet_timerHandler cpu) run
  | fault fault => exact handled (quiet_faultHandler fault) run
  | enter line mapped => exact handled (quiet_enterHandler line mapped) run
  | abort cpu => exact handled quiet_abortCurrentCmd run
  | terminal number => exact handled (quiet_switchToTerminal number) run
  | systemCall cpu user =>
    obtain ⟨s1, call, switch⟩ := interrupt_call run
    have regs := entered_regs room cpu s
    have started := quietCall_entered room cpu quiet
    have called : CodeQuiet (entered room cpu s) s1 := by
      refine quiet_sysCall ?_ call
      rw [regs]
      exact started
    exact IsTrans.trans _ _ _ called (quiet_switchToNextProcess s1 () s' switch)

end

end Delos.Invariants
