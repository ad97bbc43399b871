import Delos.Source.Interrupts
import Delos.Invariants.CallEffects

/-!
# What an interrupt does to the processes

`Interrupted` lists all that an interrupt can do to the lists, the PCBs and the
running process; every invariant of the scheduler is derived from it.
-/
namespace Delos.Invariants
open Lib Source

namespace Sched

/-- The registers of the running process are saved. -/
def saved (cpu : Cpu) (intNo : Nat) (σ : Sched) : Sched :=
  σ.saveProcessContext σ.runningProcess (isrFrame cpu intNo kernelStack)

/-- The process is killed and its parent gets exit code 1. -/
def aborted (pcb : Nat) (σ : Sched) : Sched :=
  Sched.killed pcb (σ.wakeUpParentProcess (σ.pcbs pcb).ppid 1)

/-- What CTRL+C leaves before it switches. -/
def preempted (pcb : Nat) (σ : Sched) : Sched :=
  if σ.runningProcess ≠ pcb then (Sched.aborted pcb σ).setProcessAsReady σ.runningProcess
  else Sched.aborted pcb σ

/-- The terminal gets the focus and its processes come first. -/
def focusedOn (number : Nat) (σ : Sched) : Sched :=
  ({ σ with focusedTerminal := number }.rescheduleProcess number .blockedOnKeyboard).rescheduleProcess
    number .blockedOnProcess

end Sched

/-- The interrupt ends with a switch away from these processes. -/
structure Dispatches (s : System) (σ : Sched) (s' : System) : Prop where
  several : 1 < (σ.lists .all).length
  sched : s'.sched = Sched.switched σ
  loaded : s'.switches = s.switches ++ [(s'.sched.runningProcess,
    switchTask (s'.sched.pcbs s'.sched.runningProcess).regs.words)]
  delivered : s'.delivered = s.delivered

/-- All that an interrupt can do. -/
inductive Interrupted (s : System) : Event → System → Prop
  | tick {cpu : Cpu} {s' : System} (same : s'.sched = s.sched) (silent : Silent s s') :
      Interrupted s (.timer cpu) s'
  | timer {cpu : Cpu} {s' : System} (dispatch : Dispatches s
      ((Sched.saved cpu 0x20 s.sched).setProcessAsReady s.sched.runningProcess) s') :
      Interrupted s (.timer cpu) s'
  | systemCall {cpu : Cpu} {user : UserSpace} {σ : Sched} {s' : System}
      (effect : CallEffect s.sched.runningProcess (Sched.saved cpu 0x80 s.sched) cpu.eax σ)
      (dispatch : Dispatches s σ s') : Interrupted s (.systemCall cpu user) s'
  | fault {fault : Fault} {s' : System}
      (dispatch : Dispatches s (Sched.aborted s.sched.runningProcess s.sched) s') :
      Interrupted s (.fault fault) s'
  | dropped {line : CString} {mapped : Bool} {s' : System} (same : s'.sched = s.sched)
      (silent : Silent s s') (nobody : ∀ pcb, (s.sched.lists .blockedOnKeyboard).head? = some pcb →
        (s.sched.pcbs pcb).shellId ≠ s.sched.focusedTerminal) : Interrupted s (.enter line mapped) s'
  | delivered {line : CString} {pcb : Nat} {s' : System}
      (first : (s.sched.lists .blockedOnKeyboard).head? = some pcb)
      (focused : (s.sched.pcbs pcb).shellId = s.sched.focusedTerminal)
      (sched : s'.sched = Sched.unblock pcb .blockedOnKeyboard
        (s.sched.listRemoveData .blockedOnKeyboard pcb))
      (same : s'.switches = s.switches) (line' : s'.delivered = s.delivered ++ [(pcb, line)]) :
      Interrupted s (.enter line true) s'
  | pageFault {line : CString} {pcb : Nat} {s' : System}
      (first : (s.sched.lists .blockedOnKeyboard).head? = some pcb)
      (focused : (s.sched.pcbs pcb).shellId = s.sched.focusedTerminal)
      (dispatch : Dispatches s (Sched.aborted s.sched.runningProcess s.sched) s') :
      Interrupted s (.enter line false) s'
  | shell {cpu : Cpu} {s' : System} (same : s'.sched = s.sched) (silent : Silent s s')
      (first : (s.sched.pcbs s.sched.getLatestRunningNonIdleProcess).pid ∈ [0, 1, 2, 3, 4]) :
      Interrupted s (.abort cpu) s'
  | abort {cpu : Cpu} {s' : System}
      (later : (s.sched.pcbs s.sched.getLatestRunningNonIdleProcess).pid ∉ [0, 1, 2, 3, 4])
      (dispatch : Dispatches s
        (Sched.preempted s.sched.getLatestRunningNonIdleProcess s.sched) s') :
      Interrupted s (.abort cpu) s'
  | noTerminal {number : Nat} {s' : System} (same : s'.sched = s.sched) (silent : Silent s s') :
      Interrupted s (.terminal number) s'
  | terminal {number : Nat} {s' : System} (room : 0 < s.sched.room)
      (sched : s'.sched = Sched.focusedOn number s.sched) (silent : Silent s s') :
      Interrupted s (.terminal number) s'

section Handlers
variable {s : System}

theorem switchToNextProcess_finishes : Finishes switchToNextProcess s fun _ s' =>
    Dispatches s s.sched s' := by
  unfold switchToNextProcess
  refine (meets_next rfl).mpr ?_
  split
  · apply finishes_fs
    intro _ fs
    apply finishes_fs
    intro _ fs
    apply finishes_fs
    intro _ fs
    exact finishes_throw
  next several =>
    refine (meets_next rfl).mpr ((meets_next rfl).mpr ?_)
    exact meets_run rfl ⟨Nat.lt_of_not_le several, rfl, rfl, rfl⟩

theorem dispatches_silent {s1 s' : System} {σ : Sched} (dispatch : Dispatches s1 σ s')
    (silent : Silent s s1) : Dispatches s σ s' :=
  ⟨dispatch.several, dispatch.sched, by rw [dispatch.loaded, silent.1], by
    rw [dispatch.delivered, silent.2]⟩

theorem killRunningProcess_finishes : Finishes killRunningProcess s fun _ s' =>
    Dispatches s (Sched.aborted s.sched.runningProcess s.sched) s' := by
  unfold killRunningProcess
  refine (meets_next rfl).mpr ((meets_next rfl).mpr ?_)
  apply meets_call killProcess_finishes
  rintro _ s1 ⟨sched, silent⟩
  apply meets_mono switchToNextProcess_finishes
  intro _ s' dispatch
  rw [sched] at dispatch
  exact dispatches_silent dispatch silent

theorem faultHandler_finishes (fault : Fault) : Finishes (faultHandler fault) s fun _ s' =>
    Dispatches s (Sched.aborted s.sched.runningProcess s.sched) s' := by
  unfold faultHandler
  apply finishes_fs
  intro _ fs
  apply finishes_fs
  intro _ fs
  split
  · apply finishes_fs
    intro _ fs
    exact finishes_throw
  · apply finishes_fs
    intro _ fs
    exact finishes_throw
  · exact meets_mono killRunningProcess_finishes fun _ _ dispatch =>
      dispatches_silent dispatch silent_refl
  · apply finishes_fs
    intro _ fs
    exact meets_mono killRunningProcess_finishes fun _ _ dispatch =>
      dispatches_silent dispatch silent_refl

theorem timerHandler_finishes (cpu : Cpu) : Finishes (timerHandler cpu) s fun _ s' =>
    Interrupted s (.timer cpu) s' := by
  unfold timerHandler
  refine (meets_next rfl).mpr ((meets_next rfl).mpr ?_)
  split
  · refine (meets_next rfl).mpr ((meets_next rfl).mpr ((meets_next rfl).mpr ?_))
    apply meets_mono switchToNextProcess_finishes
    intro _ s' dispatch
    exact .timer (dispatches_silent dispatch silent_refl)
  · exact meets_pure.mpr (.tick rfl silent_refl)

theorem sysCallback_finishes (user : UserSpace) : Finishes (sysCallback user) s fun _ s' =>
    CallEffect s.sched.runningProcess s.sched (s.sched.pcbs s.sched.runningProcess).regs.eax s'.sched ∧
      Silent s s' := by
  unfold sysCallback
  refine (meets_next rfl).mpr ?_
  exact sysCall_finishes _

/-- The frame of the stub, `Interrupt_generic_registers_t` and `regs_t` agree. -/
theorem saved_regs (cpu : Cpu) (intNo : Nat) (σ : Sched) :
    (Sched.saved cpu intNo σ).pcbs = Function.update σ.pcbs σ.runningProcess
      { σ.pcbs σ.runningProcess with regs :=
        ⟨cpu.eax, cpu.ecx, cpu.edx, cpu.ebx, cpu.esp, cpu.ebp, cpu.esi, cpu.edi, cpu.eflags,
          (σ.pcbs σ.runningProcess).regs.cr3, cpu.eip⟩ } := rfl

theorem systemCallHandler_finishes (cpu : Cpu) (user : UserSpace) :
    Finishes (systemCallHandler cpu user) s fun _ s' => Interrupted s (.systemCall cpu user) s' := by
  unfold systemCallHandler
  refine (meets_next rfl).mpr ?_
  apply meets_call (sysCallback_finishes user)
  rintro _ s1 ⟨effect, silent⟩
  have effect : CallEffect s.sched.runningProcess (Sched.saved cpu 0x80 s.sched)
    ((Sched.saved cpu 0x80 s.sched).pcbs s.sched.runningProcess).regs.eax s1.sched := effect
  rw [saved_regs, Function.update_self] at effect
  apply meets_mono switchToNextProcess_finishes
  intro _ s' dispatch
  exact .systemCall effect (dispatches_silent dispatch silent)

theorem enterHandler_finishes (line : CString) (mapped : Bool) :
    Finishes (enterHandler line mapped) s fun _ s' => Interrupted s (.enter line mapped) s' := by
  unfold enterHandler wakeProcessWaitingForKeyboard
  apply finishes_fs
  intro _ fs
  refine (meets_next rfl).mpr ?_
  split
  next none =>
    refine meets_pure.mpr (.dropped rfl silent_refl fun pcb first => ?_)
    exact absurd (none.symm.trans first) (by simp)
  next pcb first =>
    split
    next other =>
      refine meets_pure.mpr (.dropped rfl silent_refl fun pcb' first' => ?_)
      obtain rfl := Option.some.inj (first.symm.trans first')
      exact other
    next focused =>
      apply finishes_storeToUser
      cases mapped with
      | true =>
        refine (meets_next rfl).mpr ?_
        unfold printToProcess
        refine meets_bind.mpr ((meets_next rfl).mpr ?_)
        apply finishes_fs_last
        intro _ fs
        exact meets_run rfl (.delivered first (Decidable.not_not.mp focused) rfl rfl rfl)
      | false =>
        apply meets_mono (faultHandler_finishes _)
        intro _ s' dispatch
        exact .pageFault first (Decidable.not_not.mp focused)
          (dispatches_silent dispatch silent_refl)

theorem abortCurrentCmd_finishes (cpu : Cpu) : Finishes abortCurrentCmd s fun _ s' =>
    Interrupted s (.abort cpu) s' := by
  unfold abortCurrentCmd
  refine (meets_next rfl).mpr ?_
  simp only
  split
  next first =>
    apply finishes_fs_last
    intro _ fs
    exact .shell rfl silent_refl first
  next later =>
    refine (meets_next rfl).mpr ?_
    apply meets_call killProcess_finishes
    rintro _ s1 ⟨sched, silent⟩
    apply finishes_fs
    intro _ fs
    split
    next other =>
      refine (meets_next rfl).mpr ?_
      apply meets_mono switchToNextProcess_finishes
      intro _ s' dispatch
      rw [show s1.sched = Sched.aborted _ s.sched from sched] at dispatch
      refine .abort later ?_
      rw [Sched.preempted, if_pos other]
      exact dispatches_silent dispatch silent
    next same =>
      apply meets_mono switchToNextProcess_finishes
      intro _ s' dispatch
      rw [show s1.sched = Sched.aborted _ s.sched from sched] at dispatch
      refine .abort later ?_
      rw [Sched.preempted, if_neg same]
      exact dispatches_silent dispatch silent

theorem reschedule_finishes {β : Type} {shellId : Nat} {queue : ProcessList} {f : Unit → Handler β}
    {post : β → System → Prop} (rest : 0 < s.sched.room → Finishes (f ())
      { s with sched := s.sched.rescheduleProcess shellId queue } post) :
    Finishes (reschedule shellId queue >>= f) s post := by
  unfold reschedule
  apply meets_bind.mpr
  refine (meets_next rfl).mpr ?_
  split
  · exact finishes_throw
  next some => exact meets_run rfl (rest (Nat.pos_of_ne_zero some))

theorem switchToTerminal_finishes (number : Nat) : Finishes (switchToTerminal number) s fun _ s' =>
    Interrupted s (.terminal number) s' := by
  unfold switchToTerminal
  refine (meets_next rfl).mpr ?_
  split
  · exact meets_pure.mpr (.noTerminal rfl silent_refl)
  · refine (meets_next rfl).mpr ?_
    apply reschedule_finishes
    intro room
    apply reschedule_finishes
    intro _
    apply finishes_fs
    intro _ fs
    apply finishes_fs
    intro _ fs
    apply finishes_fs
    intro _ fs
    apply finishes_fs
    intro _ fs
    apply finishes_fs_last
    intro _ fs
    exact .terminal room rfl silent_refl

theorem handle_finishes (event : Event) : Finishes (handle event) s fun _ s' => Interrupted s event s' := by
  cases event with
  | timer cpu => exact timerHandler_finishes cpu
  | systemCall cpu user => exact systemCallHandler_finishes cpu user
  | fault fault => exact meets_mono (faultHandler_finishes fault) fun _ _ dispatch => .fault dispatch
  | enter line mapped => exact enterHandler_finishes line mapped
  | abort cpu => exact abortCurrentCmd_finishes cpu
  | terminal number => exact switchToTerminal_finishes number

/-- The state in which the handler starts. -/
def withRoom (room : Nat) (s : System) : System := { s with sched := { s.sched with room := room } }

theorem interrupt_run {room : Nat} {event : Event} {s' : System}
    (run : interrupt room event s = .ok ((), s')) :
    (s.sched.runningProcess ∈ s.sched.lists .all ∧ s.sched.idleProcess ∈ s.sched.lists .all) ∧
      Interrupted (withRoom room s) event s' := by
  have ends : Finishes (interrupt room event) s fun _ s' =>
      (s.sched.runningProcess ∈ s.sched.lists .all ∧ s.sched.idleProcess ∈ s.sched.lists .all) ∧
        Interrupted (withRoom room s) event s' := by
    unfold interrupt
    refine (meets_next rfl).mpr ?_
    split
    next alive =>
      refine (meets_next rfl).mpr ?_
      apply meets_mono (handle_finishes event)
      intro _ s' interrupted
      exact ⟨alive, interrupted⟩
    next => exact finishes_throw
  have result := meets_result ends run
  exact result

end Handlers

end Delos.Invariants
