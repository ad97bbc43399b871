import Delos.Lib.Frames
import Delos.Invariants.ReadyQueue

/-!
# The ticks of the timer

Only the timer handler writes its counter. It counts up to ten; then the running process goes to the end
of the ready list, and the next one is dispatched.
-/
namespace Delos.Invariants
open Lib Source

def SameTicks (s s' : System) : Prop := s'.ticks = s.ticks

instance : IsPreorder System SameTicks where
  refl _ := rfl
  trans _ _ _ first second := Eq.trans second first

/-- Whether the interrupt is one of the timer. -/
def timerTicks : Event → Nat
  | .timer _ => 1
  | _ => 0

section
variable {α : Type} {s s' : System} {user : UserSpace} {event : Event} {room i n : Nat} {e : Nat × Event}

theorem still_onFs (x : Kernel α) : Along SameTicks (onFs x) := by
  intro s a s' run
  unfold onFs at run
  split at run
  next =>
    cases run
    rfl
  next => cases run

theorem still_onSched (f : Sched → Sched) : Along SameTicks (onSched f) := along_modify fun _ => rfl

theorem still_getSched : Along SameTicks getSched := along_bind along_get fun _ => along_pure _

theorem still_getPcb (pcb : Nat) : Along SameTicks (getPcb pcb) := along_bind still_getSched fun _ => along_pure _

theorem still_code (code : Nat) : Along SameTicks (setLastExitCode code) := along_modify fun _ => rfl

theorem still_focused (pcb : Nat) : Along SameTicks (focused pcb) := along_bind still_getSched fun _ => along_pure _

theorem still_storeToUser (address len : Nat) : Along SameTicks (storeToUser address len) :=
  along_ite (fun _ => along_pure _) fun _ => along_throw

/-- How most calls end. -/
theorem still_answer (pcb result : Nat) : Along SameTicks (setResult pcb result >>= fun _ => setReady pcb) :=
  along_bind (along_bind (still_onSched _) fun _ => still_code _) fun _ => still_onSched _

theorem still_switch : Along SameTicks switchToNextProcess := by
  refine along_bind still_getSched fun _ => along_ite (fun _ => ?_) fun _ => ?_
  · exact along_bind (still_onFs _) fun _ => along_bind (still_onFs _) fun _ =>
      along_bind (still_onFs _) fun _ => along_throw
  · refine along_bind (still_onSched _) fun _ => along_bind still_getSched fun _ => ?_
    exact along_bind (still_onSched _) fun _ => along_bind (still_getPcb _) fun _ => along_modify fun _ => rfl

theorem still_killProcess (pcb : Nat) : Along SameTicks (killProcess pcb) := by
  refine along_bind (still_getPcb _) fun _ => along_bind (still_onSched _) fun _ => ?_
  exact along_bind (still_onSched _) fun _ => along_bind (still_onFs _) fun _ => still_onSched _

theorem still_print (pcb : Nat) (buffer : CString) (addNewline : Bool) :
    Along SameTicks (printToProcess pcb buffer addNewline) :=
  along_bind (still_getPcb _) fun _ => still_onFs _

theorem still_createProcess (filename : CString) (ppid : Nat) (stdout : CString) (shellId entry cr3 : Nat) :
    Along SameTicks (createProcess filename ppid stdout shellId entry cr3) := by
  unfold createProcess createProcessUnless
  refine along_ite (fun _ => along_pure _) fun _ => ?_
  cases getProgram filename with
  | none => exact along_pure _
  | some _ =>
    refine along_bind still_getSched fun _ => along_ite (fun _ => ?_) fun _ => ?_
    · exact along_bind (still_onFs _) fun _ => along_pure _
    · exact along_bind (still_onSched _) fun _ => along_bind (still_onSched _) fun _ => along_pure _

/-! ## System calls -/

theorem still_fileCall (pcb : Nat) (call : Regs → Kernel Nat) : Along SameTicks (fileCall pcb call) :=
  along_bind (still_getPcb _) fun _ => along_bind (still_onFs _) fun _ => still_answer _ _

theorem still_shown (pcb : Nat) (x : Kernel α) : Along SameTicks (onFs x >>= fun _ => setReady pcb) :=
  along_bind (still_onFs _) fun _ => still_onSched _

theorem still_reply (pcb : Nat) (field : Pcb → Nat) : Along SameTicks (do
    let p ← getPcb pcb
    onSched (Sched.setEax pcb (field p))
    setReady pcb) :=
  along_bind (still_getPcb _) fun _ => along_bind (still_onSched _) fun _ => still_onSched _

theorem still_printf (user : UserSpace) (pcb : Nat) : Along SameTicks (sysCallPrintf user pcb) := by
  have print := still_print pcb
  refine along_bind (still_getPcb _) fun _ => along_bind (still_focused _) fun _ => along_ite (fun _ => ?_) fun _ => ?_
  · exact along_bind (still_onFs _) fun _ => along_bind (print _ _) fun _ => still_onSched _
  · exact along_bind (print _ _) fun _ => still_onSched _

theorem still_exec (user : UserSpace) (pcb : Nat) : Along SameTicks (sysCallExec user pcb) := by
  refine along_bind (still_getPcb _) fun _ => along_ite (fun _ => along_throw) fun _ => ?_
  refine along_bind (still_onSched _) fun _ => along_bind (still_onSched _) fun _ => ?_
  refine along_bind (still_createProcess _ _ _ _ _ _) fun child => ?_
  cases child with
  | none => exact still_code _
  | some child =>
    refine along_bind (still_getPcb _) fun _ => along_bind (still_onSched _) fun _ => ?_
    exact along_bind (still_onSched _) fun _ => still_code _

theorem still_open (user : UserSpace) (pcb : Nat) : Along SameTicks (sysCallOpen user pcb) := by
  have remember : ∀ filename, Along SameTicks (rememberOpenFile pcb filename) := fun filename =>
    along_bind (still_onFs _) fun _ => along_bind (still_onFs _) fun _ => still_onSched _
  refine along_bind (still_getPcb _) fun _ => along_bind (still_onFs _) fun _ => ?_
  refine along_ite (fun _ => along_bind (still_onFs _) fun _ => ?_) fun _ => still_answer _ _
  exact along_ite (fun _ => along_bind (remember _) fun _ => still_answer _ _) fun _ => still_answer _ _

theorem still_close (user : UserSpace) (pcb : Nat) : Along SameTicks (sysCallClose user pcb) := by
  have forget : ∀ address, Along SameTicks (forgetOpenFile pcb address) := fun address =>
    along_bind (still_getPcb _) fun _ => along_ite
      (fun _ => along_bind (still_onFs _) fun _ => still_onSched _) fun _ => along_pure _
  refine along_bind (still_getPcb _) fun _ => along_bind (still_onFs _) fun _ => ?_
  refine along_ite (fun _ => along_bind (still_onFs _) fun _ => ?_) fun _ => still_answer _ _
  exact along_bind (forget _) fun _ => still_answer _ _

theorem still_read (user : UserSpace) (pcb : Nat) : Along SameTicks (sysCallRead user pcb) := by
  refine along_bind (still_getPcb _) fun _ => along_bind (still_onFs _) fun _ => ?_
  refine along_ite (fun _ => along_bind (still_onFs _) fun _ => ?_) fun _ => still_answer _ _
  exact along_bind (still_storeToUser _ _) fun _ => still_answer _ _

theorem still_write (user : UserSpace) (pcb : Nat) : Along SameTicks (sysCallWrite user pcb) := by
  refine along_bind (still_getPcb _) fun _ => along_bind (still_onFs _) fun _ => ?_
  exact along_ite (fun _ => along_bind (still_onFs _) fun _ => still_answer _ _) fun _ => still_answer _ _

theorem still_fork (user : UserSpace) (pcb : Nat) : Along SameTicks (sysCallFork user pcb) := by
  refine along_bind (still_getPcb _) fun _ => along_bind (still_createProcess _ _ _ _ _ _) fun child => ?_
  cases child with
  | none => exact along_throw
  | some child =>
    refine along_bind (still_onSched _) fun _ => along_bind (still_onSched _) fun _ => ?_
    refine along_bind (still_onSched _) fun _ => along_bind (still_code _) fun _ => ?_
    exact along_bind (still_onSched _) fun _ => still_onSched _

theorem still_fileAppend (user : UserSpace) (pcb : Nat) : Along SameTicks (sysCallFileAppend user pcb) := by
  refine along_bind (still_getPcb _) fun _ => along_bind (still_onFs _) fun _ => along_bind (still_onFs _) fun _ => ?_
  refine along_ite (fun _ => along_bind (still_onFs _) fun _ => still_answer _ _) fun _ => ?_
  exact along_bind (still_onFs _) fun _ => along_bind (still_onFs _) fun _ => still_answer _ _

theorem still_setCursor (pcb : Nat) : Along SameTicks (sysCallSetCursor pcb) := by
  refine along_bind (still_getPcb _) fun _ => along_bind (still_focused _) fun _ => ?_
  refine along_ite (fun _ => along_ite (fun _ => still_answer _ _) fun _ => ?_) fun _ => still_answer _ _
  exact along_bind (still_onFs _) fun _ => still_answer _ _

theorem still_colorCommand (pcb : Nat) : Along SameTicks (sysCallColorCommand pcb) := by
  refine along_bind (still_getPcb _) fun _ => along_bind (still_focused _) fun _ => ?_
  exact along_ite (fun _ => along_bind (still_onFs _) fun _ => still_answer _ _) fun _ => still_answer _ _

theorem still_unknown (pcb number : Nat) : Along SameTicks (unknownSystemCall pcb number) := by
  refine along_bind (still_onFs _) fun _ => along_bind (still_onFs _) fun _ => ?_
  exact along_bind (still_onFs _) fun _ => still_killProcess _

/-- No system call. -/
theorem still_sysCall (user : UserSpace) (pcb number : Nat) : Along SameTicks (sysCall user pcb number) := by
  unfold sysCall
  split
  · refine along_bind (still_getPcb _) fun _ => along_bind (still_code _) fun _ => ?_
    exact along_bind (still_onSched _) fun _ => still_killProcess _
  · exact still_printf user pcb
  · exact still_onSched _
  · refine along_bind (still_getPcb _) fun p => ?_
    cases user.malloc p.regs.ebx with
    | none => exact along_throw
    | some block => exact still_answer _ _
  · exact still_onSched _
  · exact still_reply pcb fun p => p.pid
  · exact still_reply pcb fun p => p.ppid
  · exact still_exec user pcb
  · exact still_open user pcb
  · exact still_close user pcb
  · exact still_read user pcb
  · exact still_write user pcb
  · exact still_fileCall pcb _
  · exact still_shown pcb ls
  · exact still_fileCall pcb _
  · exact still_fileCall pcb _
  · exact still_fileCall pcb _
  · exact along_bind still_getSched fun _ => still_shown pcb _
  · exact still_shown pcb _
  · exact still_fork user pcb
  · refine along_bind (still_getPcb _) fun _ => along_bind still_getSched fun _ => ?_
    exact along_ite (fun _ => still_onSched _) fun _ => still_answer _ _
  · exact still_shown pcb _
  · exact along_bind along_get fun _ => along_bind (still_onSched _) fun _ =>
      along_bind (still_code _) fun _ => still_onSched _
  · exact still_fileAppend user pcb
  · exact still_colorCommand pcb
  · exact still_setCursor pcb
  · exact still_unknown pcb _

/-! ## Interrupts -/

theorem still_killRunning : Along SameTicks killRunningProcess := by
  refine along_bind still_getSched fun _ => along_bind (still_onSched _) fun _ => ?_
  exact along_bind (still_killProcess _) fun _ => still_switch

theorem still_fault (fault : Fault) : Along SameTicks (faultHandler fault) := by
  refine along_bind (still_onFs _) fun _ => along_bind (still_onFs _) fun _ => ?_
  cases fault with
  | invalidTss | coprocessor => exact along_bind (still_onFs _) fun _ => along_throw
  | unknown => exact still_killRunning
  | _ => exact along_bind (still_onFs _) fun _ => still_killRunning

theorem still_enter (line : CString) (mapped : Bool) : Along SameTicks (enterHandler line mapped) := by
  refine along_bind (still_onFs _) fun _ => along_bind still_getSched fun s => ?_
  cases (s.lists .blockedOnKeyboard).head? with
  | none => exact along_pure _
  | some pcb =>
    refine along_ite (fun _ => along_pure _) fun _ => along_bind (still_storeToUser _ _) fun _ => ?_
    refine along_ite (fun _ => ?_) fun _ => still_fault _
    exact along_bind (along_modify fun _ => rfl) fun _ => along_bind (still_print _ _ _) fun _ => still_onSched _

theorem still_abort : Along SameTicks abortCurrentCmd := by
  refine along_bind still_getSched fun _ => along_ite (fun _ => still_onFs _) fun _ => ?_
  refine along_bind (still_onSched _) fun _ => along_bind (still_killProcess _) fun _ => ?_
  refine along_bind (still_onFs _) fun _ => along_ite (fun _ => ?_) fun _ => still_switch
  exact along_bind (still_onSched _) fun _ => still_switch

theorem still_terminal (pid : Nat) : Along SameTicks (switchToTerminal pid) := by
  have reschedules : ∀ shellId queue, Along SameTicks (reschedule shellId queue) := fun shellId queue =>
    along_bind still_getSched fun _ => along_ite (fun _ => along_throw) fun _ => still_onSched _
  refine along_bind still_getSched fun s => ?_
  cases (s.lists .all).find? fun pcb => (s.pcbs pcb).pid = pid with
  | none => exact along_pure _
  | some pcb =>
    refine along_bind (still_onSched _) fun _ => along_bind (reschedules _ _) fun _ => ?_
    refine along_bind (reschedules _ _) fun _ => along_bind (still_onFs _) fun _ => ?_
    refine along_bind (still_onFs _) fun _ => along_bind (still_onFs _) fun _ => ?_
    exact along_bind (still_onFs _) fun _ => still_onFs _

/-- No other interrupt. -/
theorem still_interrupt (other : timerTicks event = 0) (run : interrupt room event s = .ok ((), s')) :
    s'.ticks = s.ticks := by
  have handled : Along SameTicks (handle event) := by
    cases event with
    | timer cpu => exact absurd other Nat.one_ne_zero
    | systemCall cpu user =>
      refine along_bind (still_onSched _) fun _ => along_bind ?_ fun _ => still_switch
      exact along_bind still_getSched fun _ => still_sysCall _ _ _
    | fault fault => exact still_fault fault
    | enter line mapped => exact still_enter line mapped
    | abort cpu => exact still_abort
    | terminal number => exact still_terminal number
  have whole : Along SameTicks (interrupt room event) :=
    along_bind still_getSched fun _ => along_ite (fun _ => along_bind (still_onSched _) fun _ => handled) fun _ => along_throw
  exact whole s () s' run

/-- Every tenth tick ends with a switch. -/
theorem timer_counts {cpu : Cpu} (run : interrupt room (.timer cpu) s = .ok ((), s')) :
    (s.ticks + 1) % ticksForTaskSwitch ≠ 0 ∧ s'.ticks = s.ticks + 1 ∧ s'.sched.lists = s.sched.lists ∨
      (s.ticks + 1) % ticksForTaskSwitch = 0 ∧ s'.ticks = 0 ∧ Dispatches (withRoom room s)
        ((Sched.saved cpu 0x20 (withRoom room s).sched).setProcessAsReady s.sched.runningProcess) s' := by
  have handled : timerHandler cpu (withRoom room s) = .ok ((), s') := by
    unfold interrupt at run
    rw [run_bind (show getSched s = .ok (s.sched, s) from rfl)] at run
    split at run
    · exact run
    · cases run
  by_cases last : (s.ticks + 1) % ticksForTaskSwitch = 0
  · refine .inr ⟨last, ?_⟩
    let saved : System := { withRoom room s with
      ticks := 0, sched := (Sched.saved cpu 0x20 (withRoom room s).sched).setProcessAsReady s.sched.runningProcess }
    have switched : switchToNextProcess saved = .ok ((), s') := by
      rw [← handled]
      have tenth : (withRoom room s).ticks + 1 = s.ticks + 1 := rfl
      unfold timerHandler
      rw [run_bind (show (modify fun s => { s with ticks := s.ticks + 1 } : Handler Unit) (withRoom room s) =
        .ok ((), { withRoom room s with ticks := s.ticks + 1 }) from rfl), run_bind (show (get : Handler System)
          { withRoom room s with ticks := s.ticks + 1 } = .ok (_, _) from rfl), if_pos last]
      rfl
    have zero : s'.ticks = saved.ticks := still_switch saved () s' switched
    have dispatch := meets_result (switchToNextProcess_finishes (s := saved)) switched
    have before : Silent (withRoom room s) saved := ⟨rfl, rfl⟩
    exact ⟨zero, dispatches_silent dispatch before⟩
  · refine .inl ⟨last, ?_⟩
    unfold timerHandler at handled
    rw [run_bind (show (modify fun s => { s with ticks := s.ticks + 1 } : Handler Unit) (withRoom room s) =
      .ok ((), { withRoom room s with ticks := s.ticks + 1 }) from rfl), run_bind (show (get : Handler System)
        { withRoom room s with ticks := s.ticks + 1 } = .ok (_, _) from rfl), if_neg last] at handled
    cases handled
    exact ⟨rfl, rfl⟩

/-! ## Waiting -/

/-- How many ticks a process that waits can still be made to wait. -/
def patience (i : Nat) (s : System) : Nat :=
  ticksForTaskSwitch * (ahead i (s.sched.lists .ready)).length + (ticksForTaskSwitch - 1 - s.ticks % ticksForTaskSwitch)

/-- Each dispatch takes one of those that are ahead. -/
theorem dispatch_ahead {σ : Sched} (dispatch : Dispatches s σ s') (nodup : (σ.lists .ready).Nodup)
    (behind : Behind i (s.sched.lists .ready) (σ.lists .ready)) (inside : i ∈ s'.sched.lists .ready) :
    (s'.sched.runningProcess :: ahead i (s'.sched.lists .ready)).Sublist (ahead i (s.sched.lists .ready)) := by
  have next := (dispatched_switched (σ := σ)).next
  rw [← dispatch.sched] at next
  rcases next with ⟨_, _, none⟩ | ⟨skipped, ready, _, _⟩
  · rw [none] at inside
    exact absurd inside List.not_mem_nil
  · have before : i ∈ σ.lists .ready := by
      rw [ready]
      exact List.mem_append_right _ (List.mem_cons_of_mem _ inside)
    rw [ready] at nodup
    have served := served_ahead nodup inside
    rw [← ready] at served
    exact served.trans (behind before).2

theorem patience_taken (run : Run Started Anyhow Taken s) (user : i ≠ s.sched.idleProcess)
    (waits : i ∈ s.sched.lists .ready) (inside : i ∈ s'.sched.lists .ready) (taken : Taken s e s') :
    timerTicks e.2 + patience i s' ≤ patience i s := by
  have quantum : ticksForTaskSwitch = 10 := rfl
  obtain ⟨⟨new, _, served⟩, _⟩ := served_taken run user waits inside taken
  have fewer := ((List.sublist_append_right _ _).trans served).length_le
  obtain ⟨room, event⟩ := e
  cases event with
  | timer cpu =>
    have one : timerTicks (.timer cpu) = 1 := rfl
    unfold patience
    rw [one]
    rcases timer_counts taken.2 with ⟨notLast, ticks, lists⟩ | ⟨last, ticks, dispatch⟩
    · rw [ticks, lists]
      rw [quantum] at notLast ⊢
      omega
    · have idle := (taken_interrupted taken).1.2
      have queued := (scheduled_anyhow run idle).queued
      have running : s.sched.runningProcess ≠ i := by
        rintro rfl
        exact notListed (queued.gone _ List.mem_cons_self user) (by decide) waits
      have nodup : (s.sched.lists .ready).Nodup := queued.nodup (by decide)
      have overtaken := (dispatch_ahead dispatch (nodup_setReady nodup) (behind_setReady running) inside).length_le
      rw [List.length_cons] at overtaken
      have same : (withRoom room s).sched.lists = s.sched.lists := rfl
      rw [same] at overtaken
      rw [quantum] at last ⊢
      omega
  | systemCall | fault | enter | abort | terminal =>
    have ticks := still_interrupt rfl taken.2
    apply Nat.le_trans (Nat.le_of_eq (Nat.zero_add _))
    unfold patience
    rw [ticks, quantum]
    omega

end

end Delos.Invariants
