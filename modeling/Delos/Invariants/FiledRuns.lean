import Delos.Invariants.OpenCalls

/-!
# Runs that keep files open

What every interrupt needs so that the file system stays sound and the files that are kept
stay open: room for what a process stores, and that no such file is closed or deleted.
-/
namespace Delos.Invariants
open Lib Source

/-- The system calls behind which the caller goes on. -/
def goingOn : List Nat :=
  [101, 102, 103, 104, 105, 106, 107, 109, 110, 111, 112, 113, 114, 115, 116, 117, 118, 119, 120, 121, 122, 123, 124,
    125, 126]

/-- What a system call needs in the state that it starts in. -/
structure CallProvided (kept : Nat → CString → Prop) (user : UserSpace) (pcb : Nat) (regs : Regs) (number : Nat)
    (s : System) : Prop where
  ends : number ∉ goingOn → Survived kept s pcb
  prints : number = 101 → PrintsApart kept s.fs.disk (s.sched.pcbs pcb).stdout (user.string regs.esi) false
  opens : number = 109 → Opens s (user.string regs.ebx)
  closes : number = 110 → Closes kept s pcb (user.string regs.ebx) regs.ebx
  writes : number = 112 →
    FileOperation.Ready s.fs.disk (.write (user.string regs.esi) (user.bytes regs.ebx regs.edx) regs.ecx)
  touches : number = 113 → FileOperation.Ready s.fs.disk (.touch (user.string regs.ebx))
  copies : number = 116 → FileOperation.Ready s.fs.disk (.cp (user.string regs.ebx) (user.string regs.ecx)) ∧
    Free kept (user.string regs.ecx)
  removes : number = 117 → FileOperation.Ready s.fs.disk (.rm (user.string regs.ebx)) ∧ Free kept (user.string regs.ebx)
  appends : number = 124 → AppendSafe s.fs.disk (user.string regs.ebx) (user.string regs.ecx).bytes.length

/-- What Enter needs: the line is printed, or the running process dies of the address of the buffer. -/
def EnterProvided (kept : Nat → CString → Prop) (line : CString) (mapped : Bool) (s : System) : Prop :=
  ∀ pcb, (s.sched.lists .blockedOnKeyboard).head? = some pcb → (s.sched.pcbs pcb).shellId = s.sched.focusedTerminal →
    if mapped then PrintsApart kept s.fs.disk (s.sched.pcbs pcb).stdout line true
    else Survived kept s s.sched.runningProcess

/-- What an interrupt needs, with memory for some list nodes. -/
def Provided (kept : Nat → CString → Prop) (s : System) (e : Nat × Event) : Prop :=
  match e.2 with
  | .timer _ => True
  | .systemCall cpu user =>
    CallProvided kept user s.sched.runningProcess
      ((entered e.1 cpu s).sched.pcbs s.sched.runningProcess).regs cpu.eax (entered e.1 cpu s)
  | .fault _ => Survived kept s s.sched.runningProcess
  | .enter line mapped => EnterProvided kept line mapped s
  | .abort _ => (s.sched.pcbs s.sched.getLatestRunningNonIdleProcess).pid ∉ [0, 1, 2, 3, 4] →
    Survived kept s s.sched.getLatestRunningNonIdleProcess
  | .terminal number => ∀ pcb, (s.sched.lists .all).find? (fun pcb => (s.sched.pcbs pcb).pid = number) = some pcb →
    ∃ r, LogFile s.fs.disk (s.sched.pcbs pcb).stdout r

section
variable {s s' s1 : System} {kept : Nat → CString → Prop} {pcb : Nat} {user : UserSpace}

theorem shown_disk {fs fs' : Fs} (shown : Shown fs fs') : fs'.disk = fs.disk := by
  obtain ⟨screen, rfl⟩ := shown
  rfl

theorem keepsOpen_shownOnly {fs : Fs} (shown : Shown s.fs fs) : KeepsOpen kept s { s with fs := fs } := by
  refine keepsOpen_looks ?_
  rintro ⟨_, _, _, parked, _⟩
  obtain ⟨screen, rfl⟩ := shown
  exact ⟨parked.onScreen screen, rfl, kept_refl⟩

/-- Something is printed first. -/
theorem emit_run {fs : Fs} {call : ScreenCall} {f : Unit → Handler Unit} (shown : Shown s.fs fs)
    (run : (onFs (emit call) >>= f) { s with fs := fs } = .ok ((), s')) :
    ∃ fs', Shown s.fs fs' ∧ f () { s with fs := fs' } = .ok ((), s') := by
  obtain ⟨screen, rfl⟩ := shown
  exact ⟨_, ⟨screen ++ [call], rfl⟩, run⟩

theorem setLastExitCode_run (code : Nat) (s : System) :
    setLastExitCode code s = .ok ((), { s with lastExitCode := code }) := rfl

/-! ## The end of a process -/

/-- The kill behind changes of the scheduler and of the screen. -/
theorem keepsOpen_killed {σ : Sched} {fs : Fs} {code : Nat} (same : SameNames s.sched σ) (shown : Shown s.fs fs)
    (created : pcb < s.sched.created) (survived : Survived kept s pcb)
    (run : killProcess pcb { s with fs := fs, sched := σ, lastExitCode := code } = .ok ((), s')) : KeepsOpen kept s s' := by
  have first : KeepsOpen kept s { s with fs := fs } := keepsOpen_shownOnly shown
  have second : KeepsOpen kept { s with fs := fs } { s with fs := fs, sched := σ, lastExitCode := code } :=
    keepsOpen_same same rfl
  refine IsTrans.trans _ _ _ (IsTrans.trans _ _ _ first second) (keepsOpen_kill ?_ ?_ run)
  · exact Nat.lt_of_lt_of_le created same.created
  · obtain ⟨screen, rfl⟩ := shown
    exact survived_same same rfl created survived

theorem keepsOpen_exit (created : pcb < s.sched.created) (survived : Survived kept s pcb)
    (run : sysCallExit pcb s = .ok ((), s')) : KeepsOpen kept s s' := by
  unfold sysCallExit at run
  rw [run_bind (getPcb_run pcb s), run_bind (setLastExitCode_run _ s), run_bind (onSched_run _ _)] at run
  exact keepsOpen_killed sameNames_wake ⟨s.fs.screen, rfl⟩ created survived run

theorem keepsOpen_unknown {number : Nat} (created : pcb < s.sched.created) (survived : Survived kept s pcb)
    (run : unknownSystemCall pcb number s = .ok ((), s')) : KeepsOpen kept s s' := by
  unfold unknownSystemCall at run
  obtain ⟨fs1, shown1, run⟩ := emit_run shown_refl run
  obtain ⟨fs2, shown2, run⟩ := emit_run shown1 run
  obtain ⟨fs3, shown3, run⟩ := emit_run shown2 run
  exact keepsOpen_killed sameNames_refl shown3 created survived run

theorem getSched_run (s : System) : getSched s = .ok (s.sched, s) := rfl

/-- The running process is killed, behind changes of the screen. -/
theorem keepsOpen_killRunning {fs : Fs} (shown : Shown s.fs fs) (created : s.sched.runningProcess < s.sched.created)
    (survived : Survived kept s s.sched.runningProcess)
    (run : killRunningProcess { s with fs := fs } = .ok ((), s')) : KeepsOpen kept s s' := by
  unfold killRunningProcess at run
  rw [run_bind (getSched_run _), run_bind (onSched_run _ _)] at run
  obtain ⟨_, s1, killed, run⟩ := bind_run run
  have gone : KeepsOpen kept s s1 := keepsOpen_killed sameNames_wake shown created survived killed
  exact IsTrans.trans _ _ _ gone (keepsOpen_switchToNextProcess _ () s' run)

theorem keepsOpen_fault {fault : Fault} {fs : Fs} (shown : Shown s.fs fs)
    (created : s.sched.runningProcess < s.sched.created) (survived : Survived kept s s.sched.runningProcess)
    (run : faultHandler fault { s with fs := fs } = .ok ((), s')) : KeepsOpen kept s s' := by
  unfold faultHandler at run
  obtain ⟨fs1, shown1, run⟩ := emit_run shown run
  obtain ⟨fs2, shown2, run⟩ := emit_run shown1 run
  cases fault with
  | invalidTss | coprocessor => cases run
  | unknown => exact keepsOpen_killRunning shown2 created survived run
  | _ =>
    obtain ⟨fs3, shown3, run⟩ := emit_run shown2 run
    exact keepsOpen_killRunning shown3 created survived run

theorem keepsOpen_abort (created : s.sched.getLatestRunningNonIdleProcess < s.sched.created)
    (survived : (s.sched.pcbs s.sched.getLatestRunningNonIdleProcess).pid ∉ [0, 1, 2, 3, 4] →
      Survived kept s s.sched.getLatestRunningNonIdleProcess)
    (run : abortCurrentCmd s = .ok ((), s')) : KeepsOpen kept s s' := by
  unfold abortCurrentCmd at run
  rw [run_bind (getSched_run s)] at run
  split at run
  next => exact keepsOpen_emit _ s () s' run
  next later =>
    rw [run_bind (onSched_run _ _)] at run
    obtain ⟨_, s1, killed, run⟩ := bind_run run
    have gone : KeepsOpen kept s s1 := keepsOpen_killed sameNames_wake ⟨s.fs.screen, rfl⟩ created (survived later) killed
    refine IsTrans.trans _ _ _ gone ?_
    have rest : Along (KeepsOpen kept) (onFs (emit (.kprintf "^C\n\r")) >>= fun _ =>
        if s.sched.runningProcess ≠ s.sched.getLatestRunningNonIdleProcess then do
          setReady s.sched.runningProcess
          switchToNextProcess
        else switchToNextProcess) := by
      refine along_bind (keepsOpen_emit _) fun _ => along_ite (fun _ => ?_) fun _ => keepsOpen_switchToNextProcess
      exact along_bind (keepsOpen_setReady _) fun _ => keepsOpen_switchToNextProcess
    exact rest s1 () s' run

/-! ## The other interrupts -/

theorem sameNames_saved {cpu : Cpu} {number : Nat} {σ : Sched} : SameNames σ (Sched.saved cpu number σ) := by
  unfold Sched.saved Sched.saveProcessContext
  exact sameNames_setRegs

theorem keepsOpen_timer (cpu : Cpu) : Along (KeepsOpen kept) (timerHandler cpu) := by
  refine along_bind (along_modify fun _ => keepsOpen_same sameNames_refl rfl) fun _ => along_bind along_get fun _ => ?_
  refine along_ite (fun _ => ?_) fun _ => along_pure _
  refine along_bind (along_modify fun _ => keepsOpen_same sameNames_refl rfl) fun _ => ?_
  refine along_bind (keepsOpen_onSched fun _ => sameNames_saved) fun _ => ?_
  exact along_bind (keepsOpen_onSched fun _ => sameNames_setReady) fun _ => keepsOpen_switchToNextProcess

theorem storeToUser_run {address len : Nat} (run : storeToUser address len s = .ok ((), s')) : s' = s := by
  unfold storeToUser at run
  split at run
  next =>
    cases run
    rfl
  next => cases run

theorem keepsOpen_enter {line : CString} {mapped : Bool} (created : s.sched.runningProcess < s.sched.created)
    (provided : EnterProvided kept line mapped s) (run : enterHandler line mapped s = .ok ((), s')) :
    KeepsOpen kept s s' := by
  unfold enterHandler wakeProcessWaitingForKeyboard at run
  obtain ⟨fs, shown, run⟩ := emit_run shown_refl run
  rw [run_bind (getSched_run _)] at run
  have emitted : KeepsOpen kept s { s with fs := fs } := keepsOpen_shownOnly shown
  cases first : (s.sched.lists .blockedOnKeyboard).head? with
  | none =>
    simp only [first] at run
    cases run
    exact emitted
  | some pcb =>
    simp only [first] at run
    split at run
    next =>
      cases run
      exact emitted
    next focused =>
      have provided := provided pcb first (not_not.mp focused)
      obtain ⟨_, s1, stored, run⟩ := bind_run run
      cases storeToUser_run stored
      cases mapped with
      | false => exact keepsOpen_fault shown created provided run
      | true =>
        have prints : PrintsApart kept s.fs.disk (s.sched.pcbs pcb).stdout line true := provided
        rw [← shown_disk shown] at prints
        rw [if_pos rfl, run_bind (run_modify _ _)] at run
        have delivered : KeepsOpen kept { s with fs := fs }
            { s with fs := fs, delivered := s.delivered ++ [(pcb, line)] } := keepsOpen_same sameNames_refl rfl
        refine IsTrans.trans _ _ _ emitted (IsTrans.trans _ _ _ delivered (keepsOpen_behind ?_ ?_ run))
        · exact fun _ s2 => keepsOpen_print prints
        · exact fun _ => keepsOpen_onSched fun _ => sameNames_listRemoveData.trans sameNames_unblock

/-- The processes of the terminal are put in front. -/
theorem sameNames_reschedule {σ : Sched} {shellId : Nat} {queue : ProcessList} (room : 0 < σ.room) :
    SameNames σ (σ.rescheduleProcess shellId queue) := by
  rw [rescheduleProcess_fields room]
  exact sameNames_rest rfl rfl

theorem reschedule_sameNames {shellId : Nat} {queue : ProcessList} (run : reschedule shellId queue s = .ok ((), s')) :
    ∃ σ, SameNames s.sched σ ∧ s' = { s with sched := σ } := by
  unfold reschedule at run
  rw [run_bind (getSched_run s)] at run
  split at run
  next => cases run
  next room =>
    cases run
    exact ⟨_, sameNames_reschedule (Nat.pos_of_ne_zero room), rfl⟩

theorem keepsOpen_terminal {number : Nat}
    (provided : ∀ pcb, (s.sched.lists .all).find? (fun pcb => (s.sched.pcbs pcb).pid = number) = some pcb →
      ∃ r, LogFile s.fs.disk (s.sched.pcbs pcb).stdout r)
    (run : switchToTerminal number s = .ok ((), s')) : KeepsOpen kept s s' := by
  unfold switchToTerminal at run
  rw [run_bind (getSched_run s)] at run
  cases found : (s.sched.lists .all).find? fun pcb => (s.sched.pcbs pcb).pid = number with
  | none =>
    simp only [found] at run
    cases run
    exact refl (r := KeepsOpen kept) s
  | some pcb =>
    simp only [found] at run
    obtain ⟨r, file⟩ := provided pcb found
    rw [run_bind (onSched_run _ _)] at run
    obtain ⟨_, s1, first, run⟩ := bind_run run
    obtain ⟨σ1, same1, rfl⟩ := reschedule_sameNames first
    obtain ⟨_, s2, second, run⟩ := bind_run run
    obtain ⟨σ2, same2, rfl⟩ := reschedule_sameNames second
    obtain ⟨fs1, shown1, run⟩ := emit_run (s := { s with sched := σ2 }) shown_refl run
    obtain ⟨_, s3, third, run⟩ := bind_run run
    obtain ⟨fs2, printed, rfl⟩ := onFs_run third
    have same : SameNames s.sched σ2 := by
      have focus : SameNames s.sched { s.sched with focusedTerminal := number } := sameNames_rest rfl rfl
      exact (focus.trans same1).trans same2
    have cleared : KeepsOpen kept s { s with fs := fs1 } := keepsOpen_shownOnly shown1
    have printed : terminalText (s.sched.pcbs pcb).stdout fs1 = .ok ((), fs2) := printed
    have redrawn : KeepsOpen kept { s with fs := fs1 } { s with fs := fs2 } := by
      have file : LogFile fs1.disk (s.sched.pcbs pcb).stdout r := (shown_disk shown1).symm ▸ file
      have spares : Spares (nameBlocks (openNames s.sched)) NoFile fs1 fs2 := sparing_terminalText file printed
      exact keepsOpen_spares (s := { s with fs := fs1 }) spares fun _ _ _ => id
    have moved : KeepsOpen kept { s with fs := fs2 } { s with fs := fs2, sched := σ2 } := keepsOpen_same same rfl
    have rest : Along (KeepsOpen kept) (onFs (emit (.setColor .cyan)) >>= fun _ =>
        onFs (emit (.terminalIndex number)) >>= fun _ => onFs (emit .resetColor)) :=
      along_bind (keepsOpen_emit _) fun _ => along_bind (keepsOpen_emit _) fun _ => keepsOpen_emit _
    have shown : KeepsOpen kept { s with fs := fs2, sched := σ2 } s' := rest _ () s' run
    exact IsTrans.trans _ _ _ cleared (IsTrans.trans _ _ _ redrawn (IsTrans.trans _ _ _ moved shown))

/-! ## All interrupts -/

theorem keepsOpen_sysCall {number : Nat} (filed : Filed (openNames s.sched) s.fs) (created : pcb < s.sched.created)
    (provided : CallProvided kept user pcb (s.sched.pcbs pcb).regs number s)
    (run : sysCall user pcb number s = .ok ((), s')) : KeepsOpen kept s s' := by
  have plain : ∀ {x : Handler Unit}, Along (KeepsOpen kept) x → x s = .ok ((), s') → KeepsOpen kept s s' :=
    fun within run => within s () s' run
  unfold sysCall at run
  split at run
  · exact keepsOpen_exit created (provided.ends (by decide)) run
  · exact keepsOpen_printf (provided.prints rfl) run
  · exact plain (keepsOpen_readLine pcb) run
  · exact plain (keepsOpen_malloc user pcb) run
  · exact plain (keepsOpen_setReady pcb) run
  · exact plain (keepsOpen_reply pcb fun p => p.pid) run
  · exact plain (keepsOpen_reply pcb fun p => p.ppid) run
  · exact plain (keepsOpen_exec user pcb) run
  · exact keepsOpen_every (keepsOpen_open filed created (provided.opens rfl) run).1
  · exact keepsOpen_close filed created (provided.closes rfl) run
  · exact plain (keepsOpen_read user pcb) run
  · exact keepsOpen_write (provided.writes rfl) run
  · have touched : ∀ res fs, touch (user.string (s.sched.pcbs pcb).regs.ebx) s.fs = .ok (res, fs) →
        Spares (nameBlocks (openNames s.sched)) NoFile s.fs fs := fun _ _ done => sparing_touch (provided.touches rfl) done
    exact keepsOpen_fileCall touched (fun _ _ _ => id) run
  · exact plain (keepsOpen_ls pcb) run
  · exact plain (keepsOpen_cat user pcb) run
  · obtain ⟨ready, free⟩ := provided.copies rfl
    exact keepsOpen_fileCall (fun _ _ done => sparing_operation _ ready done) free run
  · obtain ⟨ready, free⟩ := provided.removes rfl
    exact keepsOpen_fileCall (fun _ _ done => sparing_operation _ ready done) free run
  · exact plain (keepsOpen_ps pcb) run
  · exact plain (keepsOpen_shown pcb (printAllPrograms_calm _)) run
  · exact plain (keepsOpen_fork user pcb) run
  · exact plain (keepsOpen_wait pcb) run
  · exact plain (keepsOpen_shown pcb (emit_calm _)) run
  · exact plain (keepsOpen_exitCode pcb) run
  · exact keepsOpen_append (provided.appends rfl) run
  · exact plain (keepsOpen_colorCommand pcb) run
  · exact plain (keepsOpen_setCursor pcb) run
  · refine keepsOpen_unknown created (provided.ends ?_) run
    simp_all [goingOn]

theorem keepsOpen_entered {room : Nat} {cpu : Cpu} : KeepsOpen kept s (entered room cpu s) := by
  have roomy : SameNames s.sched { s.sched with room := room } := sameNames_rest rfl rfl
  exact keepsOpen_same (roomy.trans sameNames_saved) rfl

/-- The step lemma of the runs that keep files open. -/
theorem keepsOpen_taken {e : Nat × Event} (scheduled : Scheduled False s.sched) (provided : Provided kept s e)
    (taken : Taken s e s') : KeepsOpen kept s s' := by
  obtain ⟨room, event⟩ := e
  obtain ⟨happens, run⟩ := taken
  obtain ⟨⟨alive, idle⟩, _⟩ := interrupt_run run
  have made := scheduled.queued.created
  have running := made _ alive
  have roomy : KeepsOpen kept s (withRoom room s) := keepsOpen_same (sameNames_rest rfl rfl) rfl
  have handled : handle event (withRoom room s) = .ok ((), s') := by
    unfold interrupt at run
    rw [run_bind (getSched_run s), if_pos ⟨alive, idle⟩, run_bind (onSched_run _ s)] at run
    exact run
  cases event with
  | timer cpu => exact IsTrans.trans _ _ _ roomy (keepsOpen_timer cpu _ () s' handled)
  | systemCall cpu user =>
    obtain ⟨s1, call, switch⟩ := interrupt_call run
    have entering : KeepsOpen kept s (entered room cpu s) := keepsOpen_entered
    have called : KeepsOpen kept (entered room cpu s) s1 := fun filed => keepsOpen_sysCall filed running provided call filed
    have switched : KeepsOpen kept s1 s' := keepsOpen_switchToNextProcess _ () s' switch
    exact IsTrans.trans _ _ _ entering (IsTrans.trans _ _ _ called switched)
  | fault fault => exact IsTrans.trans _ _ _ roomy (keepsOpen_fault shown_refl running provided handled)
  | enter line mapped => exact IsTrans.trans _ _ _ roomy (keepsOpen_enter running provided handled)
  | abort cpu =>
    have latest : s.sched.getLatestRunningNonIdleProcess ∈ s.sched.lists .all := by
      by_cases same : s.sched.getLatestRunningNonIdleProcess = s.sched.idleProcess
      · rwa [same]
      · exact (scheduled.queued.latestAlive scheduled.focus same).1
    exact IsTrans.trans _ _ _ roomy (keepsOpen_abort (made _ latest) provided handled)
  | terminal number => exact IsTrans.trans _ _ _ roomy (keepsOpen_terminal provided handled)

/-- What a run from any state on keeps. -/
theorem keepsOpen_run {start : System} (before : Run Started Anyhow Taken start)
    (run : Run (· = start) (Provided kept) Taken s) : Run Started Anyhow Taken s ∧ KeepsOpen kept start s := by
  induction run with
  | init same =>
    cases same
    exact ⟨before, refl (r := KeepsOpen kept) start⟩
  | step _ provided taken ih =>
    obtain ⟨before, follows⟩ := ih
    have scheduled := scheduled_anyhow before (taken_interrupted taken).1.2
    exact ⟨.step before trivial taken, IsTrans.trans _ _ _ follows (keepsOpen_taken scheduled provided taken)⟩

end

end Delos.Invariants
