import Delos.Source.Shell
import Delos.Invariants.ExitCodes
import Delos.Guarantees.SchedulerPartition

/-!
# The status that a shell reads back

`last_exit_code` is one variable, and `color_screen_command` assigns 0 to it. The shell
calls it in front of every prompt, so what `$?` shows is never the status of the command
before the prompt, unless that was 0 or another process has assigned the same number.
-/
namespace Delos.Guarantees
open Lib Source Invariants

def WatchedStart (o : System × ShellView) : Prop := Started o.1 ∧ o.2 = .start

/-- An interrupt, and what is seen of the shell. -/
def Watched (shell : Nat) (o : System × ShellView) (e : Nat × Event) (o' : System × ShellView) : Prop :=
  Taken o.1 e o'.1 ∧ o'.2 = watch shell o.1 e.2 o'.1 o.2

/-- From `color_screen_command` on no other process assigns anything but 0. -/
def QuietPrompt (shell : Nat) (o : System × ShellView) (e : Nat × Event) : Prop :=
  o.2.prompt ≠ .none → o.1.sched.runningProcess ≠ shell → Quiet o.1 e.2

/-- `get_last_process_return_value`, called behind the prompt. -/
def AsksStatus (shell : Nat) (o : System × ShellView) (event : Event) : Prop :=
  o.2.prompt = .readLine ∧ o.1.sched.runningProcess = shell ∧
    ∃ cpu user, event = .systemCall cpu user ∧ cpu.eax = 123

/-- `$?` shows what the last command has finished with. -/
def ReadsBack (shell : Nat) (o : System × ShellView) (s' : System) : Prop :=
  ∀ v, o.2.status = some v → (s'.sched.pcbs shell).regs.eax = v

/-- The last command has finished with 0. -/
def Succeeded (o : System × ShellView) : Prop := ∀ v, o.2.status = some v → v = 0

section
variable {o o' : System × ShellView} {s s' : System} {e : Nat × Event} {shell : Nat} {event : Event}

/-- The function follows `Terminates`. -/
theorem ending_iff {process code : Nat} : ending s event = some (process, code) ↔ Terminates s event process code := by
  constructor
  · intro ends
    cases event with
    | timer cpu | terminal number => cases ends
    | fault fault =>
      cases ends
      exact .fault
    | systemCall cpu user =>
      simp only [ending] at ends
      split at ends
      next call =>
        cases ends
        exact .exit call
      next => cases ends
    | abort cpu =>
      simp only [ending] at ends
      split at ends
      next => cases ends
      next later =>
        cases ends
        exact .abort later
    | enter line mapped =>
      simp only [ending] at ends
      split at ends
      next => cases ends
      next pcb first =>
        split at ends
        next both =>
          cases ends
          obtain ⟨focused, rfl⟩ := both
          exact .pageFault ⟨pcb, first, focused⟩
        next => cases ends
  · intro terminates
    cases terminates with
    | exit call => exact if_pos call
    | fault => rfl
    | pageFault focused =>
      obtain ⟨pcb, first, focused⟩ := focused
      simp [ending, first, focused]
    | abort later => exact if_neg later

/-- The end of the child is no call of the prompt. -/
theorem prompt_ended (view : ShellView) (outcome : Option (Nat × Nat)) : (match outcome with
    | some (process, code) => view.ended process code
    | none => view).prompt = view.prompt := by
  cases outcome with
  | none => rfl
  | some ends =>
    show (view.ended ends.1 ends.2).prompt = view.prompt
    unfold ShellView.ended
    split <;> rfl

/-- Nor is what a call of the shell returns. -/
theorem prompt_called (number : Nat) (child : Option Nat) (result : Nat) (view : ShellView) :
    (view.call number child result).prompt = (view.call number none 0).prompt := by
  unfold ShellView.call
  split
  case h_5 => split <;> rfl
  all_goals rfl

theorem prompt_watch (view : ShellView) : (watch shell s event s' view).prompt = match event with
    | .systemCall cpu _ =>
      if s.sched.runningProcess = shell then (view.call cpu.eax none 0).prompt else view.prompt
    | _ => view.prompt := by
  unfold watch
  refine (prompt_ended _ _).trans ?_
  cases event with
  | systemCall cpu user =>
    by_cases own : s.sched.runningProcess = shell
    · simp only [own, if_true, prompt_called cpu.eax (if s.sched.created < s'.sched.created then _ else _)]
    · simp only [own, if_false]
  | _ => rfl

/-- The calls of the prompt. -/
theorem prompt_call {number : Nat} {view : ShellView} (prompted : (view.call number none 0).prompt ≠ .none) :
    number = 125 ∨ (number = 101 ∨ number = 102) ∧ view.prompt ≠ .none := by
  unfold ShellView.call at prompted
  split at prompted
  · exact .inl rfl
  · refine .inr ⟨.inl rfl, ?_⟩
    rintro none
    simp [none] at prompted
  · refine .inr ⟨.inr rfl, ?_⟩
    rintro none
    simp [none] at prompted
  · exact absurd rfl prompted
  · split at prompted
    · exact absurd rfl prompted
    · exact absurd rfl prompted

theorem colorCommand_code {pcb : Nat} (run : sysCallColorCommand pcb s = .ok ((), s')) : s'.lastExitCode = 0 := by
  unfold sysCallColorCommand at run
  have shown : focused pcb s = .ok (decide (s.sched.focusedTerminal = (s.sched.pcbs pcb).shellId), s) := rfl
  rw [run_bind (getPcb_run pcb s), run_bind shown] at run
  split at run
  · cases run
    rfl
  · cases run
    rfl

/-- `get_last_process_return_value` returns the code. -/
theorem exitCode_returned {pcb : Nat} (run : sysCallExitCode pcb s = .ok ((), s')) :
    (s'.sched.pcbs pcb).regs.eax = s.lastExitCode := by
  cases run
  show (((s.sched.setEax pcb s.lastExitCode).setProcessAsReady pcb).pcbs pcb).regs.eax = s.lastExitCode
  rw [regs_setReady]
  show (Function.update s.sched.pcbs pcb _ pcb).regs.eax = s.lastExitCode
  rw [Function.update_self]

/-- Behind `color_screen_command` the code is 0. -/
def Cleared (o : System × ShellView) : Prop := o.2.prompt ≠ .none → o.1.lastExitCode = 0

theorem quiet_keeps {room : Nat} (zero : s.lastExitCode = 0) (quiet : Quiet s event)
    (run : interrupt room event s = .ok ((), s')) : s'.lastExitCode = 0 := by
  rcases quiet_interrupt quiet run with same | zero'
  · exact same.trans zero
  · exact zero'

/-- `color_screen_command`, and the switch behind it. -/
theorem color_clears {room : Nat} {cpu : Cpu} {user : UserSpace} (number : cpu.eax = 125)
    (run : interrupt room (.systemCall cpu user) s = .ok ((), s')) : s'.lastExitCode = 0 := by
  obtain ⟨s1, call, switch⟩ := interrupt_call run
  rw [number] at call
  have zero : s1.lastExitCode = 0 := colorCommand_code call
  rcases quiet_switchToNextProcess s1 () s' switch with same | zero'
  · exact same.trans zero
  · exact zero'

theorem cleared_step (cleared : Cleared o) (quiet : QuietPrompt shell o e) (step : Watched shell o e o') :
    Cleared o' := by
  intro prompted
  obtain ⟨⟨_, run⟩, view⟩ := step
  obtain ⟨room, event⟩ := e
  rw [view, prompt_watch] at prompted
  cases event with
  | systemCall cpu user =>
    by_cases own : o.1.sched.runningProcess = shell
    · simp only [own, if_true] at prompted
      rcases prompt_call prompted with color | ⟨printed, before⟩
      · exact color_clears color run
      · refine quiet_keeps (cleared before) ?_ run
        rcases printed with number | number
        · simp [Quiet, number, QuietCall, assigningCalls]
        · simp [Quiet, number, QuietCall, assigningCalls]
    · simp only [own, if_false] at prompted
      exact quiet_keeps (cleared prompted) (quiet prompted own) run
  | _ =>
    refine quiet_keeps (cleared prompted) ?_ run
    exact trivial

theorem cleared_run (run : Run WatchedStart (QuietPrompt shell) (Watched shell) o) : Cleared o := by
  apply run.invariant
  · intro o started prompted
    rw [started.2] at prompted
    exact absurd rfl prompted
  · exact fun o e o' cleared quiet step => cleared_step cleared quiet step

/-- The switch leaves what the call has returned. -/
theorem asked_code {room : Nat} {cpu : Cpu} {user : UserSpace} (number : cpu.eax = 123)
    (run : interrupt room (.systemCall cpu user) s = .ok ((), s')) :
    (s'.sched.pcbs s.sched.runningProcess).regs.eax = s.lastExitCode := by
  obtain ⟨s1, call, switch⟩ := interrupt_call run
  rw [number] at call
  have returned := exitCode_returned call
  have dispatch := meets_result switchToNextProcess_finishes switch
  rw [dispatch.sched, regs_switched]
  exact returned

end

/-- While the prompt is shown, the others make only calls that never assign a code. -/
def Unassigning (shell : Nat) (o : System × ShellView) : Event → Prop
  | .systemCall cpu _ => o.2.prompt = .none ∨ o.1.sched.runningProcess = shell ∨ cpu.eax ∈ [101, 102, 105, 106]
  | _ => True

instance (shell : Nat) (o : System × ShellView) (event : Event) : Decidable (Unassigning shell o event) :=
  match event with
  | .systemCall cpu _ => inferInstanceAs (Decidable
      (o.2.prompt = .none ∨ o.1.sched.runningProcess = shell ∨ cpu.eax ∈ [101, 102, 105, 106]))
  | .timer _ | .fault _ | .enter _ _ | .abort _ | .terminal _ => inferInstanceAs (Decidable True)

/-- One interrupt after the other, and no call from behind the prompt on that can assign a code. -/
def watchScript (shell : Nat) : List Event → System × ShellView → Except Stop (System × ShellView)
  | [], o => .ok o
  | event :: rest, o =>
    if Happens o.1 event ∧ Unassigning shell o event then do
      let (_, s) ← interrupt plenty event o.1
      watchScript shell rest (s, watch shell o.1 event s o.2)
    else .error .wildAccess

section
variable {o o' : System × ShellView} {shell room : Nat} {event : Event} {events : List Event}

theorem unassigning_quiet (unassigning : Unassigning shell o event) : QuietPrompt shell o (room, event) := by
  intro prompted other
  cases event with
  | systemCall cpu user =>
    rcases unassigning with none | own | plain
    · exact absurd none prompted
    · exact absurd own other
    · simp only [List.mem_cons, List.not_mem_nil, or_false] at plain
      rcases plain with number | number | number | number <;>
        simp [Quiet, number, QuietCall, assigningCalls]
  | _ => trivial

theorem watchScript_run (before : Run WatchedStart (QuietPrompt shell) (Watched shell) o)
    (run : watchScript shell events o = .ok o') : Run WatchedStart (QuietPrompt shell) (Watched shell) o' := by
  induction events generalizing o with
  | nil =>
    obtain rfl : o = o' := Except.ok.inj run
    exact before
  | cons event rest ih =>
    rw [watchScript] at run
    split at run
    next holds =>
      cases first : interrupt plenty event o.1 with
      | error e => simp [first, bind, Except.bind] at run
      | ok p =>
        simp only [first, bind, Except.bind] at run
        refine ih (.step (e := (plenty, event)) before (unassigning_quiet holds.2) ?_) run
        exact ⟨⟨holds.1, first⟩, rfl⟩
    next => cases run

/-- The number is that of a command. Behind it the first shell shows its prompt and reads a line, while the fourth
only yields. -/
def prompted (number : Nat) : List Event :=
  [readLineAt 0x40000000, readLineAt 0x40000000, callWith 105 0 0, callWith number 0 0, callWith 105 0 0,
    callWith 125 0 0, callWith 105 0 0, callWith 101 0 0, callWith 105 0 0, readLineAt 0x40000000,
    .enter ⟨[], plain_nil⟩ true, callWith 105 0 0]

/-- What the first shell reads back behind the command. -/
def readsBack (number status : Nat) : Bool :=
  endsWith (fun s => endsWith (fun o : System × ShellView =>
      decide (o.2.prompt = .readLine ∧ o.1.sched.runningProcess = 1 ∧ o.2.status = some status) &&
        endsWith (fun s => decide ((s.sched.pcbs 1).regs.eax = 0)) (script [callWith 123 0 0] o.1))
    (watchScript 1 (prompted number) (s, .start))) (bootRun [])

/-- Behind `touch` that makes a file, and behind `cat` that finds none. -/
theorem readsBack_commands : readsBack 113 0 = true ∧ readsBack 115 1 = true := by
  rw [readsBack, readsBack, bootRun_booted]
  decide +kernel

theorem readsBack_run {number status : Nat} (reads : readsBack number status = true) :
    ∃ o s', Run WatchedStart (QuietPrompt 1) (Watched 1) o ∧ Taken o.1 (plenty, callWith 123 0 0) s' ∧
      AsksStatus 1 o (callWith 123 0 0) ∧ o.2.status = some status ∧ (s'.sched.pcbs 1).regs.eax = 0 := by
  obtain ⟨s, run, reads⟩ := endsWith_iff.mp reads
  obtain ⟨s0, started, run⟩ := bootRun_started run
  obtain rfl : s0 = s := Except.ok.inj run
  obtain ⟨o, run, reads⟩ := endsWith_iff.mp reads
  obtain ⟨holds, asked⟩ := Bool.and_eq_true_iff.mp reads
  obtain ⟨prompt, own, status⟩ := of_decide_eq_true holds
  obtain ⟨s', taken, zero⟩ := script_taken asked
  refine ⟨o, s', watchScript_run (.init ⟨started, rfl⟩) run, taken, ?_, status, of_decide_eq_true zero⟩
  exact ⟨prompt, own, _, _, rfl, rfl⟩

end

end Delos.Guarantees
