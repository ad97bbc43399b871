import Delos.Invariants.Terminals

/-!
# Switching to a terminal

`switch_to_terminal` finds the terminal by a process with its number as pid. That
process is the shell which the terminal had at the start, as long as no shell ends before
the other processes of its terminal; then the pid is free, and after the next
`create_process` it may belong to any terminal.
-/
namespace Delos.Guarantees
open Lib Source Invariants

/-- The screen behind `clear_screen`. -/
def cleared (fs : Fs) : Fs := { fs with screen := fs.screen ++ [.clearScreen] }

/-- The number of the terminal is the last thing that is drawn. -/
def captioned (t : Nat) (fs : Fs) : Fs :=
  { fs with screen := fs.screen ++ [.setColor .cyan, .terminalIndex t, .resetColor] }

/-- The terminal has the focus and the screen shows the stdout file. -/
structure Redrawn (s : System) (t : Nat) (stdout : CString) (s' : System) : Prop where
  focus : s'.sched.focusedTerminal = t
  screen : ∃ fs, terminalText stdout (cleared s.fs) = .ok ((), fs) ∧ s'.fs = captioned t fs

/-- Whichever process of the terminal is alive, its stdout file is redrawn. The switch ends whenever
there is memory for a list and the file can be read. -/
def SwitchShows (s : System) (t : Nat) : Prop :=
  ∀ p ∈ s.sched.lists .all, (s.sched.pcbs p).shellId = t → ∀ room,
    (∀ s', switchToTerminal t (withRoom room s) = .ok ((), s') → Redrawn s t (s.sched.pcbs p).stdout s') ∧
      (0 < room → ∀ fs, terminalText (s.sched.pcbs p).stdout (cleared s.fs) = .ok ((), fs) →
        ∃ s', switchToTerminal t (withRoom room s) = .ok ((), s'))

section
variable {s : System} {t j p : Nat}

theorem reschedule_noMemory {queue : ProcessList} (none : s.sched.room = 0) :
    reschedule t queue s = .error .outOfMemory := by
  unfold reschedule
  rw [run_bind (show getSched s = .ok (s.sched, s) from rfl), if_pos none]
  rfl

theorem reschedule_run {queue : ProcessList} (some : 0 < s.sched.room) :
    reschedule t queue s = .ok ((), { s with sched := s.sched.rescheduleProcess t queue }) := by
  unfold reschedule
  rw [run_bind (show getSched s = .ok (s.sched, s) from rfl), if_neg (Nat.ne_of_gt some)]
  rfl

/-- What the first process with the pid decides is the file. -/
theorem switchToTerminal_run (found : (s.sched.lists .all).find? (fun i => (s.sched.pcbs i).pid = t) = some j) :
    switchToTerminal t s = if s.sched.room = 0 then .error .outOfMemory
      else match terminalText (s.sched.pcbs j).stdout (cleared s.fs) with
        | .ok ((), fs) => .ok ((), { s with sched := Sched.focusedOn t s.sched, fs := captioned t fs })
        | .error e => .error e := by
  unfold switchToTerminal
  rw [run_bind (show getSched s = .ok (s.sched, s) from rfl), found]
  simp only
  have focus : onSched (fun s => { s with focusedTerminal := t }) s =
      .ok ((), { s with sched := { s.sched with focusedTerminal := t } }) := rfl
  refine (run_bind focus).trans ?_
  split
  next none => exact run_stop (reschedule_noMemory none)
  next some =>
    have room : 0 < s.sched.room := Nat.pos_of_ne_zero some
    refine (run_bind (reschedule_run (s := { s with sched := { s.sched with focusedTerminal := t } }) room)).trans ?_
    have later : 0 < ({ s.sched with focusedTerminal := t }.rescheduleProcess t .blockedOnKeyboard).room := by
      have kept := rescheduleProcess_fields (t := t) (q := .blockedOnKeyboard)
        (σ := { s.sched with focusedTerminal := t }) room
      rw [kept]
      exact room
    refine (run_bind (reschedule_run (s := { s with
      sched := { s.sched with focusedTerminal := t }.rescheduleProcess t .blockedOnKeyboard }) later)).trans ?_
    have clear : onFs (emit .clearScreen) { s with sched := Sched.focusedOn t s.sched } =
        .ok ((), { s with sched := Sched.focusedOn t s.sched, fs := cleared s.fs }) := rfl
    refine (run_bind clear).trans ?_
    cases text : terminalText (s.sched.pcbs j).stdout (cleared s.fs) with
    | error e =>
      apply run_stop
      unfold onFs
      rw [text]
    | ok r =>
      obtain ⟨⟨⟩, fs⟩ := r
      have drawn : onFs (terminalText (s.sched.pcbs j).stdout)
          { s with sched := Sched.focusedOn t s.sched, fs := cleared s.fs } =
          .ok ((), { s with sched := Sched.focusedOn t s.sched, fs := fs }) := by
        unfold onFs
        rw [text]
      refine (run_bind drawn).trans ?_
      have caption : captioned t fs = { fs with
          screen := ((fs.screen ++ [.setColor .cyan]) ++ [.terminalIndex t]) ++ [.resetColor] } := by
        simp [captioned]
      show _ = Except.ok ((), { s with sched := Sched.focusedOn t s.sched, fs := captioned t fs })
      rw [caption]
      rfl

/-- The process that the switch finds is one of the terminal. -/
theorem switchShows_found (terminals : Terminals s.sched) (few : t < maxNumberOfProcesses)
    (alive : p ∈ s.sched.lists .all) (user : p ≠ s.sched.idleProcess) (here : (s.sched.pcbs p).shellId = t) :
    ∃ j, (s.sched.lists .all).find? (fun i => (s.sched.pcbs i).pid = t) = some j ∧
      (s.sched.pcbs j).stdout = (s.sched.pcbs p).stdout := by
  obtain ⟨shell, live, user', own, same⟩ := terminals.shell p alive user
  cases found : (s.sched.lists .all).find? (fun i => (s.sched.pcbs i).pid = t) with
  | none =>
    have other := List.find?_eq_none.mp found shell live
    rw [own, here] at other
    simp at other
  | some j =>
    have inside := List.mem_of_find?_eq_some found
    have pid : (s.sched.pcbs j).pid = t := by simpa using List.find?_some found
    have only : j = shell := by
      apply terminals.distinct j inside shell live
      · rw [pid, own, here]
      · rwa [pid]
    rw [only]
    exact ⟨shell, rfl, terminals.stdout shell live p alive user' user same⟩

end

/-- Nobody has the pid, a process of the terminal is alive, and another terminal has the focus. -/
def lostTerminal (t : Nat) (σ : Sched) : Bool :=
  decide (σ.focusedTerminal ≠ t) && ((σ.lists .all).find? fun i => (σ.pcbs i).pid = t).isNone &&
    (σ.lists .all).any fun i => (σ.pcbs i).shellId = t

theorem lostTerminal_hidden {s : System} {t : Nat} (lost : lostTerminal t s.sched = true) : ¬ SwitchShows s t := by
  intro shows
  unfold lostTerminal at lost
  simp only [Bool.and_eq_true, Option.isNone_iff_eq_none, List.any_eq_true] at lost
  obtain ⟨⟨other, nobody⟩, p, alive, here⟩ := lost
  obtain ⟨ends, _⟩ := shows p alive (of_decide_eq_true here) 1
  have nothing : switchToTerminal t (withRoom 1 s) = .ok ((), withRoom 1 s) := by
    unfold switchToTerminal
    rw [run_bind (show getSched (withRoom 1 s) = .ok ((withRoom 1 s).sched, withRoom 1 s) from rfl)]
    have nobody : ((withRoom 1 s).sched.lists .all).find?
        (fun i => ((withRoom 1 s).sched.pcbs i).pid = t) = none := nobody
    rw [nobody]
    rfl
  exact of_decide_eq_true other (ends _ nothing).focus

end Delos.Guarantees
