import Delos.Source.Interrupts

/-!
# shell.cpp

What is seen of a shell from outside: the system calls that its process makes. In front of
every command stand those of the prompt: `color_screen_command`, `printf`, `read_line`.
-/
namespace Delos.Source

/-- The last call of the prompt that has been made. -/
inductive Prompt where
  | none | color | printf | readLine
  deriving DecidableEq, Repr

structure ShellView where
  /-- the process executed last -/
  child : Option Nat
  /-- what the last command has finished with -/
  status : Option Nat
  prompt : Prompt
  deriving DecidableEq, Repr

/-- Before the first prompt. -/
def ShellView.start : ShellView := ⟨none, none, .none⟩

/-- The process that an interrupt ends, and its exit code. A process that makes an unknown
system call has none. -/
def ending (s : System) : Event → Option (Nat × Nat)
  | .systemCall cpu _ => if cpu.eax = 100 then some (s.sched.runningProcess, cpu.ebx) else none
  | .fault _ => some (s.sched.runningProcess, 1)
  | .enter _ mapped =>
    match (s.sched.lists .blockedOnKeyboard).head? with
    | none => none
    | some pcb =>
      if (s.sched.pcbs pcb).shellId = s.sched.focusedTerminal ∧ mapped = false then
        some (s.sched.runningProcess, 1)
      else none
  | .abort _ =>
    if (s.sched.pcbs s.sched.getLatestRunningNonIdleProcess).pid ∈ [0, 1, 2, 3, 4] then none
    else some (s.sched.getLatestRunningNonIdleProcess, 1)
  | .timer _ | .terminal _ => none

/-- The calls of `touch`, `cat`, `cp`, `rm` and `file_append`. -/
def fileCommands : List Nat := [113, 115, 116, 117, 124]

/-- A call of the shell with the number: `child` is the process that it has created, and
`result` what the call returns. -/
def ShellView.call (number : Nat) (child : Option Nat) (result : Nat) (view : ShellView) : ShellView :=
  match number with
  | 125 => { view with prompt := .color }
  | 101 => { view with prompt := if view.prompt = .color then .printf else .none }
  | 102 => { view with prompt := if view.prompt = .printf then .readLine else .none }
  | 107 => ⟨child, none, .none⟩
  | number =>
    if number ∈ fileCommands then { view with status := some result, prompt := .none }
    else { view with prompt := .none }

/-- The child ends, whether or not the shell waits for it already. -/
def ShellView.ended (process code : Nat) (view : ShellView) : ShellView :=
  if view.child = some process then { view with status := some code } else view

/-- One interrupt, as it is seen of the shell. -/
def watch (shell : Nat) (s : System) (event : Event) (s' : System) (view : ShellView) : ShellView :=
  let view := match event with
    | .systemCall cpu _ =>
      if s.sched.runningProcess = shell then
        view.call cpu.eax (if s.sched.created < s'.sched.created then some s.sched.created else none)
          (s'.sched.pcbs shell).regs.eax
      else view
    | _ => view
  match ending s event with
  | some (process, code) => view.ended process code
  | none => view

end Delos.Source
