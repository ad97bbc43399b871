import Delos.Source.Process

/-!
# scheduler.cpp

The four lists of processes, the running process and the focused terminal. A
process that is killed leaves all lists; `switch_to_next_process` takes the first
process of the ready list that is not the idle one.
-/
namespace Delos.Source

/-- `NUMBER_OF_TERMINALS` -/
def numberOfTerminals : Nat := 4

namespace Sched

/-- The index `shell_id - 1` as an unsigned word. -/
def terminalIndex (shellId : Nat) : Nat := (shellId + wordModulus - 1) % wordModulus

def getLatestRunningNonIdleProcess (s : Sched) : Nat :=
  s.latestRunning (terminalIndex s.focusedTerminal)

def isBlockedElsewhere (pcb : Nat) (originalQueue : ProcessList) (s : Sched) : Bool :=
  (ProcessList.blockedOnKeyboard ≠ originalQueue ∧ pcb ∈ s.lists .blockedOnKeyboard) ∨
    (ProcessList.blockedOnProcess ≠ originalQueue ∧ pcb ∈ s.lists .blockedOnProcess)

/-- The state is set before the node is created. -/
def setProcessAsReady (pcb : Nat) (s : Sched) : Sched :=
  if pcb ∈ s.lists .ready then s else (s.setState pcb .ready).listAddLast .ready pcb

def blockProcessOnAnotherProcess (pcb : Nat) (s : Sched) : Sched :=
  (s.setState pcb .waiting).listAddLast .blockedOnProcess pcb

def blockProcessOnKeyboard (pcb : Nat) (s : Sched) : Sched :=
  (s.setState pcb .waiting).listAddFirst .blockedOnKeyboard pcb

/-- The first blocked process with the pid. -/
def waitingParent (ppid : Nat) (s : Sched) : Option Nat :=
  (s.lists .blockedOnProcess).find? fun pcb => (s.pcbs pcb).pid = ppid

/-- A process that leaves a list of blocked processes is ready unless it is in the other. -/
def unblock (pcb : Nat) (queue : ProcessList) (s : Sched) : Sched :=
  if isBlockedElsewhere pcb queue s then s else setProcessAsReady pcb s

def wakeUpParentProcess (ppid exitCode : Nat) (s : Sched) : Sched :=
  match waitingParent ppid s with
  | none => s
  | some parent =>
    unblock parent .blockedOnProcess
      ((s.listRemoveData .blockedOnProcess parent).setEax parent exitCode)

def existsProcess (pid : Nat) (s : Sched) : Bool :=
  (s.lists .all).any fun pcb => (s.pcbs pcb).pid = pid

/-- The processes of the terminal, which are kept in a list of their own meanwhile. -/
def ofTerminal (shellId : Nat) (queue : ProcessList) (s : Sched) : List Nat :=
  ((s.lists queue).filter fun pcb => (s.pcbs pcb).shellId = shellId).take (s.room - 1)

/-- They are removed from the first to the last and put in front from the last to the first. -/
def rescheduleProcess (shellId : Nat) (queue : ProcessList) (s : Sched) : Sched :=
  let pcbs := ofTerminal shellId queue s
  let s := { s with room := s.room - 1 - pcbs.length }
  let s := pcbs.foldl (fun s pcb => s.listRemoveData queue pcb) s
  let s := pcbs.foldr (fun pcb s => s.listAddFirst queue pcb) s
  { s with room := s.room + pcbs.length + 1 }

/-- What `kill_process` does to the lists. -/
def forgetProcess (pcb : Nat) (s : Sched) : Sched :=
  (((s.listRemoveData .ready pcb).listRemoveData .all pcb).listRemoveData .blockedOnProcess pcb).listRemoveData
    .blockedOnKeyboard pcb

/-- The ready list behind the loop of `switch_to_next_process`, and who is next. -/
def nextProcess (idle : Nat) : List Nat → Nat × List Nat
  | [] => (idle, [])
  | pcb :: rest => if pcb = idle then nextProcess idle rest else (pcb, rest)

/-- The registers, from the words that the interrupt stub has pushed. -/
def saveProcessContext (pcb : Nat) (words : List Nat) : Sched → Sched :=
  let regs := interruptRegisters words
  setRegs pcb fun old =>
    { old with
      eax := regs.eax, ebx := regs.ebx, ecx := regs.ecx, edx := regs.edx, esi := regs.esi
      edi := regs.edi, esp := regs.useresp, ebp := regs.ebp, eflags := regs.eflags, eip := regs.eip }

end Sched

/-! ## Handlers -/

/-- `switch_process`; what the process does with the registers is up to it. -/
def switchProcess (pcb : Nat) : Handler Unit := do
  onSched (Sched.setState pcb .running)
  let p ← getPcb pcb
  modify fun s => { s with switches := s.switches ++ [(pcb, switchTask p.regs.words)] }

/-- The nodes of the processes that were skipped are freed as well. -/
def dispatchNext (s : Sched) : Sched :=
  let (next, rest) := Sched.nextProcess s.idleProcess (s.lists .ready)
  let s := { s with
    runningProcess := next
    lists := Function.update s.lists .ready rest
    room := s.room + ((s.lists .ready).length - rest.length) }
  if next = s.idleProcess then s
  else { s with latestRunning :=
    Function.update s.latestRunning (Sched.terminalIndex (s.pcbs next).shellId) next }

/-- The machine is shut down when only one process is left. -/
def switchToNextProcess : Handler Unit := do
  let s ← getSched
  if (s.lists .all).length ≤ 1 then do
    onFs (emit (.setColor .green))
    onFs (emit (.kprintf "System shutting down ...\r\n"))
    onFs (emit (.kprintf "(It is safe to turn off the PC now)\r\n"))
    throw .panic
  else do
    onSched dispatchNext
    let s ← getSched
    switchProcess s.runningProcess

/-- The characters of a name in the kernel heap. -/
def storedName (a : Nat) : Kernel CString := do
  let bytes ← readString wordModulus a
  if plain : (0 : UInt8) ∉ bytes then pure ⟨bytes, plain⟩ else throw .endless

/-- Every file that the process has open is closed and its name freed. -/
def closeOpenFiles : List Nat → Kernel Unit
  | [] => pure ()
  | filename :: rest => do
    let name ← storedName filename
    let _ ← closeFile name
    kfree filename
    closeOpenFiles rest

def killProcess (pcb : Nat) : Handler Unit := do
  let p ← getPcb pcb
  onSched (freePid p.pid)
  onSched (Sched.forgetProcess pcb)
  onFs (closeOpenFiles p.openFiles)
  onSched fun s => { s with
    pcbs := Function.update s.pcbs pcb { s.pcbs pcb with openFiles := [] }
    latestRunning := Function.update s.latestRunning (Sched.terminalIndex p.shellId) s.idleProcess }

/-- What `print_to_stream` gets from the PCB. -/
def printToProcess (pcb : Nat) (buffer : CString) (addNewline : Bool) : Handler Unit := do
  let p ← getPcb pcb
  onFs (printToStream p.stdout buffer addNewline)

/-- `list_create` gives no list when there is no memory for it. -/
def reschedule (shellId : Nat) (queue : ProcessList) : Handler Unit := do
  let s ← getSched
  if s.room = 0 then throw .outOfMemory
  else onSched (Sched.rescheduleProcess shellId queue)

/-- The terminal is the first process whose pid is the number of the terminal. -/
def switchToTerminal (pid : Nat) : Handler Unit := do
  let s ← getSched
  match (s.lists .all).find? fun pcb => (s.pcbs pcb).pid = pid with
  | none => pure ()
  | some pcb => do
    onSched fun s => { s with focusedTerminal := pid }
    reschedule pid .blockedOnKeyboard
    reschedule pid .blockedOnProcess
    onFs (emit .clearScreen)
    onFs (terminalText (s.pcbs pcb).stdout)
    onFs (emit (.setColor .cyan))
    onFs (emit (.terminalIndex pid))
    onFs (emit .resetColor)

end Delos.Source
