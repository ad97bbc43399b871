import Delos.Source.Syscalls

/-!
# handlers.cpp, keyboard.cpp and the start of the scheduler

What an interrupt does from the moment the processor takes it until a process runs
again. Interrupts are only taken while a process runs. Of the keys, Enter, CTRL+C
and the ones that switch terminals reach the scheduler.
-/
namespace Delos.Source

/-! ## Faults -/

inductive Fault where
  | doubleFault | invalidTss | segmentNotPresent | stackSegmentFault | generalProtection
  | unknown | coprocessor | simd
  | pageFault (address : Nat)

/-- `itoa_hex` -/
def itoaHex (v : Nat) : List UInt8 := textBytes (String.ofList (Nat.toDigits 16 v))

def Fault.text : Fault → List UInt8
  | .doubleFault => textBytes "Interrupt Double Fault Exception!\r\n"
  | .invalidTss => textBytes "Interrupt Invalid TSS!\r\n"
  | .segmentNotPresent => textBytes "Interrupt Segment not present!\r\n"
  | .stackSegmentFault => textBytes "Interrupt Stack segment fault!\r\n"
  | .generalProtection => textBytes "Interrupt GPF! (General Protection Fault)\r\n"
  | .unknown => textBytes "Interrupt Unknown\r\n"
  | .coprocessor => textBytes "Interrupt Coprocessor fault\r\n"
  | .simd => textBytes "Interrupt SIMD Floating-Point Exception!\r\n"
  | .pageFault address =>
    textBytes "Interrupt Page Fault, on address: 0x" ++ itoaHex address ++ textBytes "\r\n"

/-- Whichever process runs is killed. -/
def killRunningProcess : Handler Unit := do
  let s ← getSched
  let p := s.pcbs s.runningProcess
  onSched (Sched.wakeUpParentProcess p.ppid 1)
  killProcess s.runningProcess
  switchToNextProcess

/-- All but one of the handlers set the colour back. -/
def faultHandler (fault : Fault) : Handler Unit := do
  onFs (emit (.setColor .yellow))
  onFs (emit (.kprintfBytes fault.text))
  match fault with
  | .invalidTss | .coprocessor => do
    onFs (emit .resetColor)
    throw .panic
  | .unknown => killRunningProcess
  | _ => do
    onFs (emit .resetColor)
    killRunningProcess

/-! ## Timer and system calls -/

/-- `TICKS_FOR_TASK_SWITCH` -/
def ticksForTaskSwitch : Nat := 10

/-- The kernel stack pointer of the TSS, less the words pushed before `pusha`. -/
def kernelStack : Nat := 0xC0100000

def saveRunning (cpu : Cpu) (intNo : Nat) : Handler Unit :=
  onSched fun s => s.saveProcessContext s.runningProcess (isrFrame cpu intNo kernelStack)

def timerHandler (cpu : Cpu) : Handler Unit := do
  modify fun s => { s with ticks := s.ticks + 1 }
  let s ← get
  if s.ticks % ticksForTaskSwitch = 0 then do
    modify fun s => { s with ticks := 0 }
    saveRunning cpu 0x20
    onSched fun s => s.setProcessAsReady s.runningProcess
    switchToNextProcess
  else pure ()

def systemCallHandler (cpu : Cpu) (user : UserSpace) : Handler Unit := do
  saveRunning cpu 0x80
  sysCallback user
  switchToNextProcess

/-! ## Keyboard -/

/-- `KEYBOARD_BUFF_SIZE` -/
def keyboardBuffSize : Nat := 64

/-- The line goes to the address in EDI of the process, in its own address space; when
a page there is not present, the page fault is taken in the middle of the handler. -/
def wakeProcessWaitingForKeyboard (data : CString) (mapped : Bool) : Handler Unit := do
  let s ← getSched
  match (s.lists .blockedOnKeyboard).head? with
  | none => pure ()
  | some pcb =>
    if (s.pcbs pcb).shellId ≠ s.focusedTerminal then pure ()
    else do
      storeToUser (s.pcbs pcb).regs.edi (data.bytes.length + 2)
      if mapped then do
        modify fun s => { s with delivered := s.delivered ++ [(pcb, data)] }
        printToProcess pcb data true
        onSched fun s =>
          Sched.unblock pcb .blockedOnKeyboard (s.listRemoveData .blockedOnKeyboard pcb)
      else faultHandler (.pageFault (s.pcbs pcb).regs.edi)

def enterHandler (line : CString) (mapped : Bool) : Handler Unit := do
  onFs (emit (.kprintf "\n\r"))
  wakeProcessWaitingForKeyboard line mapped

/-- The context of the process on the CPU is not saved here. -/
def abortCurrentCmd : Handler Unit := do
  let s ← getSched
  let pcb := s.getLatestRunningNonIdleProcess
  if (s.pcbs pcb).pid ∈ [0, 1, 2, 3, 4] then onFs (emit (.kprintf "^C\n\r"))
  else do
    onSched (Sched.wakeUpParentProcess (s.pcbs pcb).ppid 1)
    killProcess pcb
    onFs (emit (.kprintf "^C\n\r"))
    if s.runningProcess ≠ pcb then do
      setReady s.runningProcess
      switchToNextProcess
    else switchToNextProcess

/-! ## Start -/

def idleExe : CString := ⟨textBytes "idle.exe", by decide⟩
def shellExe : CString := ⟨textBytes "shell.exe", by decide⟩

/-- The name of the stdout file of a terminal. -/
def shellStdout (terminal : Fin 4) : CString :=
  ⟨textBytes "shell_" ++ [UInt8.ofNat ('1'.toNat + terminal)], by revert terminal; decide⟩

instance neZero_terminals : NeZero 4 := ⟨by decide⟩

/-- The entry point and the page directory that the loader finds for each process. -/
abbrev Loader := Nat → Nat × Nat

def createShell (loader : Loader) (i : Fin 4) : Handler Nat := do
  let _ ← onFs (touch (shellStdout i))
  let _ ← onFs (setAsSystemFile (shellStdout i))
  let (entry, cr3) := loader (i + 1)
  let pcb ← createProcess shellExe 0 (shellStdout i) (i + 1) entry cr3
  match pcb with
  | none => throw .wildAccess
  | some pcb => do
    onSched fun s => { s with latestRunning := Function.update s.latestRunning i pcb }
    pure pcb

/-- The first shell is appended to the ready list last. -/
def createShells (loader : Loader) : Handler Unit := do
  let first ← createShell loader 0
  let second ← createShell loader 1
  setReady second
  let third ← createShell loader 2
  setReady third
  let fourth ← createShell loader 3
  setReady fourth
  setReady first

/-- The stdout of the idle process is what lies at address 0; it is never used. -/
def initProcessScheduler (loader : Loader) : Handler Unit := do
  let (entry, cr3) := loader 0
  let idle ← createProcess idleExe 0 ⟨[], plain_nil⟩ 0 entry cr3
  match idle with
  | none => throw .wildAccess
  | some idle => do
    onSched fun s => { s.setState idle .waiting with idleProcess := idle, runningProcess := idle }
    createShells loader
    onSched fun s => { s with focusedTerminal := 1 }
    onFs (emit (.setColor .cyan))
    onFs (emit (.terminalIndex 1))
    onFs (emit .resetColor)

/-- The end of `_kernel_main`. -/
def startProcesses (loader : Loader) : Handler Unit := do
  initProcessScheduler loader
  switchToNextProcess

/-- The nodes of five processes, four of which become ready. -/
def bootNodes : Nat := 9

/-- No process has been created yet: the pointers to PCBs are null, and the kernel heap
is empty. -/
structure Fresh (s : System) : Prop where
  created : s.sched.created = 0
  pids : ∀ pid, s.sched.pids pid = false
  lists : ∀ list, s.sched.lists list = []
  latest : ∀ terminal, s.sched.latestRunning terminal = 0
  room : bootNodes ≤ s.sched.room
  switches : s.switches = []

/-! ## Interrupts -/

/-- `cpu` holds the registers of the process that is interrupted. -/
inductive Event where
  | timer (cpu : Cpu)
  | systemCall (cpu : Cpu) (user : UserSpace)
  | fault (fault : Fault)
  | enter (line : CString) (mapped : Bool)
  | abort (cpu : Cpu)
  | terminal (number : Nat)

/-- The idle process is an endless loop: it makes no system call and no fault. -/
def Happens (s : System) : Event → Prop
  | .systemCall _ _ | .fault _ => s.sched.runningProcess ≠ s.sched.idleProcess
  | .enter line _ => line.bytes.length < keyboardBuffSize
  | .terminal number => 1 ≤ number ∧ number ≤ numberOfTerminals
  | .timer _ | .abort _ => True

def handle : Event → Handler Unit
  | .timer cpu => timerHandler cpu
  | .systemCall cpu user => systemCallHandler cpu user
  | .fault fault => faultHandler fault
  | .enter line mapped => enterHandler line mapped
  | .abort _ => abortCurrentCmd
  | .terminal number => switchToTerminal number

/-- An interrupt, with memory for `room` list nodes. A process whose PCB has been freed
cannot go on, and the PCB of the idle process is read by every switch. -/
def interrupt (room : Nat) (event : Event) : Handler Unit := do
  let s ← getSched
  if s.runningProcess ∈ s.lists .all ∧ s.idleProcess ∈ s.lists .all then do
    onSched fun s => { s with room := room }
    handle event
  else throw .wildAccess

end Delos.Source
