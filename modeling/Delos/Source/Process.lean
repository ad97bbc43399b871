import Mathlib.Logic.Function.Basic
import Delos.Source.Common

/-!
# process.cpp: processes, and what an interrupt finds and leaves

A PCB is named by the number of PCBs created before it; `kmalloc` never hands out
the block of one that is in use. The list nodes and the PCBs themselves lie
outside the window of the kernel heap: `room` is the number of nodes for which
there is memory, which every interrupt sets anew.
-/
namespace Delos.Source
open Lib (Program)

/-- `regs_t` -/
structure Regs where
  eax : Nat
  ecx : Nat
  edx : Nat
  ebx : Nat
  esp : Nat
  ebp : Nat
  esi : Nat
  edi : Nat
  eflags : Nat
  cr3 : Nat
  eip : Nat
  deriving DecidableEq, Repr

inductive ProcessState where
  | new | running | waiting | ready | termination
  deriving DecidableEq, Repr

/-- `PCB_t`. The heap and the page tables of a process are not in this model;
`openFiles` holds the addresses of the names. -/
structure Pcb where
  pid : Nat
  ppid : Nat
  regs : Regs
  name : CString
  stdout : CString
  state : ProcessState
  shellId : Nat
  openFiles : List Nat

/-- The four lists of processes. -/
inductive ProcessList where
  | all | ready | blockedOnProcess | blockedOnKeyboard
  deriving DecidableEq, Repr

structure Sched where
  pcbs : Nat → Pcb
  created : Nat
  /-- `static uint8_t pids[MAX_NUMBER_OF_PROCESSES]` -/
  pids : Nat → Bool
  lists : ProcessList → List Nat
  runningProcess : Nat
  idleProcess : Nat
  /-- `latest_running_non_idle_process`, by the index into the array -/
  latestRunning : Nat → Nat
  focusedTerminal : Nat
  room : Nat

/-! ## PCBs and lists -/

namespace Sched

def setPcb (pcb : Nat) (f : Pcb → Pcb) (s : Sched) : Sched :=
  { s with pcbs := Function.update s.pcbs pcb (f (s.pcbs pcb)) }

def setState (pcb : Nat) (state : ProcessState) : Sched → Sched :=
  setPcb pcb fun p => { p with state := state }

def setRegs (pcb : Nat) (f : Regs → Regs) : Sched → Sched :=
  setPcb pcb fun p => { p with regs := f p.regs }

def setEax (pcb eax : Nat) : Sched → Sched := setRegs pcb fun regs => { regs with eax := eax }

/-- Without memory for the node nothing is added. -/
def listAddFirst (list : ProcessList) (pcb : Nat) (s : Sched) : Sched :=
  if s.room = 0 then s
  else { s with lists := Function.update s.lists list (pcb :: s.lists list), room := s.room - 1 }

def listAddLast (list : ProcessList) (pcb : Nat) (s : Sched) : Sched :=
  if s.room = 0 then s
  else { s with lists := Function.update s.lists list (s.lists list ++ [pcb]), room := s.room - 1 }

/-- The first occurrence is removed. -/
def listRemoveData (list : ProcessList) (pcb : Nat) (s : Sched) : Sched :=
  if pcb ∈ s.lists list then
    { s with lists := Function.update s.lists list ((s.lists list).erase pcb), room := s.room + 1 }
  else s

end Sched

/-! ## Process ids -/

/-- `MAX_NUMBER_OF_PROCESSES` -/
def maxNumberOfProcesses : Nat := 256

/-- `UINT_MAX` when all are taken. -/
def allocatePid (s : Sched) : Nat × Sched :=
  match (List.range maxNumberOfProcesses).find? (fun i => s.pids i = false) with
  | some i => (i, { s with pids := Function.update s.pids i true })
  | none => (wordModulus - 1, s)

def freePid (pid : Nat) (s : Sched) : Sched := { s with pids := Function.update s.pids pid false }

/-! ## The processor -/

/-- The registers of a process while it runs. -/
structure Cpu where
  eax : Nat
  ecx : Nat
  edx : Nat
  ebx : Nat
  esp : Nat
  ebp : Nat
  esi : Nat
  edi : Nat
  eflags : Nat
  eip : Nat
  deriving DecidableEq, Repr

/-- The selectors that a process runs with. -/
def userCodeSelector : Nat := 0x18 + 3
def userDataSelector : Nat := 0x20 + 3

/-- The stack when `_generic_interrupt_handler` is called, top first; `stack` is the
stack pointer before `pusha`. -/
def isrFrame (cpu : Cpu) (intNo stack : Nat) : List Nat :=
  let pushedByProcessor := [cpu.eip, userCodeSelector, cpu.eflags, cpu.esp, userDataSelector]
  let pushedByStub := intNo :: 0 :: pushedByProcessor
  let pusha := [cpu.edi, cpu.esi, cpu.ebp, stack, cpu.ebx, cpu.edx, cpu.ecx, cpu.eax]
  let segments := List.replicate 4 userDataSelector
  (stack - 48) :: segments ++ pusha ++ pushedByStub

/-- `Interrupt_generic_registers_t` -/
structure InterruptRegisters where
  eaxOld : Nat
  gs : Nat
  fs : Nat
  es : Nat
  ds : Nat
  edi : Nat
  esi : Nat
  ebp : Nat
  esp : Nat
  ebx : Nat
  edx : Nat
  ecx : Nat
  eax : Nat
  intNo : Nat
  errCode : Nat
  eip : Nat
  cs : Nat
  eflags : Nat
  useresp : Nat
  ss : Nat

/-- The structure laid over the words on the stack. -/
def interruptRegisters (words : List Nat) : InterruptRegisters :=
  let word (i : Nat) := words.getD i 0
  ⟨word 0, word 1, word 2, word 3, word 4, word 5, word 6, word 7, word 8, word 9, word 10,
    word 11, word 12, word 13, word 14, word 15, word 16, word 17, word 18, word 19⟩

/-- The words of a `regs_t` in memory. -/
def Regs.words (regs : Regs) : List Nat :=
  [regs.eax, regs.ecx, regs.edx, regs.ebx, regs.esp, regs.ebp, regs.esi, regs.edi, regs.eflags,
    regs.cr3, regs.eip]

/-- `iret` to another privilege level pops EIP, CS, EFLAGS, ESP and SS. -/
def iret (stack : List Nat) (cpu : Cpu) : Cpu :=
  { cpu with eip := stack.getD 0 0, eflags := stack.getD 2 0, esp := stack.getD 3 0 }

/-- `_switch_task`: the registers it loads from the words at EBP. -/
def switchTask (words : List Nat) : Cpu :=
  let at' (offset : Nat) := words.getD (offset / 4) 0
  let stack := [at' 40, userCodeSelector, at' 32, at' 16, userDataSelector]
  iret stack
    { eax := at' 0, ecx := at' 4, edx := at' 8, ebx := at' 12, esp := 0, ebp := at' 20, esi := at' 24
      edi := at' 28, eflags := 0, eip := 0 }

/-! ## The whole kernel -/

structure System where
  fs : Fs
  sched : Sched
  lastExitCode : Nat
  /-- `static int ticks` of the timer -/
  ticks : Nat
  /-- What `_switch_task` has loaded, and for which process. -/
  switches : List (Nat × Cpu)
  /-- The lines stored for processes that read from the keyboard. -/
  delivered : List (Nat × CString)

abbrev Handler (α : Type) := Program System Stop α

def onFs {α : Type} (x : Kernel α) : Handler α := fun s =>
  match x s.fs with
  | .ok (a, fs) => .ok (a, { s with fs := fs })
  | .error e => .error e

def onSched (f : Sched → Sched) : Handler Unit := modify fun s => { s with sched := f s.sched }

def getSched : Handler Sched := do
  let s ← get
  pure s.sched

def getPcb (pcb : Nat) : Handler Pcb := do
  let s ← getSched
  pure (s.pcbs pcb)

def setLastExitCode (code : Nat) : Handler Unit := modify fun s => { s with lastExitCode := code }

/-- What a system call finds at the addresses in the registers of the caller: its
strings, its buffers, and the result of `heap_malloc` in its own heap. `entry` and
`cr3` are what the loader finds for a process that the call creates. -/
structure UserSpace where
  string : Nat → CString
  bytes : Nat → Nat → List UInt8
  malloc : Nat → Option Nat
  entry : Nat
  cr3 : Nat

/-- The part of the address space that belongs to the process. -/
def userStart : Nat := 0x800000
def userEnd : Nat := 0xC0000000

/-- The kernel stores to an address that a process has passed. Any other address is
one of the kernel itself or of the screen. -/
def storeToUser (address len : Nat) : Handler Unit :=
  if userStart ≤ address ∧ address + len ≤ userEnd then pure () else throw .wildAccess

/-! ## New processes -/

/-- The names in the table of user_programs.cpp. -/
def programNames : List String :=
  ["idle.exe", "test_fork.exe", "test_malloc.exe", "test_wait.exe", "shell.exe", "calc.exe",
    "ipcalc.exe", "page_fault.exe", "gpf.exe", "zero.exe", "yell_A.exe", "yell_B.exe",
    "par_demo.exe", "par_demo2.exe", "hanoi.exe", "fibonacci.exe", "rain.exe"]

def getProgram (name : CString) : Option String :=
  programNames.find? fun program => textBytes program = name.bytes

/-- The frames of the stack and of the three heap tables of a process. -/
def leastProcessFrames : Nat := 4 * 1024

/-- The frames below 4 GiB but for the first 2048, the kernel heap and the file system. -/
def mostProcessFrames : Nat := 2 ^ 20 - 2048 - 10 * 1024

/-- There are more processes than there is memory for. -/
def framesTakenUp (s : Sched) : Bool :=
  decide (mostProcessFrames < leastProcessFrames * ((s.lists .all).length + 1))

def eflagsAtStart : Nat := 2 + 512

/-- `TOP_STACK_ADDR(PROCESS_STACK_PAGE_TABLE)` -/
def topStackAddr : Nat := 0xBFFFFFFF

/-- The PCB that `create_process_virtual_addr_space` fills in. -/
def newPcb (filename : CString) (ppid : Nat) (stdout : CString) (shellId entry cr3 : Nat)
    (s : Sched) : Sched :=
  let (pid, s) := allocatePid s
  let regs : Regs :=
    { eax := 0, ecx := 0, edx := 0, ebx := 0, esp := topStackAddr, ebp := 0, esi := 0, edi := 0
      eflags := eflagsAtStart, cr3 := cr3, eip := entry }
  { s with
    created := s.created + 1
    pcbs := Function.update s.pcbs s.created
      { pid := pid, ppid := ppid, regs := regs, name := filename, stdout := stdout, state := .new
        shellId := shellId, openFiles := [] } }

/-- `process_count`: `init_processes` sets it to 0 and nothing changes it. -/
def processCount : Nat := 0

/-- NULL for an unknown program. The entry point and the page directory are those of
the loaded program; `taken` says when the page frames run out. -/
def createProcessUnless (taken : Sched → Bool) (filename : CString) (ppid : Nat) (stdout : CString)
    (shellId entry cr3 : Nat) : Handler (Option Nat) := do
  if processCount ≥ maxNumberOfProcesses then pure none
  else
    match getProgram filename with
    | none => pure none
    | some _ => do
      let s ← getSched
      if taken s then do
        onFs (panicWith "ERR: all frames are taken up!")
        pure none
      else do
        onSched (newPcb filename ppid stdout shellId entry cr3)
        onSched (Sched.listAddLast .all s.created)
        pure (some s.created)

def createProcess : CString → Nat → CString → Nat → Nat → Nat → Handler (Option Nat) :=
  createProcessUnless framesTakenUp

end Delos.Source
