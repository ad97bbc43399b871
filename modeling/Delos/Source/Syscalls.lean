import Delos.Source.Scheduler

/-!
# syscalls.cpp

A system call reads its arguments from the saved registers of the caller. Strings
and buffers are those of `UserSpace`; a call that would meet a page that is not
present is a fault and does not get here.
-/
namespace Delos.Source

/-- `MAX_COLS` and `MAX_ROWS` -/
def maxCols : Nat := 80
def maxRows : Nat := 25

/-- `get_offset` -/
def getOffset (column row : Nat) : Nat := 2 * (row * maxCols + column)

/-- The local buffer of `sys_call_exec`; `strcpy` writes the terminator twice. -/
def execBufferSize : Nat := 256

section
variable (user : UserSpace)

/-- The result of a call: the register, and the exit code that can be asked for. -/
def setResult (pcb result : Nat) : Handler Unit := do
  onSched (Sched.setEax pcb result)
  setLastExitCode result

def setReady (pcb : Nat) : Handler Unit := onSched (Sched.setProcessAsReady pcb)

def focused (pcb : Nat) : Handler Bool := do
  let s ← getSched
  pure (decide (s.focusedTerminal = (s.pcbs pcb).shellId))

def sysCallExit (pcb : Nat) : Handler Unit := do
  let p ← getPcb pcb
  setLastExitCode p.regs.ebx
  onSched (Sched.wakeUpParentProcess p.ppid p.regs.ebx)
  killProcess pcb

def sysCallPrintf (pcb : Nat) : Handler Unit := do
  let p ← getPcb pcb
  let shown ← focused pcb
  if shown then do
    onFs (emit (.kprintfBytes (user.string p.regs.esi).bytes))
    printToProcess pcb (user.string p.regs.esi) false
    setReady pcb
  else do
    printToProcess pcb (user.string p.regs.esi) false
    setReady pcb

def sysCallMalloc (pcb : Nat) : Handler Unit := do
  let p ← getPcb pcb
  match user.malloc p.regs.ebx with
  | none => throw .endless
  | some block => do
    setResult pcb block
    setReady pcb

def sysCallFree (pcb : Nat) : Handler Unit := setReady pcb

def sysCallPid (pcb : Nat) : Handler Unit := do
  let p ← getPcb pcb
  onSched (Sched.setEax pcb p.pid)
  setReady pcb

def sysCallPpid (pcb : Nat) : Handler Unit := do
  let p ← getPcb pcb
  onSched (Sched.setEax pcb p.ppid)
  setReady pcb

def sysCallExec (pcb : Nat) : Handler Unit := do
  let p ← getPcb pcb
  let filename := user.string p.regs.ebx
  if execBufferSize < filename.bytes.length + 2 then throw .wildAccess
  else do
    setReady pcb
    onSched (Sched.setEax pcb 0)
    let child ← createProcess filename p.pid p.stdout p.shellId user.entry user.cr3
    match child with
    | none => setLastExitCode 0
    | some child => do
      let c ← getPcb child
      onSched (Sched.setEax pcb c.pid)
      setReady child
      setLastExitCode c.pid

/-- The name is kept in a block of `FILE_NAME_LEN` bytes. -/
def rememberOpenFile (pcb : Nat) (filename : CString) : Handler Unit := do
  let openFile ← onFs (kmalloc fileNameLen)
  onFs (strcpy openFile filename)
  onSched fun s =>
    if s.room = 0 then s
    else { (s.setPcb pcb fun p => { p with openFiles := p.openFiles ++ [openFile] }) with
      room := s.room - 1 }

/-- `file_exists` cuts the string of the caller off where it stands, so the name that is
kept is the normalised one. -/
def sysCallOpen (pcb : Nat) : Handler Unit := do
  let p ← getPcb pcb
  let filename := user.string p.regs.ebx
  let known ← onFs (fileExists filename)
  if known then do
    let result ← onFs (openFile filename)
    if result = 0 then do
      rememberOpenFile pcb (normalizeFilename filename)
      setResult pcb result
      setReady pcb
    else do
      setResult pcb result
      setReady pcb
  else do
    setResult pcb 1
    setReady pcb

/-- `list_contains` with `filename_cmp` -/
def openFilesContain (filename : CString) : List Nat → Kernel Bool
  | [] => pure false
  | a :: rest => do
    let name ← storedName a
    if name = filename then pure true else openFilesContain filename rest

/-- `list_remove_data` compares the address of the caller's string with those of the names. -/
def forgetOpenFile (pcb address : Nat) : Handler Unit := do
  let p ← getPcb pcb
  if address ∈ p.openFiles then do
    onFs (kfree address)
    onSched fun s => { (s.setPcb pcb fun p => { p with openFiles := p.openFiles.erase address }) with
      room := s.room + 1 }
  else pure ()

def sysCallClose (pcb : Nat) : Handler Unit := do
  let p ← getPcb pcb
  let filename := user.string p.regs.ebx
  let opened ← onFs (openFilesContain filename p.openFiles)
  if opened then do
    let result ← onFs (closeFile filename)
    forgetOpenFile pcb p.regs.ebx
    setResult pcb result
    setReady pcb
  else do
    setResult pcb 1
    setReady pcb

/-- The test in front of `read` and `write`; the list is searched for the normalised name. -/
def mayUse (filename : CString) (openFiles : List Nat) : Kernel Bool := do
  let known ← fileExists filename
  if known then openFilesContain (normalizeFilename filename) openFiles else pure false

def sysCallRead (pcb : Nat) : Handler Unit := do
  let p ← getPcb pcb
  let filename := user.string p.regs.esi
  let allowed ← onFs (mayUse filename p.openFiles)
  if allowed then do
    let (result, bytes) ← onFs (read filename p.regs.ecx p.regs.edx)
    storeToUser p.regs.ebx bytes.length
    setResult pcb result
    setReady pcb
  else do
    setResult pcb 1
    setReady pcb

def sysCallWrite (pcb : Nat) : Handler Unit := do
  let p ← getPcb pcb
  let filename := user.string p.regs.esi
  let allowed ← onFs (mayUse filename p.openFiles)
  if allowed then do
    let result ← onFs (write filename (user.bytes p.regs.ebx p.regs.edx) p.regs.ecx)
    setResult pcb result
    setReady pcb
  else do
    setResult pcb 1
    setReady pcb

/-- A call that hands its arguments to the file system and returns the result. -/
def fileCall (pcb : Nat) (call : Regs → Kernel Nat) : Handler Unit := do
  let p ← getPcb pcb
  let result ← onFs (call p.regs)
  setResult pcb result
  setReady pcb

def sysCallTouch (pcb : Nat) : Handler Unit := fileCall pcb fun regs => touch (user.string regs.ebx)

def sysCallCat (pcb : Nat) : Handler Unit := fileCall pcb fun regs => cat (user.string regs.ebx)

def sysCallCp (pcb : Nat) : Handler Unit :=
  fileCall pcb fun regs => cp (user.string regs.ebx) (user.string regs.ecx)

def sysCallRm (pcb : Nat) : Handler Unit := fileCall pcb fun regs => rm (user.string regs.ebx)

def sysCallLs (pcb : Nat) : Handler Unit := do
  onFs ls
  setReady pcb

def stateText : ProcessState → String
  | .new => "NEW\n\r"
  | .running => "RUNNING\n\r"
  | .waiting => "WAITING\n\r"
  | .ready => "READY\n\r"
  | .termination => "TERMINATION\n\r"

/-- `print_pcb` -/
def printPcb (p : Pcb) : Kernel Unit := do
  lsField "PID=" (itoaDec p.pid)
  lsField " | PPID=" (itoaDec p.ppid)
  lsField " | NAME=" p.name.bytes
  lsField " | STATE=" (textBytes (stateText p.state))

def printAllProcesses : List Pcb → Kernel Unit
  | [] => pure ()
  | p :: rest => do
    printPcb p
    printAllProcesses rest

def sysCallPs (pcb : Nat) : Handler Unit := do
  let s ← getSched
  onFs (printAllProcesses ((s.lists .all).map s.pcbs))
  setReady pcb

def printAllPrograms : List String → Kernel Unit
  | [] => pure ()
  | name :: rest => do
    emit (.kprintf (name ++ "\n\r"))
    printAllPrograms rest

def sysCallLp (pcb : Nat) : Handler Unit := do
  onFs (printAllPrograms programNames)
  setReady pcb

def sysCallClear (pcb : Nat) : Handler Unit := do
  onFs (emit .clearScreen)
  setReady pcb

/-- The number of the call is never that of printf here. -/
def sysCallExitCode (pcb : Nat) : Handler Unit := do
  let s ← get
  onSched (Sched.setEax pcb s.lastExitCode)
  setLastExitCode 0
  setReady pcb

def sysCallWait (pcb : Nat) : Handler Unit := do
  let p ← getPcb pcb
  let s ← getSched
  if s.existsProcess p.regs.ebx then onSched (Sched.blockProcessOnAnotherProcess pcb)
  else do
    setResult pcb 1
    setReady pcb

def sysCallReadLine (pcb : Nat) : Handler Unit := onSched (Sched.blockProcessOnKeyboard pcb)

/-- The registers that a child gets from its parent: all but EAX and CR3. -/
def forkRegs (parent child : Regs) : Regs :=
  { parent with eax := child.eax, cr3 := child.cr3 }

def sysCallFork (pcb : Nat) : Handler Unit := do
  let p ← getPcb pcb
  let child ← createProcess p.name p.pid p.stdout p.shellId user.entry user.cr3
  match child with
  | none => throw .wildAccess
  | some child => do
    onSched (Sched.setRegs child (forkRegs p.regs))
    onSched (Sched.setEax pcb 1)
    onSched (Sched.setEax child 0)
    setLastExitCode 1
    setReady pcb
    setReady child

def sysCallFileAppend (pcb : Nat) : Handler Unit := do
  let p ← getPcb pcb
  let filename := user.string p.regs.ebx
  let buffer := user.string p.regs.ecx
  let size ← onFs (getFileSize filename)
  let known ← onFs (fileExists filename)
  if known then do
    let result ← onFs (write filename buffer.bytes size)
    setResult pcb result
    setReady pcb
  else do
    let _ ← onFs (touch filename)
    let result ← onFs (write filename buffer.bytes size)
    setResult pcb result
    setReady pcb

def sysCallColorCommand (pcb : Nat) : Handler Unit := do
  let p ← getPcb pcb
  let shown ← focused pcb
  if shown then do
    onFs (emit (.setColor (.value (UInt8.ofNat p.regs.ebx ||| UInt8.ofNat p.regs.ecx))))
    setResult pcb 0
    setReady pcb
  else do
    setResult pcb 0
    setReady pcb

def sysCallSetCursor (pcb : Nat) : Handler Unit := do
  let p ← getPcb pcb
  let shown ← focused pcb
  if shown then
    if p.regs.ebx ≥ maxCols ∨ p.regs.ecx ≥ maxRows then do
      setResult pcb 1
      setReady pcb
    else do
      onFs (emit (.setCursor (getOffset p.regs.ebx p.regs.ecx)))
      setResult pcb 0
      setReady pcb
  else do
    setResult pcb 0
    setReady pcb

/-- The parent is not woken. -/
def unknownSystemCall (pcb number : Nat) : Handler Unit := do
  onFs (emit (.setColor .lightRed))
  onFs (emit (.kprintfBytes (textBytes "ERR: Unknown system call " ++ itoaDec number ++ textBytes "\n\r")))
  onFs (emit .resetColor)
  killProcess pcb

/-- The cases of the switch in `sys_callback`. -/
def sysCall (pcb number : Nat) : Handler Unit :=
  match number with
  | 100 => sysCallExit pcb
  | 101 => sysCallPrintf user pcb
  | 102 => sysCallReadLine pcb
  | 103 => sysCallMalloc user pcb
  | 104 => sysCallFree pcb
  | 105 => sysCallPid pcb
  | 106 => sysCallPpid pcb
  | 107 => sysCallExec user pcb
  | 109 => sysCallOpen user pcb
  | 110 => sysCallClose user pcb
  | 111 => sysCallRead user pcb
  | 112 => sysCallWrite user pcb
  | 113 => sysCallTouch user pcb
  | 114 => sysCallLs pcb
  | 115 => sysCallCat user pcb
  | 116 => sysCallCp user pcb
  | 117 => sysCallRm user pcb
  | 118 => sysCallPs pcb
  | 119 => sysCallLp pcb
  | 120 => sysCallFork user pcb
  | 121 => sysCallWait pcb
  | 122 => sysCallClear pcb
  | 123 => sysCallExitCode pcb
  | 124 => sysCallFileAppend user pcb
  | 125 => sysCallColorCommand pcb
  | 126 => sysCallSetCursor pcb
  | number => unknownSystemCall pcb number

def sysCallback : Handler Unit := do
  let s ← getSched
  sysCall user s.runningProcess (s.pcbs s.runningProcess).regs.eax

end

end Delos.Source
