import Mathlib.Logic.Function.Basic
import Delos.Source.Keyboard

/-!
# screen.cpp and mouse.cpp

The text area is the 4000 bytes from `VIDEO_ADDRESS`; a store outside of it stops the run. The
cursor is kept by the VGA as the number of a cell in 16 bits. `ScreenOp` is what the kernel
asks of the two drivers, and `consoleOps` what comes of a sequence of interrupts and calls.
-/
namespace Delos.Source
open Lib (Program)

/-- The statics of both drivers, the text area, and the cursor register. -/
structure Screen where
  video : Nat → UInt8
  cursorCell : Nat
  screenColor : UInt8
  prevMouseX : UInt8
  prevMouseY : UInt8
  mouseBuffer : Fin 3 → UInt8
  mouseOffset : Fin 3
  buttons : UInt8
  mouseDisabled : Bool
  mouseX : Int8
  mouseY : Int8
  firstInvertAfterEnabled : Bool
  buttonDown : Bool
  eraseLastActivePos : Bool

inductive ScreenStop where
  | outsideTextArea (offset : Nat)
  deriving DecidableEq, Repr

abbrev Showing (α : Type) := Program Screen ScreenStop α

/-! ## screen.cpp -/

def getRow (offset : Nat) : Nat := offset / (2 * maxCols)

def getColumn (offset : Nat) : Nat := (offset - getRow offset * 2 * maxCols) / 2

def newLineOffset (offset : Nat) : Nat := getOffset (getColumn offset) (getRow offset + 1) % wordModulus

def startLineOffset (offset : Nat) : Nat := getOffset 0 (getRow offset)

def videoStore (offset : Nat) (v : UInt8) : Showing Unit :=
  if offset < maxRows * maxCols * 2 then modify fun s => { s with video := Function.update s.video offset v }
  else throw (.outsideTextArea offset)

def getCursor : Showing Nat := do
  let s ← get
  pure (s.cursorCell * 2)

/-- Two bytes of the cell go to the ports. -/
def setCursor (offset : Nat) : Showing Unit := modify fun s => { s with cursorCell := offset / 2 % 65536 }

def setColor (v : UInt8) : Showing Unit := modify fun s => { s with screenColor := v }

/-- `FOREGROUND_WHITE | BACKGROUND_BLACK` -/
def defaultColor : UInt8 := 0x0F

def resetColor : Showing Unit := setColor defaultColor

def setChar (c : UInt8) (offset : Nat) : Showing Unit := do
  let s ← get
  videoStore offset c
  videoStore ((offset + 1) % wordModulus) s.screenColor

/-- A loop over `set_char`. -/
def setChars (c : UInt8) : List Nat → Showing Unit
  | [] => pure ()
  | offset :: rest => do
    setChar c offset
    setChars c rest

def space : UInt8 := UInt8.ofNat ' '.toNat

/-- All rows move up by one, and the last one is empty. -/
def scrollHandler (offset : Nat) : Showing Nat := do
  modify fun s => { s with
    video := fun i => if i < maxCols * (maxRows - 1) * 2 then s.video (i + 2 * maxCols) else s.video i }
  setChars space ((List.range maxCols).map fun col => getOffset col (maxRows - 1))
  pure ((offset + wordModulus - 2 * maxCols) % wordModulus)

/-- The nibbles of the color change places. -/
def invertColors (column row : UInt8) : Showing Unit := do
  let s ← get
  let offset := getOffset column.toNat row.toNat
  let color := s.video (offset + 1)
  videoStore (offset + 1) ((color &&& 0x0F) <<< 4 ||| (color &&& 0xF0) >>> 4)

/-- The pointer is drawn again one row higher, when it has moved since the last scroll. -/
def redrawMouse : Showing Unit := do
  let s ← get
  let y := s.mouseY.toUInt8
  let x := s.mouseX.toUInt8
  if ¬ s.mouseDisabled ∧ (y ≠ s.prevMouseY ∨ x ≠ s.prevMouseX) then do
    invertColors x (y - 1)
    modify fun s => { s with firstInvertAfterEnabled := false }
  else pure ()
  modify fun s => { s with prevMouseX := x, prevMouseY := y }

def printLoop : List UInt8 → Nat → Showing Nat
  | [], offset => pure offset
  | c :: rest, offset => do
    let offset ← if offset ≥ maxRows * maxCols * 2 then do
        let offset ← scrollHandler offset
        redrawMouse
        pure offset
      else pure offset
    if c = UInt8.ofNat '\n'.toNat then printLoop rest (newLineOffset offset)
    else if c = UInt8.ofNat '\r'.toNat then printLoop rest (startLineOffset offset)
    else do
      setChar c offset
      printLoop rest ((offset + 2) % wordModulus)

/-- Up to the NUL of the string. -/
def printString (string : List UInt8) : Showing Unit := do
  let offset ← getCursor
  let offset ← printLoop (upToNul string) offset
  setCursor offset

def printBackspace : Showing Unit := do
  let cursor ← getCursor
  let cursor := (cursor + wordModulus - 2) % wordModulus
  setChar space cursor
  setCursor cursor

def clearScreen : Showing Unit := do
  resetColor
  setChars space ((List.range (maxCols * maxRows)).map fun i => i * 2)
  setCursor (getOffset 0 0)

def printTerminalIndex (index : Nat) : Showing Unit := do
  let cursor ← getCursor
  setCursor (getOffset (maxCols - 10) 0)
  printString (textBytes "TERMINAL " ++ [UInt8.ofNat ('0'.toNat + index)])
  setCursor cursor

/-! ## mouse.cpp -/

/-- `DEFAULT_X`, `DEFAULT_Y` -/
def defaultX : Nat := 40
def defaultY : Nat := 12

def foregroundCyan : UInt8 := 0x03

/-- Column and row are passed the other way round. -/
def mouseInit : Showing Unit := do
  modify fun s => { s with mouseOffset := 0, buttons := 0, mouseDisabled := false, mouseBuffer := fun _ => 0 }
  invertColors (UInt8.ofNat defaultY) (UInt8.ofNat defaultX)

def printMouseState (disabled : Bool) : Showing Unit := do
  setColor foregroundCyan
  printString (textBytes "MOUSE ")
  if disabled then printString (textBytes "DISABLED\n\r") else printString (textBytes "ENABLED\n\r")
  resetColor

/-- A coordinate between 0 and `limit - 1`. -/
def clampPosition (limit v : Int8) : Int8 :=
  let v := if v < 0 then 0 else v
  if v ≥ limit then limit - 1 else v

/-- One of the three buttons. -/
def handleButton (packet : UInt8) (i : Nat) (s : Screen) : Screen :=
  if packet &&& (1 <<< UInt8.ofNat i) ≠ s.buttons &&& (1 <<< UInt8.ofNat i) then
    if s.buttonDown = false then
      { s with mouseDisabled := !s.mouseDisabled, buttonDown := true, eraseLastActivePos := true }
    else { s with buttonDown := false }
  else s

def renderMouse (prevX prevY : Int8) : Showing Unit := do
  let s ← get
  if s.mouseDisabled = false then do
    if s.firstInvertAfterEnabled then invertColors prevX.toUInt8 prevY.toUInt8 else pure ()
    invertColors s.mouseX.toUInt8 s.mouseY.toUInt8
    modify fun s => { s with firstInvertAfterEnabled := true }
  else if s.eraseLastActivePos then do
    invertColors prevX.toUInt8 prevY.toUInt8
    modify fun s => { s with eraseLastActivePos := false, firstInvertAfterEnabled := false }
    printMouseState s.mouseDisabled
  else pure ()

/-- `status` and `data` are read from the ports. -/
def mouseCallback (status data : UInt8) : Showing Unit :=
  if status &&& 0x20 = 0 then pure ()
  else do
    modify fun s => { s with
      mouseBuffer := Function.update s.mouseBuffer s.mouseOffset data
      mouseOffset := s.mouseOffset + 1 }
    let s ← get
    if s.mouseOffset = 0 then do
      let prevX := s.mouseX
      let prevY := s.mouseY
      modify fun s => { s with
        mouseX := clampPosition 80 (s.mouseX + (s.mouseBuffer 1).toInt8)
        mouseY := clampPosition 25 (s.mouseY - (s.mouseBuffer 2).toInt8) }
      modify (handleButton (s.mouseBuffer 0) 0)
      modify (handleButton (s.mouseBuffer 0) 1)
      modify (handleButton (s.mouseBuffer 0) 2)
      renderMouse prevX prevY
      modify fun s => { s with buttons := s.mouseBuffer 0 }
    else pure ()

/-! ## What the kernel asks for -/

inductive ScreenOp where
  | print (string : List UInt8)
  | clear
  | color (v : UInt8)
  | cursor (column row : Nat)
  | terminalIndex (index : Nat)
  | backspace
  | mouse (status data : UInt8)

def ScreenOp.perform : ScreenOp → Showing Unit
  | print string => printString string
  | clear => clearScreen
  | color v => setColor v
  | cursor column row => setCursor (getOffset column row)
  | terminalIndex index => printTerminalIndex index
  | backspace => printBackspace
  | mouse status data => mouseCallback status data

/-- A cleared screen, and the statics as they are initialised. -/
def screenStart : Screen where
  video i := if i % 2 = 0 then space else defaultColor
  cursorCell := 0
  screenColor := defaultColor
  prevMouseX := 0
  prevMouseY := 0
  mouseBuffer _ := 0
  mouseOffset := 0
  buttons := 0
  mouseDisabled := false
  mouseX := 40
  mouseY := 12
  firstInvertAfterEnabled := false
  buttonDown := false
  eraseLastActivePos := false

/-- An interrupt, or a call in the kernel. `shown` is the text of the terminals that exist. -/
inductive ConsoleStep where
  | printString (string : List UInt8)
  | clearScreen
  | sysCallSetCursor (xAxis yAxis : Nat)
  | processKey (scanCode : UInt8) (shown : Nat → Option (List UInt8))
  | mousePacket (status data : UInt8)

/-- What a call of the keyboard driver does to the screen. -/
def keyboardOps (shown : Nat → Option (List UInt8)) : KeyboardCall → List ScreenOp
  | .kprintf text => [.print text]
  | .printBackspace => [.backspace]
  | .clearScreen => [.clear]
  | .switchToTerminal pid =>
    match shown pid with
    | some text => [.clear, .print text, .color foregroundCyan, .terminalIndex pid, .color defaultColor]
    | none => []
  | .wakeProcessWaitingForKeyboard _ | .abortProcess => []

/-- A key behind the end of the key maps is the last one. -/
def consoleOps : Keyboard → List ConsoleStep → List ScreenOp
  | _, [] => []
  | k, .printString string :: rest => .print string :: consoleOps k rest
  | k, .clearScreen :: rest => .clear :: consoleOps k rest
  | k, .sysCallSetCursor xAxis yAxis :: rest =>
    if xAxis ≥ maxCols ∨ yAxis ≥ maxRows then consoleOps k rest else .cursor xAxis yAxis :: consoleOps k rest
  | k, .processKey scanCode shown :: rest =>
    match processKey scanCode { k with calls := [] } with
    | .ok (_, k) => k.calls.flatMap (keyboardOps shown) ++ consoleOps k rest
    | .error _ => []
  | k, .mousePacket status data :: rest => .mouse status data :: consoleOps k rest

end Delos.Source
