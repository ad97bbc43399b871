import Mathlib.Logic.Function.Basic
import Delos.Source.Interrupts

/-!
# keyboard.cpp, keymap.h and ctrl_keyboard_shorcuts.cpp

The driver between two scan codes: its flags and the line that is typed. What it calls in other
drivers is written down in order. A key behind the end of a key map stops the run.
-/
namespace Delos.Source
open Lib (Program)

/-! ## Key maps -/

/-- `key_map` -/
def keyMap : List UInt8 :=
  [0, 0x1B] ++ textBytes "1234567890-=" ++ [8, 9] ++ textBytes "qwertyuiop[]" ++ [10, 0x80] ++
    textBytes "asdfghjkl;" ++ [0x27, 0x60, 0x80] ++ [0x5C] ++ textBytes "zxcvbnm,./" ++ [0x80] ++
    textBytes "*" ++ [0x80] ++ textBytes " " ++ List.replicate 13 0x80 ++ textBytes "789" ++ [0x80] ++
    textBytes "456" ++ [0x80] ++ textBytes "1230" ++ [127]

/-- `key_map_shifted` -/
def keyMapShifted : List UInt8 :=
  [0, 0x1B] ++ textBytes "!@#$%^&*()_+" ++ [8, 9] ++ textBytes "QWERTYUIOP" ++ [0x7B, 0x7D] ++ [10, 0x80] ++
    textBytes "ASDFGHJKL:" ++ [0x22, 0x7E, 0x80] ++ textBytes "|ZXCVBNM<>?" ++ [0x80] ++
    textBytes "*" ++ [0x80] ++ textBytes " " ++ List.replicate 13 0x80 ++ textBytes "789" ++ [0x80] ++
    textBytes "456" ++ [0x80] ++ textBytes "1230" ++ [177]

/-- `key_map_caps_normal` -/
def keyMapCapsNormal : List UInt8 :=
  [0, 0x1B] ++ textBytes "1234567890-=" ++ [8, 9] ++ textBytes "QWERTYUIOP[]" ++ [10, 0x80] ++
    textBytes "ASDFGHJKL;" ++ [0x27, 0x60, 0x80] ++ textBytes "|ZXCVBNM,./" ++ [0x80] ++
    textBytes "*" ++ [0x80] ++ textBytes " " ++ List.replicate 24 0x80 ++ textBytes "0" ++ [177]

/-- `key_map_caps_shifted` -/
def keyMapCapsShifted : List UInt8 :=
  [0, 0x1B] ++ textBytes "!@#$%^&*()_+" ++ [8, 9] ++ textBytes "qwertyuiop" ++ [0x7B, 0x7D] ++ [10, 0x80] ++
    textBytes "asdfghjkl:" ++ [0x22, 0x7E, 0x80] ++ [0x5C] ++ textBytes "zxcvbnm<>?" ++ [0x80] ++
    textBytes "*" ++ [0x80] ++ textBytes " " ++ List.replicate 13 0x80 ++ textBytes "789" ++ [0x80] ++
    textBytes "456" ++ [0x80] ++ textBytes "1230" ++ [177]

def keyCodeLeftShift : Nat := 0x36
def keyCodeRightShift : Nat := 0x2A
def keyCodeCtrl : Nat := 0x1D
def keyCodeAlt : Nat := 0x38
def keyCodeCapslock : Nat := 0x3A
def keyCodeBackSpace : Nat := 0x0E
def keyCodeLeftArrow : Nat := 75
def keyCodeRightArrow : Nat := 77
def keyCodeUpArrow : Nat := 72
def keyCodeDownArrow : Nat := 80
def enterKeyCode : Nat := 28

/-- `KEY_CODE_MASK` -/
def originalScancode (scanCode : UInt8) : Nat := (scanCode &&& 0x7F).toNat

/-- `KEY_RELEASED`; the source keeps it in a variable `pressed`. -/
def keyReleased (scanCode : UInt8) : Bool := scanCode &&& 0x80 ≠ 0

/-! ## The driver -/

inductive KeyboardCall where
  | kprintf (text : List UInt8)
  | printBackspace
  | wakeProcessWaitingForKeyboard (line : List UInt8)
  | clearScreen
  /-- `abort_current_cmd` up to its message -/
  | abortProcess
  | switchToTerminal (pid : Nat)
  deriving DecidableEq, Repr

structure Keyboard where
  buffer : Nat → UInt8
  buffPos : Nat
  shiftOn : Bool
  ctrlOn : Bool
  altOn : Bool
  capslockOn : Bool
  calls : List KeyboardCall

inductive KeyboardStop where
  | outsideKeyMap
  deriving DecidableEq, Repr

abbrev Typing (α : Type) := Program Keyboard KeyboardStop α

/-- `keyboard_init` -/
def keyboardInit : Keyboard := ⟨fun _ => 0, 0, false, false, false, false, []⟩

def keyboardCall (call : KeyboardCall) : Typing Unit := modify fun k => { k with calls := k.calls ++ [call] }

def readKeyMap (map : List UInt8) (code : Nat) : Typing UInt8 :=
  match map[code]? with
  | some c => pure c
  | none => throw .outsideKeyMap

/-- Both ways print the message and empty the line. The one that kills a process goes on with the next
one; with an empty line `process_key` would do nothing more. -/
def abortCmd : Typing Unit := do
  keyboardCall .abortProcess
  keyboardCall (.kprintf (textBytes "^C\n\r"))
  modify fun k => { k with buffPos := 0 }

def ctrKeyboardShortcuts : List (Char × Typing Unit) :=
  [('l', keyboardCall .clearScreen),
    ('c', abortCmd),
    ('1', keyboardCall (.switchToTerminal 1)),
    ('2', keyboardCall (.switchToTerminal 2)),
    ('3', keyboardCall (.switchToTerminal 3)),
    ('4', keyboardCall (.switchToTerminal 4))]

def getCtrlShortcut (letter : UInt8) : Option (Typing Unit) :=
  (ctrKeyboardShortcuts.find? fun shortcut => UInt8.ofNat shortcut.1.toNat = letter).map Prod.snd

def runShortcut (letter : UInt8) : Typing Unit :=
  match getCtrlShortcut letter with
  | some handler => handler
  | none => pure ()

def convertScanCode (scanCode : UInt8) : Typing Nat := do
  let code := originalScancode scanCode
  let pressed := keyReleased scanCode
  if code = keyCodeLeftShift ∨ code = keyCodeRightShift then do
    modify fun k => { k with shiftOn := !pressed }
    pure 0
  else if code = keyCodeCtrl then do
    modify fun k => { k with ctrlOn := !pressed }
    pure 0
  else if code = keyCodeAlt then do
    modify fun k => { k with altOn := !pressed }
    pure 0
  else if code = keyCodeCapslock then do
    modify fun k => { k with capslockOn := if pressed then !k.capslockOn else k.capslockOn }
    pure 0
  else if code = keyCodeBackSpace then pure (if pressed then keyCodeBackSpace else 0)
  else if code = keyCodeLeftArrow ∨ code = keyCodeRightArrow ∨ code = keyCodeUpArrow ∨ code = keyCodeDownArrow then pure 0
  else if code = enterKeyCode then pure (if pressed then enterKeyCode else 0)
  else do
    let k ← get
    if k.ctrlOn ∧ ¬k.shiftOn ∧ pressed then do
      let letter ← readKeyMap keyMap code
      runShortcut letter
      pure keyCodeBackSpace
    else do
      let c ← readKeyMap
        (if k.shiftOn then if k.capslockOn then keyMapCapsShifted else keyMapShifted
        else if k.capslockOn then keyMapCapsNormal else keyMap) code
      pure c.toNat

/-- The characters from the start of the buffer to the first NUL, of which there is one at `keyboard_buff_pos`. -/
def bufferedLine (k : Keyboard) : List UInt8 := upToNul ((List.range k.buffPos).map k.buffer)

def processKey (scanCode : UInt8) : Typing Unit := do
  let symbol ← convertScanCode scanCode
  if symbol = keyCodeBackSpace then do
    let k ← get
    if k.buffPos > 0 then do
      keyboardCall .printBackspace
      modify fun k => { k with buffPos := k.buffPos - 1 }
    else pure ()
  else if symbol = enterKeyCode then do
    keyboardCall (.kprintf (textBytes "\n\r"))
    modify fun k => { k with buffer := Function.update k.buffer k.buffPos 0 }
    let k ← get
    keyboardCall (.wakeProcessWaitingForKeyboard (bufferedLine k))
    modify fun k => { k with buffPos := 0 }
  else if keyReleased scanCode ∧ symbol ≠ 0 then do
    keyboardCall (.kprintf [UInt8.ofNat symbol])
    modify fun k => { k with
      buffer := Function.update k.buffer k.buffPos (UInt8.ofNat symbol)
      buffPos := if k.buffPos + 1 = keyboardBuffSize then 0 else (k.buffPos + 1) % 256 }
  else pure ()

end Delos.Source
