import Mathlib.Data.List.Infix
import Mathlib.Data.List.TakeWhile
import Delos.Lib.Traces
import Delos.Source.Keyboard

/-!
# The keyboard driver against a line editor

The line editor has a line without a bound, and a shortcut does not touch it. The driver follows it
through every key of `KeyFits`: the key is on the key maps, a shortcut other than the abort comes with
an empty line, and a character still fits into the buffer. After any other key the driver has stopped
or shows another line.
-/
namespace Delos.Invariants
open Lib Source

/-! ## The line editor -/

structure LineEditor where
  shift : Bool
  ctrl : Bool
  caps : Bool
  line : List UInt8
  submitted : List (List UInt8)

def keyLayout (shift caps : Bool) : List UInt8 :=
  if shift then if caps then keyMapCapsShifted else keyMapShifted else if caps then keyMapCapsNormal else keyMap

/-- The character of a key, if it has one. -/
def typedBy (shift caps : Bool) (code : Nat) : List UInt8 := ((keyLayout shift caps)[code]?.filter (· ≠ 0)).toList

def isShiftKey (code : Nat) : Bool := code = keyCodeLeftShift ∨ code = keyCodeRightShift

/-- The keys that never do anything to a line. -/
def isSilentKey (code : Nat) : Bool :=
  code = keyCodeAlt ∨ code = keyCodeLeftArrow ∨ code = keyCodeRightArrow ∨ code = keyCodeUpArrow ∨ code = keyCodeDownArrow

def isAbortKey (code : Nat) : Bool := keyMap[code]? = some (UInt8.ofNat 'c'.toNat)

namespace LineEditor

def new : LineEditor := ⟨false, false, false, [], []⟩

/-- A key that belongs to a shortcut. -/
def inShortcut (e : LineEditor) : Bool := e.ctrl ∧ ¬ e.shift

def press (scanCode : UInt8) (e : LineEditor) : LineEditor :=
  let code := originalScancode scanCode
  let released := keyReleased scanCode
  if isShiftKey code then { e with shift := !released }
  else if code = keyCodeCtrl then { e with ctrl := !released }
  else if isSilentKey code ∨ ¬ released then e
  else if code = keyCodeCapslock then { e with caps := !e.caps }
  else if code = keyCodeBackSpace then { e with line := e.line.dropLast }
  else if code = enterKeyCode then { e with line := [], submitted := e.submitted ++ [e.line] }
  else if e.inShortcut then if isAbortKey code then { e with line := [] } else e
  else { e with line := e.line ++ typedBy e.shift e.caps code }

def pressAll (scanCodes : List UInt8) : LineEditor := scanCodes.foldl (fun e scanCode => e.press scanCode) new

end LineEditor

/-- A key that stands for a character, alone or with CTRL. -/
def isCharacterKey (code : Nat) : Bool :=
  ¬ isShiftKey code ∧ code ≠ keyCodeCtrl ∧ ¬ isSilentKey code ∧ code ≠ keyCodeCapslock ∧ code ≠ keyCodeBackSpace ∧
    code ≠ enterKeyCode

/-- The keys that the driver handles as the editor does. -/
def KeyFits (e : LineEditor) (scanCode : UInt8) : Prop :=
  originalScancode scanCode < keyMap.length ∧
    (isCharacterKey (originalScancode scanCode) = true → keyReleased scanCode = true →
      if e.inShortcut then isAbortKey (originalScancode scanCode) = true ∨ e.line = []
      else e.line.length + (typedBy e.shift e.caps (originalScancode scanCode)).length < keyboardBuffSize)

/-! ## The driver -/

def pendingLine (k : Keyboard) : List UInt8 := (List.range k.buffPos).map k.buffer

/-- The lines that were handed to a process. -/
def handedLines (calls : List KeyboardCall) : List (List UInt8) :=
  calls.filterMap fun call => match call with
    | .wakeProcessWaitingForKeyboard line => some line
    | _ => none

structure Tracks (k : Keyboard) (e : LineEditor) : Prop where
  shift : k.shiftOn = e.shift
  ctrl : k.ctrlOn = e.ctrl
  caps : k.capslockOn = e.caps
  pending : pendingLine k = e.line
  short : k.buffPos < keyboardBuffSize
  handed : handedLines k.calls = e.submitted
  plain : 0 ∉ e.line

section
variable {k : Keyboard} {e : LineEditor} {scanCode : UInt8} {call : KeyboardCall} {c : UInt8} {n : Nat}

theorem keyLayout_length (shift caps : Bool) : (keyLayout shift caps).length = keyMap.length := by
  cases shift <;> cases caps <;> decide

/-- No character of a map is taken for the backspace or for Enter. -/
theorem keyLayout_plain {shift caps : Bool} {code : Nat} (here : (keyLayout shift caps)[code]? = some c) :
    c.toNat ≠ keyCodeBackSpace ∧ c.toNat ≠ enterKeyCode := by
  have all : ∀ shift caps, ∀ c ∈ keyLayout shift caps, c.toNat ≠ keyCodeBackSpace ∧ c.toNat ≠ enterKeyCode := by
    decide +kernel
  exact all shift caps c (List.mem_of_getElem? here)

theorem pendingLine_length : (pendingLine k).length = k.buffPos := by simp [pendingLine]

/-! ### What a symbol does -/

def eraseLast (k : Keyboard) : Keyboard :=
  if k.buffPos > 0 then { k with calls := k.calls ++ [.printBackspace], buffPos := k.buffPos - 1 } else k

def submitLine (k : Keyboard) : Keyboard :=
  { k with
    buffer := Function.update k.buffer k.buffPos 0
    buffPos := 0
    calls := k.calls ++ [.kprintf (textBytes "\n\r")] ++ [.wakeProcessWaitingForKeyboard (upToNul (pendingLine k))] }

def typeSymbol (symbol : Nat) (k : Keyboard) : Keyboard :=
  { k with
    calls := k.calls ++ [.kprintf [UInt8.ofNat symbol]]
    buffer := Function.update k.buffer k.buffPos (UInt8.ofNat symbol)
    buffPos := if k.buffPos + 1 = keyboardBuffSize then 0 else (k.buffPos + 1) % 256 }

theorem pendingLine_store (v : UInt8) (calls : List KeyboardCall) :
    pendingLine { k with calls := calls, buffer := Function.update k.buffer k.buffPos v } = pendingLine k := by
  refine List.map_congr_left fun i inside => ?_
  exact Function.update_of_ne (Nat.ne_of_lt (List.mem_range.mp inside)) v k.buffer

theorem processKey_backspace {k' : Keyboard} (convert : convertScanCode scanCode k = .ok (keyCodeBackSpace, k')) :
    processKey scanCode k = .ok ((), eraseLast k') := by
  unfold processKey eraseLast
  rw [run_bind convert, if_pos rfl, run_bind (show (get : Typing Keyboard) k' = .ok (k', k') from rfl)]
  by_cases some : k'.buffPos > 0
  · rw [if_pos some, if_pos some]
    rfl
  · rw [if_neg some, if_neg some]
    rfl

theorem processKey_enter {k' : Keyboard} (convert : convertScanCode scanCode k = .ok (enterKeyCode, k')) :
    processKey scanCode k = .ok ((), submitLine k') := by
  unfold processKey submitLine
  rw [run_bind convert, if_neg (by decide), if_pos rfl, ← pendingLine_store 0 (k'.calls ++ [.kprintf (textBytes "\n\r")])]
  rfl

theorem processKey_symbol {k' : Keyboard} {symbol : Nat} (convert : convertScanCode scanCode k = .ok (symbol, k'))
    (plain : symbol ≠ keyCodeBackSpace ∧ symbol ≠ enterKeyCode) :
    processKey scanCode k = .ok ((), if keyReleased scanCode = true ∧ symbol ≠ 0 then typeSymbol symbol k' else k') := by
  unfold processKey
  rw [run_bind convert, if_neg plain.1, if_neg plain.2]
  by_cases shown : keyReleased scanCode = true ∧ symbol ≠ 0
  · rw [if_pos shown, if_pos shown]
    rfl
  · rw [if_neg shown, if_neg shown]
    rfl

/-! ### What a key means -/

theorem convert_shift (key : isShiftKey (originalScancode scanCode) = true) :
    convertScanCode scanCode k = .ok (0, { k with shiftOn := !keyReleased scanCode }) := by
  simp only [isShiftKey, decide_eq_true_eq] at key
  unfold convertScanCode
  rw [if_pos key]
  rfl

theorem convert_ctrl (key : originalScancode scanCode = keyCodeCtrl) :
    convertScanCode scanCode k = .ok (0, { k with ctrlOn := !keyReleased scanCode }) := by
  simp only [convertScanCode, key]
  rfl

theorem convert_capslock (key : originalScancode scanCode = keyCodeCapslock) : convertScanCode scanCode k =
    .ok (0, { k with capslockOn := if keyReleased scanCode then !k.capslockOn else k.capslockOn }) := by
  simp only [convertScanCode, key]
  rfl

theorem convert_backspace (key : originalScancode scanCode = keyCodeBackSpace) :
    convertScanCode scanCode k = .ok (if keyReleased scanCode then keyCodeBackSpace else 0, k) := by
  simp only [convertScanCode, key]
  rfl

theorem convert_enter (key : originalScancode scanCode = enterKeyCode) :
    convertScanCode scanCode k = .ok (if keyReleased scanCode then enterKeyCode else 0, k) := by
  simp only [convertScanCode, key]
  rfl

/-- The flag of the ALT key is never read. -/
theorem convert_silent (key : isSilentKey (originalScancode scanCode) = true) :
    ∃ alt, convertScanCode scanCode k = .ok (0, { k with altOn := alt }) := by
  simp only [isSilentKey, decide_eq_true_eq] at key
  rcases key with key | key | key | key | key
  · exact ⟨!keyReleased scanCode, by simp only [convertScanCode, key]; rfl⟩
  all_goals exact ⟨k.altOn, by simp only [convertScanCode, key]; rfl⟩

theorem readKeyMap_run {map : List UInt8} (here : map[n]? = some c) : readKeyMap map n k = .ok (c, k) := by
  rw [readKeyMap, here]
  rfl

theorem readKeyMap_outside {map : List UInt8} (large : map.length ≤ n) : readKeyMap map n k = .error .outsideKeyMap := by
  rw [readKeyMap, List.getElem?_eq_none large]
  rfl

/-- What a shortcut leaves of the state of the driver. -/
structure AfterShortcut (letter : UInt8) (k k' : Keyboard) : Prop where
  buffer : k'.buffer = k.buffer
  shift : k'.shiftOn = k.shiftOn
  ctrl : k'.ctrlOn = k.ctrlOn
  caps : k'.capslockOn = k.capslockOn
  handed : handedLines k'.calls = handedLines k.calls
  position : k'.buffPos = if letter = UInt8.ofNat 'c'.toNat then 0 else k.buffPos

theorem handedLines_append (first second : List KeyboardCall) :
    handedLines (first ++ second) = handedLines first ++ handedLines second := List.filterMap_append

theorem keyboardCall_shortcut {letter : UInt8} (other : letter ≠ UInt8.ofNat 'c'.toNat) (silent : handedLines [call] = []) :
    AfterShortcut letter k { k with calls := k.calls ++ [call] } := by
  constructor
  · rfl
  · rfl
  · rfl
  · rfl
  · simp [handedLines_append, silent]
  · rw [if_neg other]

theorem runShortcut_run (letter : UInt8) (k : Keyboard) :
    ∃ k', runShortcut letter k = .ok ((), k') ∧ AfterShortcut letter k k' := by
  by_cases clear : letter = UInt8.ofNat 'l'.toNat
  · subst clear
    exact ⟨_, rfl, keyboardCall_shortcut (by decide) rfl⟩
  by_cases abort : letter = UInt8.ofNat 'c'.toNat
  · subst abort
    refine ⟨_, rfl, rfl, rfl, rfl, rfl, ?_, rfl⟩
    simp [handedLines]
  by_cases one : letter = UInt8.ofNat '1'.toNat
  · subst one
    exact ⟨_, rfl, keyboardCall_shortcut (by decide) rfl⟩
  by_cases two : letter = UInt8.ofNat '2'.toNat
  · subst two
    exact ⟨_, rfl, keyboardCall_shortcut (by decide) rfl⟩
  by_cases three : letter = UInt8.ofNat '3'.toNat
  · subst three
    exact ⟨_, rfl, keyboardCall_shortcut (by decide) rfl⟩
  by_cases four : letter = UInt8.ofNat '4'.toNat
  · subst four
    exact ⟨_, rfl, keyboardCall_shortcut (by decide) rfl⟩
  have none : getCtrlShortcut letter = none := by
    simp only [getCtrlShortcut, ctrKeyboardShortcuts, List.find?, Ne.symm clear, Ne.symm abort, Ne.symm one, Ne.symm two,
      Ne.symm three, Ne.symm four, decide_false, Option.map_none]
  refine ⟨k, ?_, rfl, rfl, rfl, rfl, rfl, by rw [if_neg abort]⟩
  rw [runShortcut, none]
  rfl

theorem convert_character (key : isCharacterKey (originalScancode scanCode) = true) : convertScanCode scanCode k =
    if k.ctrlOn = true ∧ ¬ k.shiftOn = true ∧ keyReleased scanCode = true then
      (do
        let letter ← readKeyMap keyMap (originalScancode scanCode)
        runShortcut letter
        pure keyCodeBackSpace : Typing Nat) k
    else
      (do
        let c ← readKeyMap (keyLayout k.shiftOn k.capslockOn) (originalScancode scanCode)
        pure c.toNat : Typing Nat) k := by
  simp only [isCharacterKey, isShiftKey, isSilentKey, decide_eq_true_eq, not_or] at key
  obtain ⟨⟨left, right⟩, ctrl, ⟨alt, arrow1, arrow2, arrow3, arrow4⟩, caps, back, enter⟩ := key
  unfold convertScanCode
  simp only [left, right, ctrl, alt, arrow1, arrow2, arrow3, arrow4, caps, back, enter, or_self, if_false]
  rw [run_bind (show (get : Typing Keyboard) k = .ok (k, k) from rfl)]
  by_cases shortcut : k.ctrlOn = true ∧ ¬ k.shiftOn = true ∧ keyReleased scanCode = true
  · rw [if_pos shortcut, if_pos shortcut]
  · rw [if_neg shortcut, if_neg shortcut]
    rfl

/-! ### One key -/

theorem press_character (key : isCharacterKey (originalScancode scanCode) = true) : e.press scanCode =
    if keyReleased scanCode = true then
      if e.inShortcut then if isAbortKey (originalScancode scanCode) then { e with line := [] } else e
      else { e with line := e.line ++ typedBy e.shift e.caps (originalScancode scanCode) }
    else e := by
  simp only [isCharacterKey, decide_eq_true_eq, Bool.not_eq_true] at key
  obtain ⟨shift, ctrl, silent, caps, back, enter⟩ := key
  unfold LineEditor.press
  simp only [shift, ctrl, silent, caps, back, enter, if_false, Bool.false_eq_true, false_or]
  cases keyReleased scanCode <;> simp

theorem pendingLine_erase (k : Keyboard) : pendingLine (eraseLast k) = (pendingLine k).dropLast := by
  unfold eraseLast pendingLine
  by_cases some : k.buffPos > 0
  · rw [if_pos some]
    obtain ⟨n, less⟩ := Nat.exists_eq_succ_of_ne_zero (Nat.ne_of_gt some)
    rw [less]
    simp [List.range_succ]
  · have zero : k.buffPos = 0 := Nat.eq_zero_of_not_pos some
    rw [if_neg some, zero]
    rfl

theorem Tracks.erase (tracks : Tracks k e) : Tracks (eraseLast k) { e with line := e.line.dropLast } := by
  obtain ⟨shift, ctrl, caps, pending, short, handed, plain⟩ := tracks
  have fields : (eraseLast k).shiftOn = k.shiftOn ∧ (eraseLast k).ctrlOn = k.ctrlOn ∧
      (eraseLast k).capslockOn = k.capslockOn ∧ (eraseLast k).buffPos ≤ k.buffPos ∧
      handedLines (eraseLast k).calls = handedLines k.calls := by
    unfold eraseLast
    split
    · exact ⟨rfl, rfl, rfl, Nat.sub_le _ _, by simp [handedLines]⟩
    · exact ⟨rfl, rfl, rfl, Nat.le_refl _, rfl⟩
  obtain ⟨shift', ctrl', caps', less, handed'⟩ := fields
  constructor
  · exact shift'.trans shift
  · exact ctrl'.trans ctrl
  · exact caps'.trans caps
  · rw [pendingLine_erase, pending]
  · exact Nat.lt_of_le_of_lt less short
  · exact handed'.trans handed
  · exact fun inside => plain (List.mem_of_mem_dropLast inside)

theorem Tracks.submit (tracks : Tracks k e) :
    Tracks (submitLine k) { e with line := [], submitted := e.submitted ++ [e.line] } := by
  constructor
  · exact tracks.shift
  · exact tracks.ctrl
  · exact tracks.caps
  · rfl
  · exact (by decide : 0 < keyboardBuffSize)
  · have whole : upToNul e.line = e.line := List.takeWhile_eq_self_iff.mpr fun c member =>
      decide_eq_true fun zero => tracks.plain (zero ▸ member)
    have line : handedLines [.kprintf (textBytes "\n\r"), .wakeProcessWaitingForKeyboard (upToNul (pendingLine k))] = [e.line] := by
      rw [tracks.pending, whole]
      rfl
    rw [submitLine, List.append_assoc, handedLines_append, tracks.handed, List.singleton_append, line]
  · simp

theorem Tracks.type (tracks : Tracks k e) (some : c ≠ 0) (fits : e.line.length + 1 < keyboardBuffSize) :
    Tracks (typeSymbol c.toNat k) { e with line := e.line ++ [c] } := by
  have length := pendingLine_length (k := k)
  rw [tracks.pending] at length
  have position : (typeSymbol c.toNat k).buffPos = k.buffPos + 1 := by
    have small : k.buffPos + 1 < 256 := Nat.lt_of_lt_of_le (length ▸ fits) (by decide)
    rw [typeSymbol, if_neg (Nat.ne_of_lt (length ▸ fits)), Nat.mod_eq_of_lt small]
  constructor
  · exact tracks.shift
  · exact tracks.ctrl
  · exact tracks.caps
  · rw [pendingLine, position, List.range_succ, List.map_append, ← tracks.pending]
    congr 1
    · exact pendingLine_store (UInt8.ofNat c.toNat) k.calls
    · simp [typeSymbol]
  · rw [position]
    exact length ▸ fits
  · rw [typeSymbol, handedLines_append, tracks.handed]
    simp [handedLines]
  · intro inside
    rcases List.mem_append.mp inside with old | new
    · exact tracks.plain old
    · exact some (List.mem_singleton.mp new).symm

theorem processKey_outside (key : isCharacterKey (originalScancode scanCode) = true)
    (large : keyMap.length ≤ originalScancode scanCode) : processKey scanCode k = .error .outsideKeyMap := by
  have stops : convertScanCode scanCode k = .error .outsideKeyMap := by
    rw [convert_character key]
    by_cases shortcut : k.ctrlOn = true ∧ ¬ k.shiftOn = true ∧ keyReleased scanCode = true
    · rw [if_pos shortcut]
      exact run_stop (readKeyMap_outside large)
    · rw [if_neg shortcut]
      exact run_stop (readKeyMap_outside (by rw [keyLayout_length]; exact large))
  exact run_stop stops

/-- The shortcut, and the backspace behind it. -/
theorem processKey_shortcut (key : isCharacterKey (originalScancode scanCode) = true)
    (inside : originalScancode scanCode < keyMap.length) (released : keyReleased scanCode = true) (ctrl : k.ctrlOn = true)
    (shift : ¬ k.shiftOn = true) :
    ∃ k', processKey scanCode k = .ok ((), eraseLast k') ∧ AfterShortcut keyMap[originalScancode scanCode] k k' := by
  obtain ⟨k', run, after⟩ := runShortcut_run keyMap[originalScancode scanCode] k
  refine ⟨k', processKey_backspace ?_, after⟩
  rw [convert_character key, if_pos ⟨ctrl, shift, released⟩, run_bind (readKeyMap_run (List.getElem?_eq_getElem inside)),
    run_bind run]
  rfl

theorem processKey_character (key : isCharacterKey (originalScancode scanCode) = true)
    (inside : originalScancode scanCode < keyMap.length)
    (plain : ¬ (k.ctrlOn = true ∧ ¬ k.shiftOn = true ∧ keyReleased scanCode = true)) :
    ∃ c, (keyLayout k.shiftOn k.capslockOn)[originalScancode scanCode]? = some c ∧ processKey scanCode k =
      .ok ((), if keyReleased scanCode = true ∧ c.toNat ≠ 0 then typeSymbol c.toNat k else k) := by
  have here : originalScancode scanCode < (keyLayout k.shiftOn k.capslockOn).length := by
    rw [keyLayout_length]
    exact inside
  have found := List.getElem?_eq_getElem here
  refine ⟨_, found, processKey_symbol ?_ (keyLayout_plain found)⟩
  rw [convert_character key, if_neg plain, run_bind (readKeyMap_run found)]
  rfl

theorem keyFits_special (special : isCharacterKey (originalScancode scanCode) = false) : KeyFits e scanCode := by
  have below : originalScancode scanCode < 128 := by
    rw [originalScancode, UInt8.toNat_and]
    exact Nat.lt_succ_of_le Nat.and_le_right
  have all : ∀ code < 128, isCharacterKey code = false → code < keyMap.length := by decide +kernel
  exact ⟨all _ below special, fun key => absurd key (by simp [special])⟩

theorem key_follows_special (tracks : Tracks k e) (special : isCharacterKey (originalScancode scanCode) = false) :
    ∃ k', processKey scanCode k = .ok ((), k') ∧ Tracks k' (e.press scanCode) := by
  have silent : ∀ {k' : Keyboard}, convertScanCode scanCode k = .ok (0, k') → processKey scanCode k = .ok ((), k') :=
    fun convert => by rw [processKey_symbol convert (by decide), if_neg fun shown => shown.2 rfl]
  by_cases shift : isShiftKey (originalScancode scanCode) = true
  · refine ⟨_, silent (convert_shift shift), ?_⟩
    rw [LineEditor.press, if_pos shift]
    exact ⟨rfl, tracks.ctrl, tracks.caps, tracks.pending, tracks.short, tracks.handed, tracks.plain⟩
  by_cases ctrl : originalScancode scanCode = keyCodeCtrl
  · refine ⟨_, silent (convert_ctrl ctrl), ?_⟩
    rw [LineEditor.press, if_neg shift, if_pos ctrl]
    exact ⟨tracks.shift, rfl, tracks.caps, tracks.pending, tracks.short, tracks.handed, tracks.plain⟩
  by_cases quiet : isSilentKey (originalScancode scanCode) = true
  · obtain ⟨alt, convert⟩ := convert_silent (k := k) quiet
    refine ⟨_, silent convert, ?_⟩
    rw [LineEditor.press, if_neg shift, if_neg ctrl, if_pos (Or.inl quiet)]
    exact ⟨tracks.shift, tracks.ctrl, tracks.caps, tracks.pending, tracks.short, tracks.handed, tracks.plain⟩
  by_cases released : keyReleased scanCode = true
  · have active : ¬ (isSilentKey (originalScancode scanCode) = true ∨ ¬ keyReleased scanCode = true) :=
      not_or.mpr ⟨quiet, not_not.mpr released⟩
    by_cases caps : originalScancode scanCode = keyCodeCapslock
    · refine ⟨_, silent (convert_capslock caps), ?_⟩
      rw [LineEditor.press, if_neg shift, if_neg ctrl, if_neg active, if_pos caps, if_pos released]
      exact ⟨tracks.shift, tracks.ctrl, congrArg not tracks.caps, tracks.pending, tracks.short, tracks.handed, tracks.plain⟩
    by_cases back : originalScancode scanCode = keyCodeBackSpace
    · have convert := convert_backspace (k := k) back
      rw [if_pos released] at convert
      refine ⟨_, processKey_backspace convert, ?_⟩
      rw [LineEditor.press, if_neg shift, if_neg ctrl, if_neg active, if_neg caps, if_pos back]
      exact tracks.erase
    by_cases enter : originalScancode scanCode = enterKeyCode
    · have convert := convert_enter (k := k) enter
      rw [if_pos released] at convert
      refine ⟨_, processKey_enter convert, ?_⟩
      rw [LineEditor.press, if_neg shift, if_neg ctrl, if_neg active, if_neg caps, if_neg back, if_pos enter]
      exact tracks.submit
    · exact absurd special (by simp [isCharacterKey, shift, ctrl, quiet, caps, back, enter])
  · have press : e.press scanCode = e := by
      rw [LineEditor.press, if_neg shift, if_neg ctrl, if_pos (Or.inr released)]
    rw [press]
    by_cases caps : originalScancode scanCode = keyCodeCapslock
    · refine ⟨_, silent (convert_capslock caps), ?_⟩
      rw [if_neg released]
      exact tracks
    by_cases back : originalScancode scanCode = keyCodeBackSpace
    · have convert := convert_backspace (k := k) back
      rw [if_neg released] at convert
      exact ⟨_, silent convert, tracks⟩
    by_cases enter : originalScancode scanCode = enterKeyCode
    · have convert := convert_enter (k := k) enter
      rw [if_neg released] at convert
      exact ⟨_, silent convert, tracks⟩
    · exact absurd special (by simp [isCharacterKey, shift, ctrl, quiet, caps, back, enter])

theorem inShortcut_iff (tracks : Tracks k e) : e.inShortcut = true ↔ k.ctrlOn = true ∧ ¬ k.shiftOn = true := by
  rw [LineEditor.inShortcut, tracks.ctrl, tracks.shift]
  simp

theorem typedBy_eq {shift caps : Bool} {code : Nat} (here : (keyLayout shift caps)[code]? = some c) :
    typedBy shift caps code = if c = 0 then [] else [c] := by
  rw [typedBy, here]
  by_cases zero : c = 0 <;> simp [Option.filter, zero]

theorem isAbortKey_iff {code : Nat} (inside : code < keyMap.length) :
    isAbortKey code = true ↔ keyMap[code] = UInt8.ofNat 'c'.toNat := by
  rw [isAbortKey, List.getElem?_eq_getElem inside]
  simp

/-- What the driver shows after a shortcut. -/
theorem Tracks.shortcut {k' : Keyboard} {letter : UInt8} (tracks : Tracks k e) (after : AfterShortcut letter k k') :
    Tracks k' { e with line := if letter = UInt8.ofNat 'c'.toNat then [] else e.line } := by
  constructor
  · exact after.shift.trans tracks.shift
  · exact after.ctrl.trans tracks.ctrl
  · exact after.caps.trans tracks.caps
  · rw [pendingLine, after.buffer, after.position]
    split
    · rfl
    · exact tracks.pending
  · rw [after.position]
    split
    · decide
    · exact tracks.short
  · exact after.handed.trans tracks.handed
  · simp only
    split
    · simp
    · exact tracks.plain

/-- A key that fits. -/
theorem key_follows (tracks : Tracks k e) (fits : KeyFits e scanCode) :
    ∃ k', processKey scanCode k = .ok ((), k') ∧ Tracks k' (e.press scanCode) := by
  cases key : isCharacterKey (originalScancode scanCode) with
  | false => exact key_follows_special tracks key
  | true =>
    obtain ⟨inside, fits⟩ := fits
    rw [press_character key]
    by_cases released : keyReleased scanCode = true
    · rw [if_pos released]
      have fits := fits key released
      by_cases shortcut : e.inShortcut = true
      · rw [if_pos shortcut] at fits ⊢
        obtain ⟨ctrl, shift⟩ := (inShortcut_iff tracks).mp shortcut
        obtain ⟨k', run, after⟩ := processKey_shortcut key inside released ctrl shift
        refine ⟨eraseLast k', run, ?_⟩
        have erased := (tracks.shortcut after).erase
        by_cases abort : isAbortKey (originalScancode scanCode) = true
        · rw [if_pos abort]
          simpa [(isAbortKey_iff inside).mp abort] using erased
        · have empty : e.line = [] := fits.resolve_left abort
          rw [if_neg abort]
          have letter : keyMap[originalScancode scanCode] ≠ UInt8.ofNat 'c'.toNat := fun same =>
            abort ((isAbortKey_iff inside).mpr same)
          rw [if_neg letter] at erased
          have same : { e with line := e.line.dropLast } = e := by
            cases e
            simp_all
          exact same ▸ erased
      · rw [if_neg shortcut] at fits ⊢
        have plain := fun both : k.ctrlOn = true ∧ ¬ k.shiftOn = true ∧ keyReleased scanCode = true =>
          shortcut ((inShortcut_iff tracks).mpr ⟨both.1, both.2.1⟩)
        obtain ⟨c, here, run⟩ := processKey_character key inside plain
        rw [tracks.shift, tracks.caps] at here
        rw [typedBy_eq here] at fits ⊢
        refine ⟨_, run, ?_⟩
        by_cases zero : c = 0
        · rw [if_pos zero, if_neg (by simp [zero]), List.append_nil]
          exact tracks
        · have word : c.toNat ≠ 0 := fun null => zero (UInt8.toNat_inj.mp null)
          rw [if_neg zero] at fits ⊢
          rw [if_pos ⟨released, word⟩]
          exact tracks.type zero fits
    · rw [if_neg released]
      obtain ⟨c, _, run⟩ := processKey_character key inside fun both : k.ctrlOn = true ∧ ¬ k.shiftOn = true ∧ _ => released both.2.2
      refine ⟨_, run, ?_⟩
      rw [if_neg fun shown => released shown.1]
      exact tracks

/-- A key that does not fit: the driver has stopped, or the line is not the one that was typed. -/
theorem key_fails (tracks : Tracks k e) (unfit : ¬ KeyFits e scanCode) {k' : Keyboard}
    (run : processKey scanCode k = .ok ((), k')) : pendingLine k' ≠ (e.press scanCode).line := by
  cases key : isCharacterKey (originalScancode scanCode) with
  | false => exact absurd (keyFits_special key) unfit
  | true =>
    by_cases inside : originalScancode scanCode < keyMap.length
    · have released : keyReleased scanCode = true := by
        by_contra pressed
        exact unfit ⟨inside, fun _ released => absurd released pressed⟩
      rw [press_character key, if_pos released]
      by_cases shortcut : e.inShortcut = true
      · have unfit : ¬ (isAbortKey (originalScancode scanCode) = true ∨ e.line = []) := fun fits =>
          unfit ⟨inside, fun _ _ => by rw [if_pos shortcut]; exact fits⟩
        obtain ⟨abort, some⟩ := not_or.mp unfit
        obtain ⟨ctrl, shift⟩ := (inShortcut_iff tracks).mp shortcut
        obtain ⟨k1, run1, after⟩ := processKey_shortcut key inside released ctrl shift
        obtain rfl : eraseLast k1 = k' := by
          rw [run1] at run
          cases run
          rfl
        have letter : keyMap[originalScancode scanCode] ≠ UInt8.ofNat 'c'.toNat := fun same =>
          abort ((isAbortKey_iff inside).mpr same)
        have erased := (tracks.shortcut after).erase.pending
        rw [if_neg letter] at erased
        rw [if_pos shortcut, if_neg abort, erased]
        -- one character less
        intro same
        have length : e.line.dropLast.length = e.line.length := congrArg List.length same
        rw [List.length_dropLast] at length
        have positive := List.length_pos_iff.mpr some
        omega
      · have plain := fun both : k.ctrlOn = true ∧ ¬ k.shiftOn = true ∧ keyReleased scanCode = true =>
          shortcut ((inShortcut_iff tracks).mpr ⟨both.1, both.2.1⟩)
        obtain ⟨c, here, run1⟩ := processKey_character key inside plain
        rw [tracks.shift, tracks.caps] at here
        have full : ¬ e.line.length + (typedBy e.shift e.caps (originalScancode scanCode)).length < keyboardBuffSize := fun fits =>
          unfit ⟨inside, fun _ _ => by rw [if_neg shortcut]; exact fits⟩
        have length := pendingLine_length (k := k)
        rw [tracks.pending] at length
        rw [typedBy_eq here] at full
        have some : c ≠ 0 := fun zero => by
          rw [if_pos zero, length] at full
          exact full tracks.short
        have word : c.toNat ≠ 0 := fun null => some (UInt8.toNat_inj.mp null)
        rw [if_neg some, length] at full
        obtain rfl : typeSymbol c.toNat k = k' := by
          rw [run1, if_pos ⟨released, word⟩] at run
          cases run
          rfl
        -- the position is at the start again
        have position : (typeSymbol c.toNat k).buffPos = 0 := by
          have last : k.buffPos + 1 = keyboardBuffSize := by
            have short := tracks.short
            simp only [List.length_singleton] at full
            omega
          rw [typeSymbol, if_pos last]
        rw [if_neg shortcut, typedBy_eq here, if_neg some]
        intro same
        have length := congrArg List.length same
        rw [pendingLine_length, position] at length
        simp at length
    · rw [processKey_outside key (Nat.le_of_not_lt inside)] at run
      cases run

end

end Delos.Invariants
