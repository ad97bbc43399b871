import Mathlib.Data.List.Basic
import Delos.Lib.Program
import Delos.Source.Screen

/-!
# What stays in the text area

`OnScreen` is the invariant of the two drivers: the cursor is at most one line below the screen and the
pointer is on it. Printing keeps it unless it scrolls while the pointer is in the first row, and the
backspace keeps it unless the cursor is in the first cell or below the screen. In both cases the
next store is outside.
-/
namespace Delos.Invariants
open Lib Source

structure OnScreen (s : Screen) : Prop where
  cursor : s.cursorCell < 2080
  column : 0 ≤ s.mouseX.toInt ∧ s.mouseX.toInt < 80
  row : 0 ≤ s.mouseY.toInt ∧ s.mouseY.toInt < 25

/-- The pointer is drawn in the first row, and it is to be moved up by the next scroll. -/
def PointerOnTop (s : Screen) : Prop :=
  s.mouseDisabled = false ∧ s.mouseY = 0 ∧ (s.mouseY.toUInt8 ≠ s.prevMouseY ∨ s.mouseX.toUInt8 ≠ s.prevMouseX)

/-! ## The cursor, in cells -/

def scrolled (cell : Nat) : Nat := if 2000 ≤ cell then cell - 80 else cell

def cellAfter (c : UInt8) (cell : Nat) : Nat :=
  if c = UInt8.ofNat '\n'.toNat then cell + 80
  else if c = UInt8.ofNat '\r'.toNat then cell / 80 * 80
  else cell + 1

def cursorAfter : List UInt8 → Nat → Nat
  | [], cell => cell
  | c :: rest, cell => cursorAfter rest (cellAfter c (scrolled cell))

/-- A character is printed while the cursor is below the screen. -/
def Scrolls : List UInt8 → Nat → Prop
  | [], _ => False
  | c :: rest, cell => 2000 ≤ cell ∨ Scrolls rest (cellAfter c (scrolled cell))

section
variable {s s' s'' : Screen} {n : Nat} {c : UInt8} {string : List UInt8}

theorem scrolled_lt (small : n < 2080) : scrolled n < 2000 := by
  unfold scrolled
  split <;> omega

theorem cellAfter_lt (small : n < 2000) : cellAfter c n < 2080 := by
  unfold cellAfter
  split
  · omega
  · split <;> omega

theorem cursorAfter_lt (small : n < 2080) : cursorAfter string n < 2080 := by
  induction string generalizing n with
  | nil => exact small
  | cons c rest ih => exact ih (cellAfter_lt (scrolled_lt small))

theorem newLineOffset_cell (small : n < 2000) : newLineOffset (2 * n) = 2 * (n + 80) := by
  unfold newLineOffset getColumn getRow getOffset maxCols wordModulus
  omega

theorem startLineOffset_cell (n : Nat) : startLineOffset (2 * n) = 2 * (n / 80 * 80) := by
  unfold startLineOffset getRow getOffset maxCols
  omega

/-! ## Stores -/

/-- What a scroll does not change, and the pointer is not moved to the first row. -/
structure SamePointer (s s' : Screen) : Prop where
  cursor : s'.cursorCell = s.cursorCell
  column : s'.mouseX = s.mouseX
  row : s'.mouseY = s.mouseY
  top : PointerOnTop s' → PointerOnTop s

theorem SamePointer.refl (s : Screen) : SamePointer s s := ⟨rfl, rfl, rfl, id⟩

theorem SamePointer.trans (first : SamePointer s s') (second : SamePointer s' s'') : SamePointer s s'' := by
  constructor
  · exact second.cursor.trans first.cursor
  · exact second.column.trans first.column
  · exact second.row.trans first.row
  · exact fun top => first.top (second.top top)

theorem SamePointer.onScreen (same : SamePointer s s') (on : OnScreen s) : OnScreen s' := by
  constructor
  · rw [same.cursor]
    exact on.cursor
  · rw [same.column]
    exact on.column
  · rw [same.row]
    exact on.row

theorem samePointer_video (video : Nat → UInt8) : SamePointer s { s with video := video } := ⟨rfl, rfl, rfl, id⟩

theorem videoStore_run {offset : Nat} (inside : offset < 4000) (v : UInt8) :
    videoStore offset v s = .ok ((), { s with video := Function.update s.video offset v }) := by
  unfold videoStore
  rw [if_pos (show offset < maxRows * maxCols * 2 from inside)]
  rfl

theorem videoStore_stops {offset : Nat} (outside : 4000 ≤ offset) (v : UInt8) :
    videoStore offset v s = .error (.outsideTextArea offset) := by
  unfold videoStore
  rw [if_neg (show ¬ offset < maxRows * maxCols * 2 from Nat.not_lt.mpr outside)]
  rfl

theorem setChar_run {offset : Nat} (inside : offset + 1 < 4000) (c : UInt8) :
    ∃ video, setChar c offset s = .ok ((), { s with video := video }) := by
  have word : (offset + 1) % wordModulus = offset + 1 := Nat.mod_eq_of_lt (Nat.lt_trans inside (by decide))
  unfold setChar
  rw [run_bind (show (get : Showing Screen) s = .ok (s, s) from rfl), run_bind (videoStore_run (Nat.lt_of_succ_lt inside) c), word,
    videoStore_run inside]
  exact ⟨_, rfl⟩

theorem setChars_run {o : List Nat} (inside : ∀ offset ∈ o, offset + 1 < 4000) (c : UInt8) :
    ∃ video, setChars c o s = .ok ((), { s with video := video }) := by
  induction o generalizing s with
  | nil => exact ⟨s.video, rfl⟩
  | cons offset rest ih =>
    obtain ⟨video, first⟩ := setChar_run (s := s) (inside offset List.mem_cons_self) c
    obtain ⟨video', run⟩ := ih (s := { s with video := video }) fun offset member => inside offset (List.mem_cons_of_mem _ member)
    refine ⟨video', ?_⟩
    unfold setChars
    rw [run_bind first]
    exact run

theorem invertColors_run {column row : UInt8} (left : column.toNat < 80) (top : row.toNat < 25) :
    ∃ video, invertColors column row s = .ok ((), { s with video := video }) := by
  have inside : getOffset column.toNat row.toNat + 1 < 4000 := by
    unfold getOffset maxCols
    omega
  unfold invertColors
  rw [run_bind (show (get : Showing Screen) s = .ok (s, s) from rfl), videoStore_run inside]
  exact ⟨_, rfl⟩

theorem scrollHandler_run (below : 2000 ≤ n) (small : n < 2080) :
    ∃ video, scrollHandler (2 * n) s = .ok (2 * (n - 80), { s with video := video }) := by
  obtain ⟨video, run⟩ := setChars_run (o := (List.range maxCols).map fun col => getOffset col (maxRows - 1))
    (s := { s with
      video := fun i => if i < maxCols * (maxRows - 1) * 2 then s.video (i + 2 * maxCols) else s.video i }) (by
      intro offset member
      obtain ⟨col, inside, rfl⟩ := List.mem_map.mp member
      have small := List.mem_range.mp inside
      unfold maxCols at small
      unfold getOffset maxCols maxRows
      omega) space
  have offset : (2 * n + wordModulus - 2 * maxCols) % wordModulus = 2 * (n - 80) := by
    unfold wordModulus maxCols
    omega
  refine ⟨video, ?_⟩
  unfold scrollHandler
  rw [run_bind (run_modify _ s), run_bind run, offset]
  rfl

/-! ## Printing -/

theorem toUInt8_position {v : Int8} (positive : 0 ≤ v.toInt) : (v.toUInt8.toNat : Int) = v.toInt := by
  have value : v.toInt = v.toBitVec.toInt := rfl
  have byte : v.toUInt8.toNat = v.toBitVec.toNat := rfl
  rw [value, BitVec.toInt_eq_toNat_cond] at positive ⊢
  rw [byte]
  split at positive <;> omega

theorem OnScreen.pointer (on : OnScreen s) : s.mouseX.toUInt8.toNat < 80 ∧ s.mouseY.toUInt8.toNat < 25 := by
  have column := toUInt8_position on.column.1
  have row := toUInt8_position on.row.1
  obtain ⟨_, left⟩ := on.column
  obtain ⟨_, top⟩ := on.row
  omega

/-- The row above the pointer. -/
theorem rowAbove (on : OnScreen s) (below : s.mouseY ≠ 0) : (s.mouseY.toUInt8 - 1).toNat < 25 := by
  obtain ⟨_, row⟩ := on.pointer
  have some : s.mouseY.toUInt8 ≠ 0 := fun zero => below (by
    have back := congrArg UInt8.toInt8 zero
    simpa using back)
  have positive : 1 ≤ s.mouseY.toUInt8.toNat := Nat.one_le_iff_ne_zero.mpr fun null => some (UInt8.toNat_inj.mp null)
  have less : (1 : UInt8) ≤ s.mouseY.toUInt8 := UInt8.le_iff_toNat_le.mpr positive
  rw [UInt8.toNat_sub_of_le _ _ less]
  exact Nat.lt_of_le_of_lt (Nat.sub_le _ _) row

theorem redrawMouse_run (on : OnScreen s) (below : ¬ PointerOnTop s) :
    ∃ s', redrawMouse s = .ok ((), s') ∧ SamePointer s s' ∧ ¬ PointerOnTop s' := by
  have drawn : ∀ t : Screen, ¬ PointerOnTop { t with prevMouseX := t.mouseX.toUInt8, prevMouseY := t.mouseY.toUInt8 } :=
    fun t top => top.2.2.elim (fun moved => moved rfl) fun moved => moved rfl
  unfold redrawMouse
  rw [run_bind (show (get : Showing Screen) s = .ok (s, s) from rfl)]
  by_cases moved : ¬ s.mouseDisabled = true ∧
      (s.mouseY.toUInt8 ≠ s.prevMouseY ∨ s.mouseX.toUInt8 ≠ s.prevMouseX)
  · have lower : s.mouseY ≠ 0 := fun zero => below ⟨Bool.eq_false_iff.mpr moved.1, zero, moved.2⟩
    obtain ⟨video, run⟩ := invertColors_run (s := s) on.pointer.1 (rowAbove on lower)
    simp only [if_pos moved]
    rw [run_bind run]
    exact ⟨_, rfl, ⟨rfl, rfl, rfl, fun top => absurd top (drawn { s with video := video })⟩, drawn { s with video := video }⟩
  · simp only [if_neg moved]
    refine ⟨_, rfl, ⟨rfl, rfl, rfl, fun top => absurd top (drawn s)⟩, drawn s⟩

theorem redrawMouse_stops (top : PointerOnTop s) : ∃ e, redrawMouse s = .error e := by
  obtain ⟨enabled, first, moved⟩ := top
  have outside : 4000 ≤ getOffset s.mouseX.toUInt8.toNat (s.mouseY.toUInt8 - 1).toNat + 1 := by
    have last : (s.mouseY.toUInt8 - 1).toNat = 255 := by rw [first]; rfl
    rw [last]
    unfold getOffset maxCols
    omega
  have stops : invertColors s.mouseX.toUInt8 (s.mouseY.toUInt8 - 1) s =
      .error (.outsideTextArea (getOffset s.mouseX.toUInt8.toNat (s.mouseY.toUInt8 - 1).toNat + 1)) := by
    unfold invertColors
    rw [run_bind (show (get : Showing Screen) s = .ok (s, s) from rfl)]
    exact videoStore_stops outside _
  have drawn : ¬ s.mouseDisabled = true ∧ (s.mouseY.toUInt8 ≠ s.prevMouseY ∨ s.mouseX.toUInt8 ≠ s.prevMouseX) :=
    ⟨Bool.eq_false_iff.mp enabled, moved⟩
  unfold redrawMouse
  rw [run_bind (show (get : Showing Screen) s = .ok (s, s) from rfl)]
  simp only [if_pos drawn]
  exact ⟨_, run_stop stops⟩

/-- The part of `print_string` in front of a character. -/
def beforeChar (offset : Nat) : Showing Nat :=
  if offset ≥ maxRows * maxCols * 2 then do
    let offset ← scrollHandler offset
    redrawMouse
    pure offset
  else pure offset

theorem printLoop_cons (c : UInt8) (rest : List UInt8) (offset : Nat) : printLoop (c :: rest) offset = (do
    let offset ← beforeChar offset
    if c = UInt8.ofNat '\n'.toNat then printLoop rest (newLineOffset offset)
    else if c = UInt8.ofNat '\r'.toNat then printLoop rest (startLineOffset offset)
    else do
      setChar c offset
      printLoop rest ((offset + 2) % wordModulus) : Showing Nat) := by
  rw [printLoop, beforeChar]
  by_cases below : offset ≥ maxRows * maxCols * 2
  · rw [if_pos below, if_pos below]
    simp
  · rw [if_neg below, if_neg below, pure_bind]

theorem beforeChar_run (on : OnScreen s) (small : n < 2080) (safe : ¬ (2000 ≤ n ∧ PointerOnTop s)) :
    ∃ s', beforeChar (2 * n) s = .ok (2 * scrolled n, s') ∧ SamePointer s s' := by
  unfold beforeChar scrolled
  by_cases below : 2000 ≤ n
  · have offset : 2 * n ≥ maxRows * maxCols * 2 := by
      unfold maxRows maxCols
      omega
    obtain ⟨video, scroll⟩ := scrollHandler_run (s := s) below small
    have same := samePointer_video (s := s) video
    obtain ⟨s', redraw, same', _⟩ := redrawMouse_run (same.onScreen on) fun top => safe ⟨below, same.top top⟩
    refine ⟨s', ?_, same.trans same'⟩
    rw [if_pos offset, if_pos below, run_bind scroll, run_bind redraw]
    rfl
  · have offset : ¬ 2 * n ≥ maxRows * maxCols * 2 := by
      unfold maxRows maxCols
      omega
    refine ⟨s, ?_, .refl s⟩
    rw [if_neg offset, if_neg below]
    rfl

theorem beforeChar_stops (small : n < 2080) (below : 2000 ≤ n) (top : PointerOnTop s) :
    ∃ e, beforeChar (2 * n) s = .error e := by
  have offset : 2 * n ≥ maxRows * maxCols * 2 := by
    unfold maxRows maxCols
    omega
  obtain ⟨video, scroll⟩ := scrollHandler_run (s := s) below small
  obtain ⟨e, stops⟩ := redrawMouse_stops (s := { s with video := video }) top
  refine ⟨e, ?_⟩
  rw [beforeChar, if_pos offset, run_bind scroll]
  exact run_stop stops

/-- A character, and the rest behind it. -/
theorem printLoop_char (c : UInt8) (rest : List UInt8) (small : n < 2080) (before : beforeChar (2 * n) s = .ok (2 * scrolled n, s')) :
    ∃ video, printLoop (c :: rest) (2 * n) s =
      printLoop rest (2 * cellAfter c (scrolled n)) { s' with video := video } := by
  have inside := scrolled_lt small
  rw [printLoop_cons, run_bind before]
  unfold cellAfter
  by_cases newLine : c = UInt8.ofNat '\n'.toNat
  · rw [if_pos newLine, if_pos newLine, newLineOffset_cell inside]
    exact ⟨s'.video, rfl⟩
  by_cases start : c = UInt8.ofNat '\r'.toNat
  · rw [if_neg newLine, if_neg newLine, if_pos start, if_pos start, startLineOffset_cell]
    exact ⟨s'.video, rfl⟩
  · obtain ⟨video, shown⟩ := setChar_run (s := s') (show 2 * scrolled n + 1 < 4000 by omega) c
    have next : (2 * scrolled n + 2) % wordModulus = 2 * (scrolled n + 1) := by
      unfold wordModulus
      omega
    rw [if_neg newLine, if_neg newLine, if_neg start, if_neg start, run_bind shown, next]
    exact ⟨video, rfl⟩

theorem printLoop_run (on : OnScreen s) (small : n < 2080) (safe : ¬ (Scrolls string n ∧ PointerOnTop s)) :
    ∃ s', printLoop string (2 * n) s = .ok (2 * cursorAfter string n, s') ∧ SamePointer s s' := by
  induction string generalizing s n with
  | nil => exact ⟨s, rfl, .refl s⟩
  | cons c rest ih =>
    obtain ⟨s1, before, same1⟩ := beforeChar_run on small fun both => safe ⟨Or.inl both.1, both.2⟩
    obtain ⟨video, step⟩ := printLoop_char c rest small before
    have same2 := same1.trans (samePointer_video (s := s1) video)
    obtain ⟨s', run, same'⟩ := ih (same2.onScreen on) (cellAfter_lt (scrolled_lt small)) fun both =>
      safe ⟨Or.inr both.1, same2.top both.2⟩
    exact ⟨s', step.trans run, same2.trans same'⟩

theorem printLoop_stops (on : OnScreen s) (small : n < 2080) (scrolls : Scrolls string n) (top : PointerOnTop s) :
    ∃ e, printLoop string (2 * n) s = .error e := by
  induction string generalizing s n with
  | nil => exact absurd scrolls id
  | cons c rest ih =>
    by_cases below : 2000 ≤ n
    · obtain ⟨e, stops⟩ := beforeChar_stops small below top
      refine ⟨e, ?_⟩
      rw [printLoop_cons]
      exact run_stop stops
    · have stay : beforeChar (2 * n) s = .ok (2 * scrolled n, s) := by
        have offset : ¬ 2 * n ≥ maxRows * maxCols * 2 := by
          unfold maxRows maxCols
          omega
        rw [beforeChar, if_neg offset, scrolled, if_neg below]
        rfl
      obtain ⟨video, step⟩ := printLoop_char c rest small stay
      obtain ⟨e, stops⟩ := ih ((samePointer_video (s := s) video).onScreen on) (cellAfter_lt (scrolled_lt small))
        (scrolls.resolve_left below) top
      exact ⟨e, step.trans stops⟩

theorem printString_run (string : List UInt8) (on : OnScreen s) (safe : ¬ (Scrolls (upToNul string) s.cursorCell ∧ PointerOnTop s)) :
    ∃ s', printString string s = .ok ((), s') ∧ OnScreen s' ∧ (PointerOnTop s' → PointerOnTop s) := by
  obtain ⟨s', run, same⟩ := printLoop_run on on.cursor safe
  have after : cursorAfter (upToNul string) s.cursorCell < 2080 := cursorAfter_lt on.cursor
  have cell : 2 * cursorAfter (upToNul string) s.cursorCell / 2 % 65536 = cursorAfter (upToNul string) s.cursorCell := by omega
  refine ⟨{ s' with cursorCell := cursorAfter (upToNul string) s.cursorCell }, ?_, ?_, same.top⟩
  · unfold printString
    rw [run_bind (show getCursor s = .ok (s.cursorCell * 2, s) from rfl), Nat.mul_comm, run_bind run, setCursor, run_modify, cell]
  · exact ⟨after, (same.onScreen on).column, (same.onScreen on).row⟩

theorem printString_stops (on : OnScreen s) (scrolls : Scrolls (upToNul string) s.cursorCell) (top : PointerOnTop s) :
    ∃ e, printString string s = .error e := by
  obtain ⟨e, stops⟩ := printLoop_stops on on.cursor scrolls top
  refine ⟨e, ?_⟩
  unfold printString
  rw [run_bind (show getCursor s = .ok (s.cursorCell * 2, s) from rfl), Nat.mul_comm]
  exact run_stop stops

/-! ## The other calls -/

theorem printBackspace_run (on : OnScreen s) (first : 1 ≤ s.cursorCell) (last : s.cursorCell ≤ 2000) :
    ∃ s', printBackspace s = .ok ((), s') ∧ OnScreen s' := by
  have cursor : (s.cursorCell * 2 + wordModulus - 2) % wordModulus = 2 * (s.cursorCell - 1) := by
    unfold wordModulus
    omega
  obtain ⟨video, shown⟩ := setChar_run (s := s) (show 2 * (s.cursorCell - 1) + 1 < 4000 by omega) space
  have cell : 2 * (s.cursorCell - 1) / 2 % 65536 < 2080 := by omega
  refine ⟨{ s with video := video, cursorCell := 2 * (s.cursorCell - 1) / 2 % 65536 }, ?_, ⟨cell, on.column, on.row⟩⟩
  unfold printBackspace
  rw [run_bind (show getCursor s = .ok (s.cursorCell * 2, s) from rfl), cursor, run_bind shown]
  rfl

theorem printBackspace_stops (on : OnScreen s) (outside : ¬ (1 ≤ s.cursorCell ∧ s.cursorCell ≤ 2000)) :
    ∃ e, printBackspace s = .error e := by
  have far : 4000 ≤ (s.cursorCell * 2 + wordModulus - 2) % wordModulus := by
    have small := on.cursor
    unfold wordModulus
    omega
  refine ⟨.outsideTextArea ((s.cursorCell * 2 + wordModulus - 2) % wordModulus), ?_⟩
  unfold printBackspace
  rw [run_bind (show getCursor s = .ok (s.cursorCell * 2, s) from rfl)]
  apply run_stop
  unfold setChar
  rw [run_bind (show (get : Showing Screen) s = .ok (s, s) from rfl)]
  exact run_stop (videoStore_stops far space)

theorem clearScreen_run (on : OnScreen s) : ∃ s', clearScreen s = .ok ((), s') ∧ OnScreen s' ∧ s'.cursorCell = 0 := by
  obtain ⟨video, run⟩ := setChars_run (o := (List.range (maxCols * maxRows)).map fun i => i * 2)
    (s := { s with screenColor := defaultColor }) (by
      intro offset member
      obtain ⟨i, inside, rfl⟩ := List.mem_map.mp member
      have small := List.mem_range.mp inside
      unfold maxCols maxRows at small
      omega) space
  refine ⟨{ s with screenColor := defaultColor, video := video, cursorCell := 0 }, ?_, ⟨by simp, on.column, on.row⟩, rfl⟩
  unfold clearScreen
  rw [run_bind (show resetColor s = .ok ((), { s with screenColor := defaultColor }) from rfl), run_bind run]
  rfl

/-- No character takes the cursor further than to the next line. -/
theorem scrolls_short (short : n + 80 * string.length < 2080) : ¬ Scrolls string n := by
  induction string generalizing n with
  | nil => exact id
  | cons c rest ih =>
    rw [List.length_cons] at short
    have inside : scrolled n = n := if_neg (by omega)
    have next : cellAfter c n ≤ n + 80 := by
      unfold cellAfter
      split
      · omega
      · split <;> omega
    rintro (below | later)
    · omega
    · rw [inside] at later
      exact ih (by omega) later

theorem printTerminalIndex_run (on : OnScreen s) (index : Nat) :
    ∃ s', printTerminalIndex index s = .ok ((), s') ∧ OnScreen s' := by
  have start : ∀ t : Screen, setCursor (getOffset (maxCols - 10) 0) t = .ok ((), { t with cursorCell := 70 }) := fun _ => rfl
  have top : OnScreen { s with cursorCell := 70 } := ⟨by simp, on.column, on.row⟩
  have length : (upToNul (textBytes "TERMINAL " ++ [UInt8.ofNat ('0'.toNat + index)])).length ≤ 10 :=
    (List.takeWhile_sublist _).length_le
  obtain ⟨s', run, on', _⟩ := printString_run (textBytes "TERMINAL " ++ [UInt8.ofNat ('0'.toNat + index)]) top
    fun both => scrolls_short (by simp only; omega) both.1
  have cell : s.cursorCell * 2 / 2 % 65536 = s.cursorCell := by
    have small := on.cursor
    omega
  refine ⟨{ s' with cursorCell := s.cursorCell }, ?_, ⟨on.cursor, on'.column, on'.row⟩⟩
  unfold printTerminalIndex
  rw [run_bind (show getCursor s = .ok (s.cursorCell * 2, s) from rfl), run_bind (start s), run_bind run, setCursor, run_modify,
    cell]

/-! ## The mouse -/

theorem clampPosition_range {limit v : Int8} (positive : 0 < limit.toInt) (last : (limit - 1).toInt = limit.toInt - 1) :
    0 ≤ (clampPosition limit v).toInt ∧ (clampPosition limit v).toInt < limit.toInt := by
  have zero : (0 : Int8).toInt = 0 := rfl
  unfold clampPosition
  simp only [ge_iff_le, Int8.le_iff_toInt_le, Int8.lt_iff_toInt_lt]
  by_cases negative : v.toInt < (0 : Int8).toInt
  · rw [if_pos negative]
    split <;> omega
  · rw [if_neg negative]
    split <;> omega

theorem handleButton_fields (packet : UInt8) (i : Nat) (s : Screen) : (handleButton packet i s).cursorCell = s.cursorCell ∧
    (handleButton packet i s).mouseX = s.mouseX ∧ (handleButton packet i s).mouseY = s.mouseY := by
  unfold handleButton
  split
  · split <;> exact ⟨rfl, rfl, rfl⟩
  · exact ⟨rfl, rfl, rfl⟩

theorem OnScreen.congr (on : OnScreen s) (cursor : s'.cursorCell = s.cursorCell) (column : s'.mouseX = s.mouseX)
    (row : s'.mouseY = s.mouseY) : OnScreen s' := ⟨cursor ▸ on.cursor, column ▸ on.column, row ▸ on.row⟩

theorem invertPosition_run {x y : Int8} (column : 0 ≤ x.toInt ∧ x.toInt < 80) (row : 0 ≤ y.toInt ∧ y.toInt < 25) :
    ∃ video, invertColors x.toUInt8 y.toUInt8 s = .ok ((), { s with video := video }) := by
  have left := toUInt8_position column.1
  have top := toUInt8_position row.1
  exact invertColors_run (by omega) (by omega)

theorem printMouseState_run (on : OnScreen s) (disabled : s.mouseDisabled = true) :
    ∃ s', printMouseState true s = .ok ((), s') ∧ OnScreen s' := by
  have hidden : ¬ PointerOnTop { s with screenColor := foregroundCyan } := fun top => by
    rw [disabled] at top
    cases top.1
  have cyan : OnScreen { s with screenColor := foregroundCyan } := on.congr rfl rfl rfl
  obtain ⟨s1, first, on1, top1⟩ := printString_run (textBytes "MOUSE ") cyan fun both => hidden both.2
  obtain ⟨s2, second, on2, _⟩ := printString_run (textBytes "DISABLED\n\r") on1 fun both => hidden (top1 both.2)
  refine ⟨{ s2 with screenColor := defaultColor }, ?_, on2.congr rfl rfl rfl⟩
  unfold printMouseState
  rw [run_bind (show setColor foregroundCyan s = .ok ((), { s with screenColor := foregroundCyan }) from rfl), run_bind first,
    if_pos rfl, run_bind second]
  rfl

theorem renderMouse_run (on : OnScreen s) {prevX prevY : Int8} (column : 0 ≤ prevX.toInt ∧ prevX.toInt < 80)
    (row : 0 ≤ prevY.toInt ∧ prevY.toInt < 25) : ∃ s', renderMouse prevX prevY s = .ok ((), s') ∧ OnScreen s' := by
  unfold renderMouse
  rw [run_bind (show (get : Showing Screen) s = .ok (s, s) from rfl)]
  by_cases enabled : s.mouseDisabled = false
  · rw [if_pos enabled]
    by_cases again : s.firstInvertAfterEnabled = true
    · obtain ⟨video, first⟩ := invertPosition_run (s := s) column row
      obtain ⟨video', second⟩ := invertPosition_run (s := { s with video := video }) on.column on.row
      refine ⟨{ s with video := video', firstInvertAfterEnabled := true }, ?_, on.congr rfl rfl rfl⟩
      rw [if_pos again, run_bind first]
      beta_reduce
      rw [run_bind second]
      rfl
    · obtain ⟨video, second⟩ := invertPosition_run (s := s) on.column on.row
      refine ⟨{ s with video := video, firstInvertAfterEnabled := true }, ?_, on.congr rfl rfl rfl⟩
      rw [if_neg again]
      beta_reduce
      rw [run_bind second]
      rfl
  · have disabled : s.mouseDisabled = true := Bool.not_eq_false _ ▸ enabled
    rw [if_neg enabled]
    by_cases erase : s.eraseLastActivePos = true
    · obtain ⟨video, first⟩ := invertPosition_run (s := s) column row
      obtain ⟨s', run, on'⟩ := printMouseState_run
        (s := { s with video := video, eraseLastActivePos := false, firstInvertAfterEnabled := false })
        (on.congr rfl rfl rfl) disabled
      refine ⟨s', ?_, on'⟩
      rw [← disabled] at run
      rw [if_pos erase, run_bind first, run_bind (run_modify _ _)]
      exact run
    · rw [if_neg erase]
      exact ⟨s, rfl, on⟩

theorem mouseCallback_run (on : OnScreen s) (status data : UInt8) :
    ∃ s', mouseCallback status data s = .ok ((), s') ∧ OnScreen s' := by
  unfold mouseCallback
  by_cases empty : status &&& 0x20 = 0
  · rw [if_pos empty]
    exact ⟨s, rfl, on⟩
  rw [if_neg empty]
  generalize stored : ({ s with
    mouseBuffer := Function.update s.mouseBuffer s.mouseOffset data
    mouseOffset := s.mouseOffset + 1 } : Screen) = s1
  have on1 : OnScreen s1 := by
    rw [← stored]
    exact on.congr rfl rfl rfl
  rw [run_bind (run_modify _ s), stored, run_bind (show (get : Showing Screen) s1 = .ok (s1, s1) from rfl)]
  by_cases complete : s1.mouseOffset = 0
  · rw [if_pos complete]
    generalize moved : ({ s1 with
      mouseX := clampPosition 80 (s1.mouseX + (s1.mouseBuffer 1).toInt8)
      mouseY := clampPosition 25 (s1.mouseY - (s1.mouseBuffer 2).toInt8) } : Screen) = s2
    have on2 : OnScreen s2 := by
      rw [← moved]
      exact ⟨on1.cursor, clampPosition_range (by decide) rfl, clampPosition_range (by decide) rfl⟩
    have on3 : ∀ {t : Screen} (i : Nat), OnScreen t → OnScreen (handleButton (s1.mouseBuffer 0) i t) := fun {t} i on => by
      obtain ⟨cursor, column, row⟩ := handleButton_fields (s1.mouseBuffer 0) i t
      exact on.congr cursor column row
    rw [run_bind (run_modify _ s1), moved, run_bind (run_modify _ s2), run_bind (run_modify _ _), run_bind (run_modify _ _)]
    obtain ⟨s', run, on'⟩ := renderMouse_run (on3 2 (on3 1 (on3 0 on2))) on1.column on1.row
    rw [run_bind run]
    exact ⟨_, rfl, on'.congr rfl rfl rfl⟩
  · rw [if_neg complete]
    exact ⟨s1, rfl, on1⟩

/-! ## One call -/

/-- `sys_call_set_cursor` has looked at the position. -/
def ValidOp : ScreenOp → Prop
  | .cursor column row => column < maxCols ∧ row < maxRows
  | _ => True

/-- What the state has to be like for the call to stay on the screen. -/
def OpFits (s : Screen) : ScreenOp → Prop
  | .print string => ¬ (Scrolls (upToNul string) s.cursorCell ∧ PointerOnTop s)
  | .backspace => 1 ≤ s.cursorCell ∧ s.cursorCell ≤ 2000
  | _ => True

theorem screenOp_run {op : ScreenOp} (on : OnScreen s) (valid : ValidOp op) (fits : OpFits s op) :
    ∃ s', op.perform s = .ok ((), s') ∧ OnScreen s' := by
  cases op with
  | print string =>
    obtain ⟨s', run, on', _⟩ := printString_run string on fits
    exact ⟨s', run, on'⟩
  | clear =>
    obtain ⟨s', run, on', _⟩ := clearScreen_run on
    exact ⟨s', run, on'⟩
  | color v => exact ⟨_, rfl, on.congr rfl rfl rfl⟩
  | cursor column row =>
    obtain ⟨left, top⟩ := valid
    have cell : getOffset column row / 2 % 65536 < 2080 := by
      unfold maxCols at left
      unfold maxRows at top
      unfold getOffset maxCols
      omega
    exact ⟨_, rfl, ⟨cell, on.column, on.row⟩⟩
  | terminalIndex index => exact printTerminalIndex_run on index
  | backspace => exact printBackspace_run on fits.1 fits.2
  | mouse status data => exact mouseCallback_run on status data

theorem screenOp_stops {op : ScreenOp} (on : OnScreen s) (unfit : ¬ OpFits s op) : ∃ e, op.perform s = .error e := by
  cases op with
  | print string =>
    obtain ⟨scrolls, top⟩ := not_not.mp unfit
    exact printString_stops on scrolls top
  | backspace => exact printBackspace_stops on unfit
  | clear => exact absurd trivial unfit
  | color v => exact absurd trivial unfit
  | cursor column row => exact absurd trivial unfit
  | terminalIndex index => exact absurd trivial unfit
  | mouse status data => exact absurd trivial unfit

/-- What a console asks for is valid. -/
theorem consoleOps_valid (steps : List ConsoleStep) (k : Keyboard) : ∀ op ∈ consoleOps k steps, ValidOp op := by
  have calls : ∀ shown call, ∀ op ∈ keyboardOps shown call, ValidOp op := fun shown call op member => by
    cases call with
    | switchToTerminal pid =>
      unfold keyboardOps at member
      cases there : shown pid with
      | none => simp [there] at member
      | some text =>
        simp only [there, List.mem_cons, List.not_mem_nil, or_false] at member
        rcases member with rfl | rfl | rfl | rfl | rfl <;> exact trivial
    | kprintf text | printBackspace | clearScreen =>
      obtain rfl := List.mem_singleton.mp member
      exact trivial
    | wakeProcessWaitingForKeyboard line | abortProcess => cases member
  induction steps generalizing k with
  | nil =>
    intro op member
    cases member
  | cons step rest ih =>
    intro op member
    cases step with
    | printString string | clearScreen | mousePacket status data =>
      rcases List.mem_cons.mp member with rfl | later
      · exact trivial
      · exact ih k op later
    | sysCallSetCursor xAxis yAxis =>
      unfold consoleOps at member
      by_cases refused : xAxis ≥ maxCols ∨ yAxis ≥ maxRows
      · rw [if_pos refused] at member
        exact ih k op member
      · rw [if_neg refused] at member
        rcases List.mem_cons.mp member with rfl | later
        · exact ⟨Nat.lt_of_not_le fun large => refused (Or.inl large), Nat.lt_of_not_le fun large => refused (Or.inr large)⟩
        · exact ih k op later
    | processKey scanCode shown =>
      unfold consoleOps at member
      cases run : processKey scanCode { k with calls := [] } with
      | error e =>
        rw [run] at member
        cases member
      | ok result =>
        rw [run] at member
        rcases List.mem_append.mp member with now | later
        · obtain ⟨call, _, inside⟩ := List.mem_flatMap.mp now
          exact calls shown call op inside
        · exact ih _ op later

end

end Delos.Invariants
