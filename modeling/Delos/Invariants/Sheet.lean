import Delos.Lib.Traces
import Delos.Invariants.ScreenBounds

/-!
# A sheet without an end

What the screen is for: text is typed on a sheet, and a window of 25 rows is shown of it. What
stands on the sheet does not move; the window does, when the next character would be typed below it.
The pointer of the mouse only changes colors, so the text does not depend on it.
-/
namespace Delos.Invariants
open Lib Source

/-- Cells have one number on the whole sheet; `top` rows are above the window. -/
structure Sheet where
  text : Nat → UInt8
  cursor : Nat
  top : Nat

namespace Sheet

def blank : Sheet := ⟨fun _ => space, 0, 0⟩

/-- The cell of the window in which the cursor is. -/
def cell (t : Sheet) : Nat := t.cursor - 80 * t.top

def goTo (n : Nat) (t : Sheet) : Sheet := { t with cursor := 80 * t.top + n }

def put (c : UInt8) (t : Sheet) : Sheet := { t with text := Function.update t.text t.cursor c }

def follow (t : Sheet) : Sheet := if 80 * (t.top + 25) ≤ t.cursor then { t with top := t.top + 1 } else t

def type (t : Sheet) (c : UInt8) : Sheet :=
  let t := t.follow
  if c = UInt8.ofNat '\n'.toNat then { t with cursor := t.cursor + 80 }
  else if c = UInt8.ofNat '\r'.toNat then { t with cursor := t.cursor / 80 * 80 }
  else { t.put c with cursor := t.cursor + 1 }

def typeAll (string : List UInt8) (t : Sheet) : Sheet := string.foldl type t

def erase (t : Sheet) : Sheet := ({ t with cursor := t.cursor - 1 } : Sheet).put space

/-- Typed in the first row of the window. -/
def label (index : Nat) (t : Sheet) : Sheet :=
  ((t.goTo 70).typeAll (upToNul (textBytes "TERMINAL " ++ [UInt8.ofNat ('0'.toNat + index)]))).goTo t.cell

/-- A packet of the mouse can bring a line of text with it. -/
def After : ScreenOp → Sheet → Sheet → Prop
  | .print string, t, t' => t' = t.typeAll (upToNul string)
  | .clear, _, t' => t' = blank
  | .color _, t, t' => t' = t
  | .cursor column row, t, t' => t' = t.goTo (80 * row + column)
  | .terminalIndex index, t, t' => t' = t.label index
  | .backspace, t, t' => t' = t.erase
  | .mouse _ _, t, t' => t' = t ∨ t' = t.typeAll (textBytes "MOUSE DISABLED\n\r")

end Sheet

inductive SheetRun : List ScreenOp → Sheet → Sheet → Prop
  | done (t : Sheet) : SheetRun [] t t
  | step {op : ScreenOp} {rest : List ScreenOp} {t t' t'' : Sheet} (after : Sheet.After op t t') (later : SheetRun rest t' t'') :
    SheetRun (op :: rest) t t''

/-- The characters of the text area. -/
def letters (s : Screen) (i : Nat) : UInt8 := s.video (2 * i)

/-- The window is on the screen, the cursor in cell `n`. -/
structure Window (s : Screen) (n : Nat) (t : Sheet) : Prop where
  shown : ∀ i < 2000, letters s i = t.text (80 * t.top + i)
  cursor : t.cursor = 80 * t.top + n
  near : n < 2080
  empty : ∀ i, 80 * (t.top + 25) ≤ i → t.text i = space

/-- Colors and the pointer may differ. -/
structure SameText (s s' : Screen) : Prop where
  letters : letters s' = letters s
  cursor : s'.cursorCell = s.cursorCell

section
variable {s s' s'' : Screen} {t : Sheet} {n : Nat} {c : UInt8} {string : List UInt8} {anyStop : ScreenStop → Prop}

-- no program is evaluated when two judgments are compared
attribute [local irreducible] Meets

theorem SameText.refl (s : Screen) : SameText s s := ⟨rfl, rfl⟩

theorem SameText.trans (first : SameText s s') (second : SameText s' s'') : SameText s s'' :=
  ⟨second.letters.trans first.letters, second.cursor.trans first.cursor⟩

theorem Window.same (window : Window s n t) (same : SameText s s') : Window s' n t := by
  refine ⟨?_, window.cursor, window.near, window.empty⟩
  rw [same.letters]
  exact window.shown

/-! ## Stores -/

theorem meets_stop {x : Showing Unit} {e : ScreenStop} {post : Unit → Screen → Prop} (stops : x s = .error e)
    (allowed : anyStop e) : Meets anyStop x s post := by
  unfold Meets
  rw [stops]
  exact allowed

/-- A store that stops shows nothing. -/
theorem meets_videoStore (stops : ∀ e, anyStop e) {offset : Nat} {v : UInt8} {post : Unit → Screen → Prop}
    (meets : offset < 4000 → post () { s with video := Function.update s.video offset v }) :
    Meets anyStop (videoStore offset v) s post := by
  by_cases inside : offset < 4000
  · exact meets_run (videoStore_run inside v) (meets inside)
  · exact meets_stop (videoStore_stops (Nat.not_lt.mp inside) v) (stops _)

/-- The colors are in the odd bytes. -/
theorem letters_color (i : Nat) (v : UInt8) :
    letters { s with video := Function.update s.video (2 * i + 1) v } = letters s := by
  funext j
  have other : 2 * j ≠ 2 * i + 1 := by omega
  simp [letters, other]

theorem letters_char (n : Nat) (c : UInt8) :
    letters { s with video := Function.update s.video (2 * n) c } = Function.update (letters s) n c := by
  funext j
  by_cases here : j = n
  · subst here
    simp [letters]
  · have other : 2 * j ≠ 2 * n := by omega
    simp [letters, here, other]

theorem meets_setChar (stops : ∀ e, anyStop e) (small : n < 2080) : Meets anyStop (setChar c (2 * n)) s fun _ s' =>
    n < 2000 ∧ letters s' = Function.update (letters s) n c ∧ s'.cursorCell = s.cursorCell := by
  have word : (2 * n + 1) % wordModulus = 2 * n + 1 := Nat.mod_eq_of_lt (by unfold wordModulus; omega)
  have first : Meets anyStop (videoStore (2 * n) c) s fun _ s1 =>
      n < 2000 ∧ s1 = { s with video := Function.update s.video (2 * n) c } :=
    meets_videoStore stops fun inside => ⟨by omega, rfl⟩
  unfold setChar
  rw [meets_next (show (get : Showing Screen) s = .ok (s, s) from rfl), word]
  apply meets_call first
  rintro _ _ ⟨inside, rfl⟩
  apply meets_videoStore stops
  intro _
  refine ⟨inside, ?_, rfl⟩
  rw [letters_color, letters_char]

theorem meets_setChars (stops : ∀ e, anyStop e) {cells : List Nat} (small : ∀ i ∈ cells, i < 2080) :
    Meets anyStop (setChars c (cells.map fun i => 2 * i)) s fun _ s' =>
      (∀ i, letters s' i = if i ∈ cells then c else letters s i) ∧ s'.cursorCell = s.cursorCell := by
  induction cells generalizing s with
  | nil => exact meets_pure.mpr ⟨fun i => by simp, rfl⟩
  | cons n rest ih =>
    rw [List.map_cons, setChars]
    apply meets_call (meets_setChar stops (small n List.mem_cons_self))
    rintro _ s1 ⟨_, text, cursor⟩
    apply meets_mono (ih fun i inside => small i (List.mem_cons_of_mem _ inside))
    rintro _ s2 ⟨text', cursor'⟩
    refine ⟨fun i => ?_, cursor'.trans cursor⟩
    rw [text', text]
    by_cases later : i ∈ rest
    · simp [later]
    · by_cases here : i = n <;> simp [later, here]

theorem meets_invertColors (stops : ∀ e, anyStop e) (column row : UInt8) :
    Meets anyStop (invertColors column row) s fun _ s' => SameText s s' := by
  unfold invertColors
  rw [meets_next (show (get : Showing Screen) s = .ok (s, s) from rfl)]
  apply meets_videoStore stops
  intro _
  exact ⟨letters_color (row.toNat * maxCols + column.toNat) _, rfl⟩

theorem meets_redrawMouse (stops : ∀ e, anyStop e) : Meets anyStop redrawMouse s fun _ s' => SameText s s' := by
  unfold redrawMouse
  rw [meets_next (show (get : Showing Screen) s = .ok (s, s) from rfl)]
  by_cases moved : ¬ s.mouseDisabled = true ∧ (s.mouseY.toUInt8 ≠ s.prevMouseY ∨ s.mouseX.toUInt8 ≠ s.prevMouseX)
  · simp only [if_pos moved]
    apply meets_call (meets_invertColors stops _ _)
    intro _ s1 same
    rw [meets_next (run_modify _ s1)]
    exact meets_run (run_modify _ _) ⟨same.letters, same.cursor⟩
  · simp only [if_neg moved]
    exact meets_run (run_modify _ s) ⟨rfl, rfl⟩

/-- The last row is new. -/
theorem meets_scrollHandler (stops : ∀ e, anyStop e) (below : 2000 ≤ n) (small : n < 2080) :
    Meets anyStop (scrollHandler (2 * n)) s fun offset s' => offset = 2 * (n - 80) ∧ s'.cursorCell = s.cursorCell ∧
      ∀ i < 2000, letters s' i = if i < 1920 then letters s (i + 80) else space := by
  have row : ((List.range maxCols).map fun col => getOffset col (maxRows - 1)) =
      ((List.range 80).map fun col => 1920 + col).map fun i => 2 * i := by
    rw [List.map_map]
    rfl
  have offset : (2 * n + wordModulus - 2 * maxCols) % wordModulus = 2 * (n - 80) := by
    unfold wordModulus maxCols
    omega
  unfold scrollHandler
  rw [meets_next (run_modify _ s), row]
  apply meets_call (meets_setChars stops (by simp; omega))
  rintro _ s1 ⟨text, cursor⟩
  refine meets_pure.mpr ⟨offset, cursor, fun i inside => ?_⟩
  rw [text]
  by_cases upper : i < 1920
  · have other : i ∉ (List.range 80).map fun col => 1920 + col := by
      simp
      omega
    have moved : 2 * i < maxCols * (maxRows - 1) * 2 := by
      unfold maxCols maxRows
      omega
    rw [if_neg other, if_pos upper]
    simp only [letters, if_pos moved]
    rfl
  · have last : i ∈ (List.range 80).map fun col => 1920 + col :=
      List.mem_map.mpr ⟨i - 1920, List.mem_range.mpr (by omega), by omega⟩
    rw [if_pos last, if_neg upper]

/-! ## Printing -/

/-- The step lemma in front of a character. -/
theorem meets_beforeChar (stops : ∀ e, anyStop e) (window : Window s n t) :
    Meets anyStop (beforeChar (2 * n)) s fun offset s' => ∃ m, offset = 2 * m ∧ m < 2000 ∧ Window s' m t.follow := by
  have near := window.near
  have cursor := window.cursor
  unfold beforeChar Sheet.follow
  by_cases below : 2000 ≤ n
  · rw [if_pos (show 2 * n ≥ maxRows * maxCols * 2 by unfold maxRows maxCols; omega), if_pos (by omega)]
    apply meets_call (meets_scrollHandler stops below near)
    rintro _ s1 ⟨rfl, _, text⟩
    apply meets_call (meets_redrawMouse stops)
    intro _ s2 same
    refine meets_pure.mpr ⟨n - 80, rfl, by omega, ?_, ?_, by omega, fun i behind => window.empty i (by simp only at behind; omega)⟩
    · intro i inside
      rw [same.letters, text i inside]
      simp only
      by_cases upper : i < 1920
      · rw [if_pos upper, window.shown (i + 80) (by omega)]
        congr 1
        omega
      · rw [if_neg upper, window.empty _ (by omega)]
    · simp only
      omega
  · rw [if_neg (show ¬ 2 * n ≥ maxRows * maxCols * 2 by unfold maxRows maxCols; omega), if_neg (by omega)]
    exact meets_pure.mpr ⟨n, rfl, by omega, window⟩

/-- A character on the sheet. -/
theorem Window.put (window : Window s n t) (small : n < 2000) (text : letters s' = Function.update (letters s) n c) :
    Window s' n (t.put c) := by
  have cursor := window.cursor
  refine ⟨fun i inside => ?_, cursor, window.near, fun i behind => ?_⟩
  · rw [text, Sheet.put]
    simp only
    by_cases here : i = n
    · subst here
      simp [cursor]
    · have other : 80 * t.top + i ≠ t.cursor := by omega
      simp [here, other, window.shown i inside]
  · simp only [Sheet.put] at behind ⊢
    have other : i ≠ t.cursor := by omega
    simp [other, window.empty i behind]

theorem Window.goTo (window : Window s n t) {m : Nat} (small : m < 2080) : Window s m (t.goTo m) :=
  ⟨window.shown, rfl, small, window.empty⟩

theorem Window.moved (window : Window s n t) {m : Nat} (small : m < 2080) {cursor : Nat} (there : cursor = 80 * t.top + m) :
    Window s m { t with cursor := cursor } :=
  ⟨window.shown, there, small, window.empty⟩

/-- The run lemma: a string. -/
theorem meets_printLoop (stops : ∀ e, anyStop e) (window : Window s n t) :
    Meets anyStop (printLoop string (2 * n)) s fun offset s' => ∃ m, offset = 2 * m ∧ Window s' m (t.typeAll string) := by
  induction string generalizing s n t with
  | nil => exact meets_pure.mpr ⟨n, rfl, window⟩
  | cons c rest ih =>
    rw [printLoop_cons]
    apply meets_call (meets_beforeChar stops window)
    rintro _ s1 ⟨m, rfl, small, window1⟩
    have cursor := window1.cursor
    have typed : t.typeAll (c :: rest) = (t.type c).typeAll rest := rfl
    rw [typed]
    unfold Sheet.type
    by_cases newLine : c = UInt8.ofNat '\n'.toNat
    · rw [if_pos newLine, newLineOffset_cell small]
      simp only [if_pos newLine]
      exact ih (window1.moved (by omega) (by omega))
    by_cases start : c = UInt8.ofNat '\r'.toNat
    · rw [if_neg newLine, if_pos start, startLineOffset_cell]
      simp only [if_neg newLine, if_pos start]
      exact ih (window1.moved (by omega) (by omega))
    · have next : (2 * m + 2) % wordModulus = 2 * (m + 1) := by
        unfold wordModulus
        omega
      rw [if_neg newLine, if_neg start]
      simp only [if_neg newLine, if_neg start]
      apply meets_call (meets_setChar stops (by omega))
      rintro _ s2 ⟨_, text, _⟩
      rw [next]
      exact ih ((window1.put small text).moved (by omega) (by simp only [Sheet.put]; omega))

theorem meets_setCursor {m : Nat} (window : Window s m t) {post : Unit → Screen → Prop}
    (meets : ∀ s', s'.cursorCell = m → Window s' s'.cursorCell t → post () s') : Meets anyStop (setCursor (2 * m)) s post := by
  have near := window.near
  have cell : 2 * m / 2 % 65536 = m := by omega
  apply meets_run (run_modify _ s)
  apply meets _ cell
  refine ⟨window.shown, ?_, ?_, window.empty⟩
  · simp only [cell]
    exact window.cursor
  · simp only [cell]
    exact near

theorem meets_printString (stops : ∀ e, anyStop e) (string : List UInt8) (window : Window s s.cursorCell t) :
    Meets anyStop (printString string) s fun _ s' => Window s' s'.cursorCell (t.typeAll (upToNul string)) := by
  unfold printString
  rw [meets_next (show getCursor s = .ok (s.cursorCell * 2, s) from rfl), Nat.mul_comm]
  apply meets_call (meets_printLoop stops window)
  rintro _ s1 ⟨m, rfl, window1⟩
  exact meets_setCursor window1 fun _ _ window2 => window2

theorem meets_clearScreen (stops : ∀ e, anyStop e) :
    Meets anyStop clearScreen s fun _ s' => Window s' s'.cursorCell Sheet.blank := by
  have every : ((List.range (maxCols * maxRows)).map fun i => i * 2) = (List.range 2000).map fun i => 2 * i :=
    List.map_congr_left fun i _ => Nat.mul_comm i 2
  have first : getOffset 0 0 = 2 * 0 := rfl
  unfold clearScreen
  rw [meets_next (show resetColor s = .ok ((), { s with screenColor := defaultColor }) from rfl), every, first]
  apply meets_call (meets_setChars stops fun i inside => Nat.lt_trans (List.mem_range.mp inside) (by decide))
  rintro _ s1 ⟨text, _⟩
  have window : Window s1 0 Sheet.blank := by
    refine ⟨fun i inside => ?_, rfl, by decide, fun _ _ => rfl⟩
    rw [text, if_pos (List.mem_range.mpr inside)]
    rfl
  exact meets_setCursor window fun _ _ window' => window'

/-- In the first cell the store is outside. -/
theorem meets_printBackspace (stops : ∀ e, anyStop e) (window : Window s s.cursorCell t) :
    Meets anyStop printBackspace s fun _ s' => Window s' s'.cursorCell t.erase := by
  have near := window.near
  have cursor := window.cursor
  have outside : s.cursorCell = 0 → 4000 ≤ (s.cursorCell * 2 + wordModulus - 2) % wordModulus := by
    unfold wordModulus
    omega
  have back : s.cursorCell ≠ 0 → (s.cursorCell * 2 + wordModulus - 2) % wordModulus = 2 * (s.cursorCell - 1) := by
    unfold wordModulus
    omega
  unfold printBackspace
  rw [meets_next (show getCursor s = .ok (s.cursorCell * 2, s) from rfl)]
  generalize (s.cursorCell * 2 + wordModulus - 2) % wordModulus = o at outside back ⊢
  by_cases first : s.cursorCell = 0
  · have stopped : setChar space o s = .error (.outsideTextArea o) := by
      unfold setChar
      rw [run_bind (show (get : Showing Screen) s = .ok (s, s) from rfl)]
      exact run_stop (videoStore_stops (outside first) _)
    exact meets_stop (run_stop stopped) (stops _)
  · rw [back first]
    apply meets_call (meets_setChar stops (by omega))
    rintro _ s1 ⟨inside, text, _⟩
    have before : Window s (s.cursorCell - 1) { t with cursor := t.cursor - 1 } := window.moved (by omega) (by omega)
    exact meets_setCursor (before.put inside text) fun _ _ window' => window'

theorem meets_printTerminalIndex (stops : ∀ e, anyStop e) (index : Nat) (window : Window s s.cursorCell t) :
    Meets anyStop (printTerminalIndex index) s fun _ s' => Window s' s'.cursorCell (t.label index) := by
  have cell : t.cell = s.cursorCell := by
    have cursor := window.cursor
    unfold Sheet.cell
    omega
  have corner : getOffset (maxCols - 10) 0 = 2 * 70 := rfl
  unfold printTerminalIndex Sheet.label
  rw [meets_next (show getCursor s = .ok (s.cursorCell * 2, s) from rfl), corner, cell, Nat.mul_comm s.cursorCell]
  have moved : Meets anyStop (setCursor (2 * 70)) s fun _ s1 => Window s1 s1.cursorCell (t.goTo 70) :=
    meets_setCursor (window.goTo (by decide)) fun _ _ window1 => window1
  apply meets_call moved
  intro _ s1 window1
  apply meets_call (meets_printString stops _ window1)
  intro _ s2 window2
  exact meets_setCursor (window2.goTo window.near) fun _ _ window3 => window3

/-! ## The mouse -/

theorem Window.frame (window : Window s s.cursorCell t) (same : SameText s s') : Window s' s'.cursorCell t := by
  rw [same.cursor]
  exact window.same same

theorem Sheet.typeAll_append (a b : List UInt8) (t : Sheet) : t.typeAll (a ++ b) = (t.typeAll a).typeAll b :=
  List.foldl_append

theorem sameText_button (packet : UInt8) (i : Nat) (s : Screen) : SameText s (handleButton packet i s) := by
  unfold handleButton
  split
  · split <;> exact ⟨rfl, rfl⟩
  · exact .refl s

theorem meets_printMouseState (stops : ∀ e, anyStop e) (window : Window s s.cursorCell t) :
    Meets anyStop (printMouseState true) s fun _ s' =>
      Window s' s'.cursorCell (t.typeAll (textBytes "MOUSE DISABLED\n\r")) := by
  have line : textBytes "MOUSE DISABLED\n\r" = upToNul (textBytes "MOUSE ") ++ upToNul (textBytes "DISABLED\n\r") := by
    decide
  have colored : Window { s with screenColor := foregroundCyan } s.cursorCell t := window.same ⟨rfl, rfl⟩
  unfold printMouseState
  rw [meets_next (show setColor foregroundCyan s = .ok ((), { s with screenColor := foregroundCyan }) from rfl), if_pos rfl,
    line, Sheet.typeAll_append]
  apply meets_call (meets_printString stops _ colored)
  intro _ s1 window1
  apply meets_call (meets_printString stops _ window1)
  intro _ s2 window2
  exact meets_run (run_modify _ s2) (window2.same ⟨rfl, rfl⟩)

theorem meets_renderMouse (stops : ∀ e, anyStop e) (prevX prevY : Int8) (window : Window s s.cursorCell t) :
    Meets anyStop (renderMouse prevX prevY) s fun _ s' =>
      ∃ t', (t' = t ∨ t' = t.typeAll (textBytes "MOUSE DISABLED\n\r")) ∧ Window s' s'.cursorCell t' := by
  unfold renderMouse
  rw [meets_next (show (get : Showing Screen) s = .ok (s, s) from rfl)]
  by_cases enabled : s.mouseDisabled = false
  · have drawn : ∀ s1, SameText s s1 → Meets anyStop (do
        invertColors s.mouseX.toUInt8 s.mouseY.toUInt8
        modify fun s => { s with firstInvertAfterEnabled := true } : Showing Unit) s1 fun _ s' =>
          ∃ t', (t' = t ∨ t' = t.typeAll (textBytes "MOUSE DISABLED\n\r")) ∧ Window s' s'.cursorCell t' := by
      intro s1 same1
      apply meets_call (meets_invertColors stops _ _)
      intro _ s2 same2
      have same := same1.trans same2
      exact meets_run (run_modify _ s2) ⟨t, .inl rfl, window.frame ⟨same.letters, same.cursor⟩⟩
    rw [if_pos enabled]
    by_cases again : s.firstInvertAfterEnabled = true
    · rw [if_pos again]
      apply meets_call (meets_invertColors stops _ _)
      exact fun _ s1 same1 => drawn s1 same1
    · rw [if_neg again]
      exact drawn s (.refl s)
  · have disabled : s.mouseDisabled = true := Bool.not_eq_false _ ▸ enabled
    rw [if_neg enabled, disabled]
    by_cases last : s.eraseLastActivePos = true
    · rw [if_pos last]
      apply meets_call (meets_invertColors stops _ _)
      intro _ s1 same1
      rw [meets_next (run_modify _ s1)]
      have window1 : Window { s1 with eraseLastActivePos := false, firstInvertAfterEnabled := false } s1.cursorCell t :=
        (window.frame same1).same ⟨rfl, rfl⟩
      apply meets_mono (meets_printMouseState stops window1)
      exact fun _ s2 window2 => ⟨_, .inr rfl, window2⟩
    · rw [if_neg last]
      exact meets_pure.mpr ⟨t, .inl rfl, window⟩

theorem meets_mouseCallback (stops : ∀ e, anyStop e) (status data : UInt8) (window : Window s s.cursorCell t) :
    Meets anyStop (mouseCallback status data) s fun _ s' =>
      ∃ t', (t' = t ∨ t' = t.typeAll (textBytes "MOUSE DISABLED\n\r")) ∧ Window s' s'.cursorCell t' := by
  unfold mouseCallback
  by_cases none : status &&& 0x20 = 0
  · rw [if_pos none]
    exact meets_pure.mpr ⟨t, .inl rfl, window⟩
  rw [if_neg none, meets_next (run_modify _ s)]
  generalize stored : ({ s with
    mouseBuffer := Function.update s.mouseBuffer s.mouseOffset data
    mouseOffset := s.mouseOffset + 1 } : Screen) = s1
  have window1 : Window s1 s1.cursorCell t := by
    rw [← stored]
    exact window.frame ⟨rfl, rfl⟩
  rw [meets_next (show (get : Showing Screen) s1 = .ok (s1, s1) from rfl)]
  by_cases complete : s1.mouseOffset = 0
  · rw [if_pos complete, meets_next (run_modify _ s1)]
    generalize moved : ({ s1 with
      mouseX := clampPosition 80 (s1.mouseX + (s1.mouseBuffer 1).toInt8)
      mouseY := clampPosition 25 (s1.mouseY - (s1.mouseBuffer 2).toInt8) } : Screen) = s2
    have window2 : Window s2 s2.cursorCell t := by
      rw [← moved]
      exact window1.frame ⟨rfl, rfl⟩
    rw [meets_next (run_modify _ s2), meets_next (run_modify _ _), meets_next (run_modify _ _)]
    apply meets_call (meets_renderMouse stops s1.mouseX s1.mouseY
      (((window2.frame (sameText_button _ 0 s2)).frame (sameText_button _ 1 _)).frame (sameText_button _ 2 _)))
    rintro _ s3 ⟨t', typed, window3⟩
    exact meets_run (run_modify _ s3) ⟨t', typed, window3.same ⟨rfl, rfl⟩⟩
  · rw [if_neg complete]
    exact meets_pure.mpr ⟨t, .inl rfl, window1⟩

/-! ## Runs -/

/-- The step lemma: what one call does on the sheet. -/
theorem meets_screenOp (stops : ∀ e, anyStop e) {op : ScreenOp} (valid : ValidOp op) (window : Window s s.cursorCell t) :
    Meets anyStop op.perform s fun _ s' => ∃ t', Sheet.After op t t' ∧ Window s' s'.cursorCell t' := by
  cases op with
  | print string => exact meets_mono (meets_printString stops string window) fun _ _ window' => ⟨_, rfl, window'⟩
  | clear => exact meets_mono (meets_clearScreen stops) fun _ _ window' => ⟨_, rfl, window'⟩
  | color v => exact meets_run (run_modify _ s) ⟨t, rfl, window.same ⟨rfl, rfl⟩⟩
  | cursor column row =>
    obtain ⟨left, upper⟩ := valid
    have cell : getOffset column row = 2 * (80 * row + column) := by
      unfold getOffset maxCols
      omega
    unfold maxCols at left
    unfold maxRows at upper
    show Meets anyStop (setCursor (getOffset column row)) s _
    rw [cell]
    exact meets_setCursor (window.goTo (by omega)) fun _ _ window' => ⟨_, rfl, window'⟩
  | terminalIndex index =>
    exact meets_mono (meets_printTerminalIndex stops index window) fun _ _ window' => ⟨_, rfl, window'⟩
  | backspace => exact meets_mono (meets_printBackspace stops window) fun _ _ window' => ⟨_, rfl, window'⟩
  | mouse status data => exact meets_mouseCallback stops status data window

theorem meets_sheetRun (stops : ∀ e, anyStop e) {ops : List ScreenOp} (valid : ∀ op ∈ ops, ValidOp op)
    (window : Window s s.cursorCell t) : Meets anyStop (runEach ScreenOp.perform ops) s fun _ s' =>
      ∃ t', SheetRun ops t t' ∧ Window s' s'.cursorCell t' := by
  induction ops generalizing s t with
  | nil => exact meets_pure.mpr ⟨t, .done t, window⟩
  | cons op rest ih =>
    rw [runEach]
    apply meets_call (meets_screenOp stops (valid op List.mem_cons_self) window)
    rintro _ s1 ⟨t1, after, window1⟩
    apply meets_mono (ih (fun later inside => valid later (List.mem_cons_of_mem _ inside)) window1)
    rintro _ s2 ⟨t2, later, window2⟩
    exact ⟨t2, .step after later, window2⟩

end

end Delos.Invariants
