import Delos.Lib.Traces
import Delos.Invariants.ScreenBounds

/-!
# Screen writes

Nothing is stored outside the text area as long as the backspace finds the cursor behind a cell of
the screen, and the pointer has not been moved to the first row when a text scrolls. The guard
of the backspace counts characters: it does not see that CTRL+L has just taken the cursor to the first
cell, and `invert_colors(x, y - 1)` takes row 0 for row 255.
-/
namespace Delos.Guarantees
open Lib Source Invariants

/-- No store is outside, and the cursor is at most one line below the screen. -/
def StaysOnScreen (steps : List ConsoleStep) : Prop :=
  AlwaysShown ScreenOp.perform screenStart (fun _ s => s.cursorCell * 2 < maxRows * maxCols * 2 + 2 * maxCols)
    (consoleOps keyboardInit steps)

/-- Each call fits the state of the drivers that it finds. -/
def AllOpsFit (steps : List ConsoleStep) : Prop :=
  AlwaysFits ScreenOp.perform screenStart (fun _ s op => OpFits s op) (consoleOps keyboardInit steps)

theorem onScreen_start : OnScreen screenStart := ⟨by decide, by decide, by decide⟩

theorem screen_bounds (steps : List ConsoleStep) : StaysOnScreen steps ↔ AllOpsFit steps := by
  refine alwaysShown_iff (fun _ s => OnScreen s) onScreen_start ?_ ?_ ?_
  · intro _ s on
    have cell := on.cursor
    unfold maxRows maxCols
    omega
  · exact fun _ s op member on fits => screenOp_run on (consoleOps_valid steps keyboardInit op member) fits
  · intro _ s s' op on unfit run
    obtain ⟨e, stops⟩ := screenOp_stops on unfit
    rw [stops] at run
    cases run

/-- The letter `a` and CTRL+L: the backspace finds the cursor in the first cell. -/
def clearAfterLetter : List ConsoleStep :=
  [0x9E, 0x1D, 0xA6].map fun scanCode => .processKey scanCode fun _ => none

theorem screen_bounds_shortcut : ¬ StaysOnScreen clearAfterLetter ∧
    ∃ offset, runEach ScreenOp.perform (consoleOps keyboardInit clearAfterLetter) screenStart =
      .error (.outsideTextArea offset) := by
  have ops : consoleOps keyboardInit clearAfterLetter = [.print (textBytes "a"), .clear, .backspace] := rfl
  obtain ⟨s1, print, on1, _⟩ := printString_run (textBytes "a") onScreen_start fun both => scrolls_short (by decide) both.1
  obtain ⟨s2, clear, on2, first⟩ := clearScreen_run on1
  obtain ⟨⟨offset⟩, stops⟩ := printBackspace_stops on2 fun inside => absurd (first ▸ inside.1) (by decide)
  have run : runEach ScreenOp.perform (consoleOps keyboardInit clearAfterLetter) screenStart =
      .error (.outsideTextArea offset) := by
    rw [ops, runEach, run_bind (show ScreenOp.perform (.print (textBytes "a")) screenStart = .ok ((), s1) from print), runEach,
      run_bind (show ScreenOp.perform .clear s1 = .ok ((), s2) from clear), runEach]
    exact run_stop stops
  refine ⟨fun stays => ?_, offset, run⟩
  obtain ⟨s, finished, _⟩ := stays _ (List.prefix_refl _)
  rw [run] at finished
  cases finished

/-- `mouse_init` stores outside in every state. -/
theorem mouseInit_outside (s : Screen) : ∃ offset, mouseInit s = .error (.outsideTextArea offset) ∧ 4000 ≤ offset :=
  ⟨_, rfl, by decide⟩

end Delos.Guarantees
