import Delos.Invariants.Sheet

/-!
# The screen is a window on a sheet

Whatever is printed, typed, erased and cleared, and however the mouse moves, the characters on the screen are
those of 25 rows of one sheet, and the cursor of the VGA is the one on the sheet. Only the run that
stores outside the text area is left out.
-/
namespace Delos.Guarantees
open Lib Source Invariants

theorem window_start : Window screenStart screenStart.cursorCell Sheet.blank := by
  refine ⟨fun i _ => ?_, rfl, by decide, fun _ _ => rfl⟩
  simp [letters, screenStart, Sheet.blank]

theorem screen_sheet (steps : List ConsoleStep) :
    Meets (fun _ => True) (runEach ScreenOp.perform (consoleOps keyboardInit steps)) screenStart fun _ s =>
      ∃ t, SheetRun (consoleOps keyboardInit steps) Sheet.blank t ∧ t.cursor = 80 * t.top + s.cursorCell ∧
        ∀ i < maxRows * maxCols, s.video (2 * i) = t.text (80 * t.top + i) := by
  apply meets_mono (meets_sheetRun (fun _ => trivial) (consoleOps_valid steps keyboardInit) window_start)
  rintro _ s ⟨t, typed, window⟩
  exact ⟨t, typed, window.cursor, window.shown⟩

end Delos.Guarantees
