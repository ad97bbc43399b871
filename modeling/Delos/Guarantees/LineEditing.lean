import Delos.Invariants.LineEditing

/-!
# Line editing

The driver edits a line as long as every key is on the key maps, no shortcut but the abort is
used in the middle of a line, and no line has 64 characters. A shortcut returns the code of the
backspace, so that `process_key` deletes a character; the 64th character takes the position back
to the start; and the prefix 0xE0 of an arrow key is the release of a key that no map has.
-/
namespace Delos.Guarantees
open Lib Source Invariants

/-- After each of the keys the driver shows the line of the editor, and it has handed over its lines. -/
def EditsLines (scanCodes : List UInt8) : Prop :=
  AlwaysShown processKey keyboardInit (fun typed k => k.buffPos < keyboardBuffSize ∧
    pendingLine k = (LineEditor.pressAll typed).line ∧ handedLines k.calls = (LineEditor.pressAll typed).submitted) scanCodes

/-- Each of the keys fits the line that it finds. -/
def AllKeysFit (scanCodes : List UInt8) : Prop :=
  AlwaysFits processKey keyboardInit (fun typed _ scanCode => KeyFits (LineEditor.pressAll typed) scanCode) scanCodes

theorem tracks_init : Tracks keyboardInit LineEditor.new := by
  constructor
  · rfl
  · rfl
  · rfl
  · rfl
  · decide
  · rfl
  · simp [LineEditor.new]

theorem pressAll_snoc (typed : List UInt8) (scanCode : UInt8) :
    LineEditor.pressAll (typed ++ [scanCode]) = (LineEditor.pressAll typed).press scanCode := by
  simp [LineEditor.pressAll]

theorem line_editing (scanCodes : List UInt8) : EditsLines scanCodes ↔ AllKeysFit scanCodes := by
  refine alwaysShown_iff (fun typed k => Tracks k (LineEditor.pressAll typed)) tracks_init ?_ ?_ ?_
  · exact fun typed k tracks => ⟨tracks.short, tracks.pending, tracks.handed⟩
  · intro typed k scanCode _ tracks fits
    obtain ⟨k', run, tracks'⟩ := key_follows tracks fits
    refine ⟨k', run, ?_⟩
    rw [pressAll_snoc]
    exact tracks'
  · intro typed k k' scanCode tracks unfit run shown
    refine key_fails tracks unfit run ?_
    rw [← pressAll_snoc]
    exact shown.2.1

/-- The letter `a`, and then CTRL+L: the screen is cleared and the letter deleted. -/
def clearInLine : List UInt8 := [0x1E, 0x9E, 0x1D, 0x26, 0xA6]

theorem line_editing_shortcut : ¬ EditsLines clearInLine ∧
    (∃ k, runEach processKey clearInLine keyboardInit = .ok ((), k) ∧ pendingLine k = []) ∧
    (LineEditor.pressAll clearInLine).line = textBytes "a" := by
  have run : ∃ k, runEach processKey clearInLine keyboardInit = .ok ((), k) ∧ pendingLine k = [] := ⟨_, rfl, rfl⟩
  have line : (LineEditor.pressAll clearInLine).line = textBytes "a" := by decide +kernel
  refine ⟨fun edits => ?_, run, line⟩
  obtain ⟨k, finished, empty⟩ := run
  obtain ⟨k', finished', _, pending, _⟩ := edits _ (List.prefix_refl _)
  obtain rfl : k = k' := by
    rw [finished] at finished'
    cases finished'
    rfl
  rw [empty, line] at pending
  exact absurd pending (by decide +kernel)

/-- The release of an arrow key is announced by 0xE0, which is taken for a key. -/
theorem line_editing_arrow : runEach processKey [0xE0, 0xCB] keyboardInit = .error .outsideKeyMap := rfl

end Delos.Guarantees
