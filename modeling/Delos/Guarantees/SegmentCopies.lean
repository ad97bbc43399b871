import Delos.Invariants.SegmentPages

/-!
# The copy loop of a segment

`allocate_segment` maps the pages from the first to the last address of a segment, and copies one
page less than the image has, and then the remainder. There are always enough pages for that. A
segment without bytes in the image has no page to copy, and one less is the largest word.
-/
namespace Delos.Guarantees
open Source Invariants Lib

/-- The pages that are taken off the list: `pages_needed - 1` in the loop, and one behind it. -/
def pagesConsumed (filesz : Nat) : Nat := fullCopies filesz + 1

/-- The bound of the loop is a difference of numbers, every `list_get` has an element to return, and
the pages that are taken have been put there. -/
structure PagesSuffice (vaddr filesz : Nat) : Prop where
  bound : 1 ≤ pagesNeeded filesz
  listed : ∀ dir data lists s, Indexed lists →
    Listed (allocateSegment vaddr ((vaddr + filesz) % wordModulus) dir data filesz lists) s fun _ _ => True
  produced : ∀ dir lists s lists' s', Indexed lists →
    segmentTables dir vaddr ((vaddr + filesz) % wordModulus) ((vaddr + filesz) % wordModulus / 0x400000 + 1 - vaddr / 0x400000)
      (vaddr / 0x400000) { lists with dataPages := [] } s = .ok (lists', s') →
    pagesConsumed filesz ≤ lists'.dataPages.length

section
variable {vaddr filesz dir : Nat} {lists : SegmentLists} {s : Paging}

theorem pages_listed (below : vaddr + filesz < wordModulus) (indexed : Indexed lists) :
    Listed (segmentTables dir vaddr ((vaddr + filesz) % wordModulus) ((vaddr + filesz) % wordModulus / 0x400000 + 1 - vaddr / 0x400000)
      (vaddr / 0x400000) { lists with dataPages := [] }) s fun lists' _ =>
        Indexed lists' ∧ lists'.dataPages.length = (vaddr + filesz) / 0x1000 + 1 - vaddr / 0x1000 := by
  rw [Nat.mod_eq_of_lt below]
  refine meets_mono (segmentTables_listed _ indexed (Nat.le_refl _) (by omega)) fun lists' _ result => ⟨result.1, ?_⟩
  rw [result.2, List.length_nil]
  omega

theorem consumed_le (below : vaddr + filesz < wordModulus) (some : filesz ≠ 0) :
    1 ≤ pagesNeeded filesz ∧ pagesConsumed filesz ≤ (vaddr + filesz) / 0x1000 + 1 - vaddr / 0x1000 := by
  unfold pagesConsumed fullCopies pagesNeeded frameSize wordModulus at *
  split <;> omega

theorem allocateSegment_listed (data : List UInt8) (below : vaddr + filesz < wordModulus) (some : filesz ≠ 0) (indexed : Indexed lists) :
    Listed (allocateSegment vaddr ((vaddr + filesz) % wordModulus) dir data filesz lists) s fun lists' _ => Indexed lists' := by
  obtain ⟨_, enough⟩ := consumed_le below some
  unfold allocateSegment
  refine meets_call (pages_listed below indexed) fun lists' _ produced => ?_
  have loop : fullCopies filesz < lists'.dataPages.length := produced.2 ▸ enough
  generalize fullCopies filesz = copies at loop ⊢
  refine meets_call (copyPages_listed copies (Nat.le_of_lt loop)) fun r _ left => ?_
  have last : r.2 ≠ [] := List.length_pos_iff.mp (by omega)
  exact meets_call (copyPage_listed last) fun _ _ _ => meets_pure.mpr produced.1

theorem pagesSuffice_of_bytes (below : vaddr + filesz < wordModulus) (some : filesz ≠ 0) : PagesSuffice vaddr filesz := by
  obtain ⟨bound, enough⟩ := consumed_le below some
  refine ⟨bound, ?_, ?_⟩
  · intro dir data lists s indexed
    exact meets_mono (allocateSegment_listed data below some indexed) fun _ _ _ => trivial
  · intro dir lists s lists' s' indexed run
    rw [(meets_result (pages_listed below indexed) run).2]
    exact enough

/-- The lists that `load_elf_file` starts with have no index. -/
theorem loadSegments_listed {code : List UInt8} {ph eip : Nat} (left : Nat) (indexed : Indexed lists)
    (fits : ∀ k < left, (programHeader code (ph + 32 * k)).type = 1 → (programHeader code (ph + 32 * k)).filesz ≠ 0 ∧
      (programHeader code (ph + 32 * k)).vaddr + (programHeader code (ph + 32 * k)).filesz < wordModulus) :
    Listed (loadSegments code dir left ph eip lists) s fun _ _ => True := by
  induction left generalizing s ph eip lists with
  | zero => exact meets_pure.mpr trivial
  | succ left ih =>
    have later := fun k (small : k < left) => fits (k + 1) (Nat.succ_lt_succ small)
    have place : ∀ k, ph + 32 * (k + 1) = ph + 32 + 32 * k := fun k => by omega
    simp only [place] at later
    refine meets_call codeBytes_listed fun _ _ _ => ?_
    by_cases load : (programHeader code ph).type = 1
    · obtain ⟨some, below⟩ := fits 0 (Nat.succ_pos left) load
      simp only [if_pos load]
      exact meets_call codeBytes_listed fun _ _ _ =>
        meets_call (allocateSegment_listed _ below some indexed) fun _ _ still => ih still later
    · simp only [if_neg load]
      exact ih indexed later

/-- A program whose segments have bytes in the image is loaded without a NULL from a list. -/
theorem loadElfFile_listed (image : String → List UInt8) (filename : CString) (pcb : AddressSpace)
    (fits : ∀ program, getProgram filename = some program → ∀ k < ePhnum (image program),
      (programHeader (image program) (ePhoff (image program) + 32 * k)).type = 1 →
        (programHeader (image program) (ePhoff (image program) + 32 * k)).filesz ≠ 0 ∧
          (programHeader (image program) (ePhoff (image program) + 32 * k)).vaddr +
            (programHeader (image program) (ePhoff (image program) + 32 * k)).filesz < wordModulus) :
    Listed (loadElfFile image filename pcb) s fun _ _ => True := by
  unfold loadElfFile
  split
  · exact meets_pure.mpr trivial
  · rename_i program found
    by_cases invalid : validateElf (image program) = 1
    · simp only [if_pos invalid]
      exact meets_pure.mpr trivial
    · simp only [if_neg invalid]
      exact meets_call codeBytes_listed fun _ _ _ =>
        meets_call (loadSegments_listed _ (fun some => absurd rfl some) (fits program found)) fun _ _ _ => meets_pure.mpr trivial

end

theorem segment_pages_suffice (vaddr filesz : Nat) (below : vaddr + filesz < wordModulus) :
    PagesSuffice vaddr filesz ↔ filesz ≠ 0 := by
  constructor
  · rintro suffice rfl
    exact absurd suffice.bound (by decide)
  · exact pagesSuffice_of_bytes below

/-- The text segment of a small program. -/
theorem segment_pages_suffice_text : PagesSuffice 0x8048000 0x1234 ↔ 0x1234 ≠ 0 :=
  segment_pages_suffice 0x8048000 0x1234 (by decide)

/-- One page on the list, and 2^32 to be taken. -/
theorem segment_pages_bss : 0x8048000 + 0 < wordModulus ∧ pagesNeeded 0 = 0 ∧ pagesConsumed 0 = 2 ^ 32 ∧
    (∀ dir lists s lists' s', Indexed lists →
      segmentTables dir 0x8048000 0x8048000 (0x8048000 / 0x400000 + 1 - 0x8048000 / 0x400000) (0x8048000 / 0x400000)
        { lists with dataPages := [] } s = .ok (lists', s') → lists'.dataPages.length = 1) ∧ ¬ PagesSuffice 0x8048000 0 := by
  refine ⟨by decide, by decide, by decide, ?_, fun suffice => absurd suffice.bound (by decide)⟩
  intro dir lists s lists' s' indexed run
  exact (meets_result (pages_listed (show 0x8048000 + 0 < wordModulus by decide) indexed) run).2

end Delos.Guarantees
