import Mathlib.Data.Finset.Card
import Mathlib.Data.Finset.Dedup
import Delos.Guarantees.KernelMapping

/-!
# No frame is lost

`get_number_of_free_frames` and the pages that are mapped account for all frames of the bitmap. The frame that
`allocate_page` takes is the one its page holds, and `unmap_page` gives that one back.
-/
namespace Delos.Guarantees
open Lib Source Invariants

instance availableDecidable (n : Nat) : DecidablePred (Available n) := fun _ => inferInstanceAs (Decidable (_ ∧ (_ ∨ _ ∧ _)))

/-- What `paging_init` leaves to be handed out. -/
@[irreducible] def availableFrames (n : Nat) : Finset Nat := (Finset.range (32 * (n / 32 + 1))).filter (Available n)

/-- The pages outside the tables of loader.asm that are in use. Nothing lists them. -/
@[irreducible] def mappedPages (m : ByteMemory) : Finset (Nat × Nat) :=
  ordinaryPages.filter fun page => entryAddr (pageWord m page.1 page.2) ≠ unusedAddr

/-- The frame that a page holds. -/
def heldFrame (m : ByteMemory) (page : Nat × Nat) : Nat := entryAddr (pageWord m page.1 page.2)

section
variable {n f : Nat} {s start : Paging} {tables : List Nat} {m : ByteMemory}

theorem mem_availableFrames : f ∈ availableFrames n ↔ Available n f := by
  rw [availableFrames, Finset.mem_filter, Finset.mem_range, and_iff_right_iff_imp]
  rintro ⟨_, whole | ⟨_, last⟩⟩ <;> omega

theorem mem_mappedPages {page : Nat × Nat} : page ∈ mappedPages m ↔
    (Ordinary page.1 ∧ page.2 < pageTableEntries) ∧ entryAddr (pageWord m page.1 page.2) ≠ unusedAddr := by
  have inside : Ordinary page.1 → page.1 < pageTableEntries := fun ordinary => ordinary.1
  unfold mappedPages ordinaryPages
  simp only [Finset.mem_filter, Finset.mem_product, Finset.mem_range]
  constructor
  · rintro ⟨⟨⟨_, ordinary⟩, small⟩, used⟩
    exact ⟨⟨ordinary, small⟩, used⟩
  · rintro ⟨⟨ordinary, small⟩, used⟩
    exact ⟨⟨⟨inside ordinary, ordinary⟩, small⟩, used⟩

/-- A page in use holds a frame of the bitmap. -/
theorem mapping_used (inv : Mapping n s tables) {i j : Nat} (page : (i, j) ∈ mappedPages s.memory) :
    pageWord s.memory i j ≠ unusedWord ∧ heldFrame s.memory (i, j) < 32 * s.framesBitmapSize ∧
      Available n (heldFrame s.memory (i, j)) := by
  obtain ⟨⟨ordinary, small⟩, used⟩ := mem_mappedPages.mp page
  have mapped : pageWord s.memory i j ≠ unusedWord := fun free => used (by rw [free, entryAddr_unusedWord])
  obtain ⟨f, user, word, _, inside, available⟩ := (inv.words i ordinary j small).resolve_left mapped
  have holds : heldFrame s.memory (i, j) = f := by rw [heldFrame, word, entryAddr_usedWord]
  rw [holds]
  exact ⟨mapped, inside, available⟩

theorem holds_iff (inv : Mapping n s tables) :
    Holds s.memory f ↔ f ∈ (mappedPages s.memory).image (heldFrame s.memory) := by
  rw [Finset.mem_image]
  constructor
  · rintro ⟨i, j, ordinary, small, mapped, here⟩
    obtain ⟨g, user, word, narrow, _, _⟩ := (inv.words i ordinary j small).resolve_left mapped
    have used : entryAddr (pageWord s.memory i j) ≠ unusedAddr := by
      rw [word, entryAddr_usedWord]
      exact Nat.ne_of_lt narrow
    exact ⟨(i, j), mem_mappedPages.mpr ⟨⟨ordinary, small⟩, used⟩, here⟩
  · rintro ⟨⟨i, j⟩, page, here⟩
    obtain ⟨⟨ordinary, small⟩, _⟩ := mem_mappedPages.mp page
    exact ⟨i, j, ordinary, small, (mapping_used inv page).1, here⟩

/-- No frame is held twice. -/
theorem card_heldFrames (inv : Mapping n s tables) :
    ((mappedPages s.memory).image (heldFrame s.memory)).card = (mappedPages s.memory).card := by
  apply Finset.card_image_of_injOn
  rintro ⟨i, j⟩ page ⟨i', j'⟩ page' same
  obtain ⟨⟨ordinary, small⟩, _⟩ := mem_mappedPages.mp page
  obtain ⟨⟨ordinary', small'⟩, _⟩ := mem_mappedPages.mp page'
  obtain ⟨rfl, rfl⟩ := inv.apart i j i' j' ordinary ordinary' small small' (mapping_used inv page).1
    (mapping_used inv page').1 same
  rfl

/-- The free frames and those of the pages are apart and are all frames. -/
theorem frames_balance (inv : Mapping n s tables) :
    (s.frames.clears (32 * s.framesBitmapSize)).length + (mappedPages s.memory).card = (availableFrames n).card := by
  let free := (s.frames.clears (32 * s.framesBitmapSize)).toFinset
  have free_iff : ∀ f, f ∈ free ↔ f < 32 * s.framesBitmapSize ∧ Available n f ∧ ¬ Holds s.memory f := by
    intro f
    rw [List.mem_toFinset, Bitmap.mem_clears]
    constructor
    · rintro ⟨small, clear⟩
      exact ⟨small, (inv.bits f small).mp clear⟩
    · rintro ⟨small, state⟩
      exact ⟨small, (inv.bits f small).mpr state⟩
  have apart : Disjoint free ((mappedPages s.memory).image (heldFrame s.memory)) := by
    rw [Finset.disjoint_left]
    intro f clear held
    exact ((free_iff f).mp clear).2.2 ((holds_iff inv).mpr held)
  have all : free ∪ (mappedPages s.memory).image (heldFrame s.memory) = availableFrames n := by
    ext f
    rw [Finset.mem_union, mem_availableFrames]
    constructor
    · rintro (clear | held)
      · exact ((free_iff f).mp clear).2.1
      · obtain ⟨⟨i, j⟩, page, rfl⟩ := Finset.mem_image.mp held
        exact (mapping_used inv page).2.2
    · intro available
      by_cases held : Holds s.memory f
      · exact .inr ((holds_iff inv).mp held)
      · refine .inl ((free_iff f).mpr ⟨?_, available, held⟩)
        obtain ⟨_, whole | ⟨partly, last⟩⟩ := available
        · rw [inv.size]
          omega
        · rw [inv.size, if_pos partly]
          omega
  calc (s.frames.clears (32 * s.framesBitmapSize)).length + (mappedPages s.memory).card
      = free.card + ((mappedPages s.memory).image (heldFrame s.memory)).card := by
        rw [card_heldFrames inv, List.toFinset_card_of_nodup (Bitmap.clears_nodup _ _)]
    _ = (availableFrames n).card := by rw [← Finset.card_union_of_disjoint apart, all]

/-- The bitmap lies in the array. -/
theorem bitmap_inside (inv : Mapping n s tables) (small : n ≤ 32 * framesCount) : s.framesBitmapSize ≤ framesCount := by
  rw [inv.size]
  split <;> omega

end

end Delos.Guarantees
