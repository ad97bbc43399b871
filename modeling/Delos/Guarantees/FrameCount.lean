import Delos.Invariants.FrameBitmap

/-!
# The frames that are handed out

The mask of `paging_init` counts the bits of the last word from the top, `allocate_frame`
from the bottom. The frames handed out are those of the memory if its number of frames is
a multiple of 32, and no other number will do.
-/
namespace Delos.Guarantees
open Lib Source Invariants

/-- Repeated calls from `s` hand out these frames, each call takes one of the number that
`get_number_of_free_frames` returns, and the call behind the last one panics. -/
structure HandsOut (s : Paging) (frames : List Nat) : Prop where
  each : frames.Nodup
  calls : ∀ k ≤ frames.length, ∃ s', allocateFrames k s = .ok (frames.take k, s') ∧
    getNumberOfFreeFrames s' = .ok (frames.length - k, s')
  last : allocateFrames (frames.length + 1) s = .error .panic

/-- The bitmap describes the memory behind the first 2048 frames. -/
def DescribesMemory (start : Paging) (physicalMemSize kernelSize : Nat) : Prop :=
  ∃ s frames, initFrames physicalMemSize kernelSize start = .ok ((), s) ∧ HandsOut s frames ∧
    ∀ f, f ∈ frames ↔ 2048 ≤ f ∧ f < physicalFrames physicalMemSize kernelSize

section
variable {start s : Paging} {physicalMemSize kernelSize : Nat} {frames : List Nat}

/-- As long as the words of the bitmap are in the array, all reachable frames are handed out. -/
theorem handsOut_reachable (inside : s.framesBitmapSize ≤ framesCount) : HandsOut s (reachable s) := by
  refine ⟨Bitmap.clears_nodup _ _, fun k small => ?_, ?_⟩
  · obtain ⟨s', run, size, rest⟩ := allocateFrames_run small
    have number := getNumberOfFreeFrames_run (s := s') (by rwa [size])
    rw [reachable, Nat.min_eq_left (by rwa [size])] at rest
    rw [rest, List.length_drop] at number
    exact ⟨s', run, number⟩
  · have stop := allocateFrames_stop (Nat.lt_succ_self (reachable s).length)
    rwa [noFrame, if_pos inside] at stop

theorem handsOut_subset (out : HandsOut s frames) : ∀ f ∈ frames, f ∈ reachable s := by
  obtain ⟨s', run, _⟩ := out.calls frames.length (Nat.le_refl _)
  by_cases small : frames.length ≤ (reachable s).length
  · obtain ⟨_, run', _⟩ := allocateFrames_run small
    rw [List.take_length, run'] at run
    have same : (reachable s).take frames.length = frames := congrArg Prod.fst (Except.ok.inj run)
    intro f member
    rw [← same] at member
    exact List.take_subset _ _ member
  · have stop := allocateFrames_stop (s := s) (Nat.lt_of_not_le small)
    rw [stop] at run
    cases run

theorem frames_described (large : 2048 < physicalFrames physicalMemSize kernelSize) :
    DescribesMemory start physicalMemSize kernelSize ↔
      physicalFrames physicalMemSize kernelSize % 32 = 0 ∧
        physicalFrames physicalMemSize kernelSize ≤ 32 * framesCount := by
  constructor
  · rintro ⟨s, frames, init, out, exactly⟩
    have count : framesCount = 32769 := by decide
    have inside : physicalFrames physicalMemSize kernelSize % 32 = 0 ∨
        physicalFrames physicalMemSize kernelSize / 32 < framesCount := by
      by_contra outside
      rw [not_or, not_lt] at outside
      rw [initFrames_beyond start outside.1 outside.2] at init
      cases init
    obtain ⟨s', run, _, _, _, bits⟩ := initFrames_run start physicalMemSize kernelSize inside
    obtain rfl : s = s' := congrArg Prod.snd (Except.ok.inj (init.symm.trans run))
    generalize physicalFrames physicalMemSize kernelSize = n at *
    have handed : ∀ f, 2048 ≤ f → f < n → f < 32 * framesCount ∧ Available n f := fun f low small => by
      obtain ⟨reached, clear⟩ := Bitmap.mem_clears.mp (handsOut_subset out f ((exactly f).mpr ⟨low, small⟩))
      exact ⟨by omega, (bits f (by omega)).mp clear⟩
    constructor
    · -- the first frame of the last word is locked, or the second one is
      by_contra partly
      by_cases top : n % 32 = 31
      · obtain ⟨_, _, last⟩ := handed (n / 32 * 32 + 1) (by omega) (by omega)
        omega
      · obtain ⟨_, _, last⟩ := handed (n / 32 * 32) (by omega) (by omega)
        omega
    · by_contra wraps
      obtain ⟨less, _⟩ := handed (32 * framesCount) (by omega) (by omega)
      exact Nat.lt_irrefl _ less
  · rintro ⟨whole, inside⟩
    obtain ⟨s, init, _, _, size, bits⟩ := initFrames_run start physicalMemSize kernelSize (.inl whole)
    rw [if_neg (not_not.mpr whole), Nat.add_zero] at size
    have count : s.framesBitmapSize ≤ framesCount := by omega
    refine ⟨s, reachable s, init, handsOut_reachable count, fun f => ?_⟩
    have bound : 32 * min s.framesBitmapSize framesCount = physicalFrames physicalMemSize kernelSize := by
      rw [Nat.min_eq_left count, size]
      omega
    rw [reachable, Bitmap.mem_clears, bound]
    constructor
    · rintro ⟨small, clear⟩
      exact ⟨((bits f (by omega)).mp clear).1, small⟩
    · rintro ⟨low, small⟩
      exact ⟨small, (bits f (by omega)).mpr ⟨low, .inl (by omega)⟩⟩

end

/-- 9 MB of memory, none of which the kernel takes. -/
theorem frames_described_9MB : DescribesMemory ⟨fun _ => 0, 0, 0, ⟨0, 0⟩⟩ (9 * 1024 * 1024) 0 ↔
    physicalFrames (9 * 1024 * 1024) 0 % 32 = 0 ∧ physicalFrames (9 * 1024 * 1024) 0 ≤ 32 * framesCount :=
  frames_described (by decide +kernel)

/-- With one frame behind the first 2048 another one is handed out, which is not in the memory. -/
theorem frames_described_remainder : ¬ ∀ start physicalMemSize kernelSize,
    2048 < physicalFrames physicalMemSize kernelSize → DescribesMemory start physicalMemSize kernelSize := by
  intro claim
  obtain ⟨s, frames, init, out, exactly⟩ := claim ⟨fun _ => 0, 0, 0, ⟨0, 0⟩⟩ (2049 * frameSize) 0 (by decide +kernel)
  obtain ⟨s', run, _, _, _, bits⟩ := initFrames_run ⟨fun _ => 0, 0, 0, ⟨0, 0⟩⟩
    (2049 * frameSize) 0 (by decide +kernel)
  obtain rfl : s = s' := congrArg Prod.snd (Except.ok.inj (init.symm.trans run))
  obtain ⟨reached, clear⟩ := Bitmap.mem_clears.mp (handsOut_subset out 2048 ((exactly 2048).mpr (by decide +kernel)))
  obtain ⟨_, last⟩ := (bits 2048 (by omega)).mp clear
  revert last
  decide +kernel

end Delos.Guarantees
