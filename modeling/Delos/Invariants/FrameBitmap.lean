import Delos.Source.Paging

/-!
# Frames of the bitmap

`allocate_frame` takes the lowest clear bit and `get_number_of_free_frames` counts the
clear bits, as long as the words they look at are words of `frames`.
-/
namespace Delos.Invariants
open Lib Source

section
variable {s : Paging} {f i j k n : Nat}

theorem runIf_true {p : Prop} [Decidable p] {x : Mapper Unit} (holds : p) : runIf p x = x := if_pos holds

theorem runIf_false {p : Prop} [Decidable p] {x : Mapper Unit} (fails : ¬ p) : runIf p x s = .ok ((), s) := by
  rw [runIf, if_neg fails]
  rfl

theorem shift_and_one (word : BitVec 32) (j : Nat) : (word >>> j) &&& 1#32 = 0#32 ↔ word.getLsbD j = false := by
  have shifted : (word >>> j).getLsbD 0 = word.getLsbD j := by rw [BitVec.getLsbD_ushiftRight, Nat.add_zero]
  rw [BitVec.and_one_eq_setWidth_ofBool_getLsbD, shifted]
  cases word.getLsbD j <;> decide

theorem frameWord_run (small : i < framesCount) : frameWord i s = .ok (s.frames i, s) := by
  show (if i < framesCount then _ else _ : Mapper _) s = _
  rw [if_pos small]
  rfl

theorem frameWord_beyond (large : framesCount ≤ i) : frameWord i s = .error .wildFrame := by
  show (if i < framesCount then _ else _ : Mapper _) s = _
  rw [if_neg (by omega)]
  rfl

theorem setFrameWord_run (word : BitVec 32) (small : i < framesCount) :
    setFrameWord i word s = .ok ((), { s with frames := Function.update s.frames i word }) := by
  show (if i < framesCount then _ else _ : Mapper _) s = _
  rw [if_pos small]
  rfl

theorem frameSetState_occupied (small : f < 32 * framesCount) :
    frameSetState f 1 s = .ok ((), { s with frames := s.frames.setBit f }) := by
  have word : f / 32 < framesCount := by omega
  unfold frameSetState
  rw [run_bind (frameWord_run word), if_pos rfl]
  exact setFrameWord_run _ word

theorem frameSetState_free (small : f < 32 * framesCount) :
    frameSetState f 0 s = .ok ((), { s with frames := s.frames.clearBit f }) := by
  have word : f / 32 < framesCount := by omega
  unfold frameSetState
  rw [run_bind (frameWord_run word), if_neg (by decide), if_pos rfl]
  exact setFrameWord_run _ word

/-! ## Searching -/

theorem firstFreeBit_some (word : BitVec 32) (left : Nat) (from_ : j ≤ k) (small : k < j + left)
    (clear : word.getLsbD k = false) (below : ∀ g, j ≤ g → g < k → word.getLsbD g = true) :
    firstFreeBit word left j = some k := by
  induction left generalizing j with
  | zero => omega
  | succ left ih =>
    unfold firstFreeBit
    by_cases here : j = k
    · rw [if_pos ((shift_and_one word j).mpr (here ▸ clear)), here]
    · rw [if_neg fun free => by
        have set := below j (Nat.le_refl _) (by omega)
        rw [(shift_and_one word j).mp free] at set
        exact Bool.false_ne_true set]
      exact ih (by omega) (by omega) fun g low high => below g (by omega) high

/-- The search from a word on finds the lowest clear bit. -/
theorem allocateFrameLoop_lowest (left : Nat) (lowest : s.frames.Lowest f) (from_ : 32 * i ≤ f)
    (small : f < 32 * (i + left)) (inside : f < 32 * framesCount) :
    allocateFrameLoop left i s = .ok (f, { s with frames := s.frames.setBit f }) := by
  induction left generalizing i with
  | zero => omega
  | succ left ih =>
    unfold allocateFrameLoop
    rw [run_bind (frameWord_run (by omega))]
    by_cases here : f < 32 * (i + 1)
    · have place : f = 32 * i + (f - 32 * i) := by omega
      have clear : (s.frames i).getLsbD (f - 32 * i) = false := by
        rw [← Bitmap.bit_word s.frames (by omega), ← place]
        exact lowest.clear
      have open_ : s.frames i ≠ 0xFFFFFFFF#32 := fun full => by
        have set := (Bitmap.full_iff s.frames i).mp full (f - 32 * i) (by omega)
        rw [← place, lowest.clear] at set
        exact Bool.false_ne_true set
      have found := firstFreeBit_some (s.frames i) 32 (Nat.zero_le _) (by omega) clear fun g _ less => by
        rw [← Bitmap.bit_word s.frames (by omega)]
        exact lowest.below _ (by omega)
      have index : i * 32 + (f - 32 * i) = f := by omega
      rw [if_pos open_, found]
      dsimp only
      rw [index, run_bind (frameSetState_occupied inside)]
      rfl
    · have full : s.frames i = 0xFFFFFFFF#32 :=
        (Bitmap.full_iff s.frames i).mpr fun j small => lowest.below _ (by omega)
      rw [if_neg (not_not.mpr full)]
      exact ih (by omega) (by omega)

theorem allocateFrame_lowest (lowest : s.frames.Lowest f) (small : f < 32 * s.framesBitmapSize)
    (inside : f < 32 * framesCount) :
    allocateFrame s = .ok (f, { s with frames := s.frames.setBit f }) :=
  allocateFrameLoop_lowest s.framesBitmapSize lowest (Nat.zero_le _) (by omega) inside

/-- The search goes over words that are full. -/
theorem allocateFrameLoop_full (left : Nat) (full : ∀ f < 32 * (i + n), s.frames.bit f = true) (enough : n ≤ left)
    (inside : i + n ≤ framesCount) :
    allocateFrameLoop left i s = allocateFrameLoop (left - n) (i + n) s := by
  induction n generalizing left i with
  | zero => rfl
  | succ n ih =>
    obtain ⟨left, rfl⟩ : ∃ rest, left = rest + 1 := ⟨left - 1, by omega⟩
    have word : s.frames i = 0xFFFFFFFF#32 := (Bitmap.full_iff s.frames i).mpr fun j small => full _ (by omega)
    conv_lhs => unfold allocateFrameLoop
    rw [run_bind (frameWord_run (by omega)), if_neg (not_not.mpr word)]
    have rest := ih (i := i + 1) left (fun f less => full f (by omega)) (by omega) (by omega)
    rw [show i + (n + 1) = i + 1 + n by omega, show left + 1 - (n + 1) = left - n by omega]
    exact rest

theorem allocateFrame_full (full : ∀ f < 32 * s.framesBitmapSize, s.frames.bit f = true)
    (inside : s.framesBitmapSize ≤ framesCount) : allocateFrame s = .error .panic := by
  show allocateFrameLoop s.framesBitmapSize 0 s = _
  rw [allocateFrameLoop_full (n := s.framesBitmapSize) _ (by rwa [Nat.zero_add]) (Nat.le_refl _) (by omega),
    Nat.sub_self]
  rfl

/-- The words of `frames` are full, and the search goes on behind them. -/
theorem allocateFrame_beyond (full : ∀ f < 32 * framesCount, s.frames.bit f = true)
    (beyond : framesCount < s.framesBitmapSize) : allocateFrame s = .error .wildFrame := by
  show allocateFrameLoop s.framesBitmapSize 0 s = _
  obtain ⟨rest, size⟩ : ∃ rest, s.framesBitmapSize - framesCount = rest + 1 :=
    ⟨s.framesBitmapSize - framesCount - 1, by omega⟩
  rw [allocateFrameLoop_full (n := framesCount) _ (by rwa [Nat.zero_add]) (by omega) (by omega), size]
  unfold allocateFrameLoop
  exact run_stop (frameWord_beyond (by omega))

/-! ## Counting -/

theorem countFree_clears (s : Paging) (i left : Nat) (small : j + left ≤ 32) :
    countFree (s.frames i) left j =
      (((List.range left).map (32 * i + j + ·)).filter fun f => !s.frames.bit f).length := by
  induction left generalizing j with
  | zero => rfl
  | succ left ih =>
    have here : s.frames.bit (32 * i + j + 0) = (s.frames i).getLsbD j :=
      Bitmap.bit_word s.frames (by omega)
    have later : (List.range left).map ((32 * i + j + ·) ∘ Nat.succ) =
        (List.range left).map (32 * i + (j + 1) + ·) :=
      List.map_congr_left fun k _ => show 32 * i + j + (k + 1) = _ by omega
    unfold countFree
    rw [ih (by omega), List.range_succ_eq_map, List.map_cons, List.map_map, later,
      List.filter_cons, here]
    cases bit : (s.frames i).getLsbD j with
    | false =>
      rw [if_pos ((shift_and_one _ j).mpr bit)]
      simp [Nat.add_comm]
    | true =>
      rw [if_neg fun free => Bool.false_ne_true (((shift_and_one _ j).mp free).symm.trans bit)]
      simp

theorem countFreeLoop_run (left : Nat) (inside : i + left ≤ framesCount) :
    ∃ n, countFreeLoop left i s = .ok (n, s) ∧
      (s.frames.clears (32 * i)).length + n = (s.frames.clears (32 * (i + left))).length := by
  induction left generalizing i with
  | zero => exact ⟨0, rfl, rfl⟩
  | succ left ih =>
    obtain ⟨n, rest, total⟩ := ih (i := i + 1) (by omega)
    have word : (s.frames.clears (32 * (i + 1))).length = (s.frames.clears (32 * i)).length +
        (if s.frames i ≠ 0xFFFFFFFF#32 then countFree (s.frames i) 32 0 else 0) := by
      rw [Nat.mul_add_one, Bitmap.clears_add, List.length_append]
      congr 1
      by_cases full : s.frames i = 0xFFFFFFFF#32
      · rw [if_neg (not_not.mpr full)]
        apply List.length_eq_zero_iff.mpr
        apply List.filter_eq_nil_iff.mpr
        intro f member
        obtain ⟨j, small, rfl⟩ := List.mem_map.mp member
        rw [(Bitmap.full_iff s.frames i).mp full j (List.mem_range.mp small)]
        decide
      · rw [if_pos full, countFree_clears s i 32 (Nat.le_refl _), Nat.add_zero]
    refine ⟨(if s.frames i ≠ 0xFFFFFFFF#32 then countFree (s.frames i) 32 0 else 0) + n, ?_, ?_⟩
    · unfold countFreeLoop
      rw [run_bind (frameWord_run (by omega)), run_bind rest]
      rfl
    · rw [show i + (left + 1) = i + 1 + left by omega, ← total, word, Nat.add_assoc]

theorem getNumberOfFreeFrames_run (inside : s.framesBitmapSize ≤ framesCount) :
    getNumberOfFreeFrames s = .ok ((s.frames.clears (32 * s.framesBitmapSize)).length, s) := by
  obtain ⟨n, run, total⟩ := countFreeLoop_run (s := s) (i := 0) s.framesBitmapSize (by omega)
  rw [Nat.zero_add, Nat.mul_zero] at total
  have whole : n = (s.frames.clears (32 * s.framesBitmapSize)).length := by
    rw [← total]
    simp [Bitmap.clears]
  rw [← whole]
  exact run

/-! ## Taking all frames -/

/-- Calls of `allocate_frame` one after the other. -/
def allocateFrames : Nat → Mapper (List Nat)
  | 0 => pure []
  | n + 1 => do
    let f ← allocateFrame
    let rest ← allocateFrames n
    pure (f :: rest)

/-- The clear bits that the search can reach. -/
def reachable (s : Paging) : List Nat := s.frames.clears (32 * min s.framesBitmapSize framesCount)

theorem allocateFrame_reachable {rest : List Nat} (next : reachable s = f :: rest) :
    allocateFrame s = .ok (f, { s with frames := s.frames.setBit f }) ∧
      reachable { s with frames := s.frames.setBit f } = rest := by
  have member : f ∈ reachable s := by rw [next]; exact List.mem_cons_self
  obtain ⟨small, clear⟩ := Bitmap.mem_clears.mp member
  obtain ⟨g, low, lowest⟩ := Bitmap.exists_lowest clear
  have head := Bitmap.clears_lowest (by decide) lowest (show g < 32 * min s.framesBitmapSize framesCount by omega)
  have both := next.symm.trans head
  obtain rfl : f = g := (List.cons.inj both).1
  exact ⟨allocateFrame_lowest lowest (by omega) (by omega), (List.cons.inj both).2.symm⟩

theorem allocateFrames_run (small : k ≤ (reachable s).length) :
    ∃ s', allocateFrames k s = .ok ((reachable s).take k, s') ∧ s'.framesBitmapSize = s.framesBitmapSize ∧
      reachable s' = (reachable s).drop k := by
  induction k generalizing s with
  | zero => exact ⟨s, rfl, rfl, rfl⟩
  | succ k ih =>
    cases next : reachable s with
    | nil =>
      rw [next] at small
      exact absurd small (Nat.not_succ_le_zero k)
    | cons f rest =>
      obtain ⟨take, left⟩ := allocateFrame_reachable next
      rw [next, List.length_cons, ← left] at small
      obtain ⟨s', run, size, frames⟩ := ih (Nat.le_of_succ_le_succ small)
      rw [left] at run frames
      refine ⟨s', ?_, size, frames⟩
      unfold allocateFrames
      rw [run_bind take, run_bind run]
      rfl

/-- What `allocate_frame` stops for when there is no frame. -/
def noFrame (s : Paging) : MapFault := if s.framesBitmapSize ≤ framesCount then .panic else .wildFrame

/-- Behind the last frame the calls stop. -/
theorem allocateFrame_none (none : reachable s = []) : allocateFrame s = .error (noFrame s) := by
  unfold noFrame
  have full := (Bitmap.clears_nil _ _).mp none
  by_cases inside : s.framesBitmapSize ≤ framesCount
  · rw [if_pos inside]
    exact allocateFrame_full (fun f small => full f (by rwa [Nat.min_eq_left inside])) inside
  · rw [if_neg inside]
    exact allocateFrame_beyond (fun f small => full f (by rwa [Nat.min_eq_right (by omega)])) (by omega)

theorem allocateFrames_stop (large : (reachable s).length < k) :
    allocateFrames k s = .error (noFrame s) := by
  induction k generalizing s with
  | zero => exact absurd large (Nat.not_lt_zero _)
  | succ k ih =>
    unfold allocateFrames
    cases next : reachable s with
    | nil => exact run_stop (allocateFrame_none next)
    | cons f rest =>
      obtain ⟨take, left⟩ := allocateFrame_reachable next
      rw [next, List.length_cons, ← left] at large
      rw [run_bind take]
      exact run_stop (ih (Nat.lt_of_succ_lt_succ large))

/-! ## The bitmap at the start -/

theorem lockLoop_run (left : Nat) (inside : i + left ≤ framesCount) :
    ∃ frames, lockLoop left i s = .ok ((), { s with frames := frames }) ∧
      ∀ k, frames k = if i ≤ k ∧ k < i + left then 0xFFFFFFFF#32 else s.frames k := by
  induction left generalizing s i with
  | zero => exact ⟨s.frames, rfl, fun k => by rw [if_neg (by omega)]⟩
  | succ left ih =>
    obtain ⟨frames, run, words⟩ := ih (i := i + 1)
      (s := { s with frames := Function.update s.frames i 0xFFFFFFFF#32 }) (by omega)
    refine ⟨frames, ?_, fun k => ?_⟩
    · unfold lockLoop
      rw [run_bind (setFrameWord_run _ (by omega))]
      exact run
    · rw [words k]
      by_cases here : k = i
      · rw [if_neg (by omega), if_pos (by omega), here]
        exact Function.update_self ..
      · by_cases later : i + 1 ≤ k ∧ k < i + 1 + left
        · rw [if_pos later, if_pos (by omega)]
        · rw [if_neg later, if_neg (by omega)]
          exact Function.update_of_ne here _ _

/-- The frames that `paging_init` leaves to be handed out: in the last word the bit that the
mask leaves clear is counted from the other end. -/
def Available (frames f : Nat) : Prop :=
  2048 ≤ f ∧ (f / 32 < frames / 32 ∨ (frames % 32 ≠ 0 ∧ f = frames / 32 * 32 + (31 - frames % 32)))

theorem full_bit (small : j < 32) : (0xFFFFFFFF#32).getLsbD j = true := by
  rw [show 0xFFFFFFFF#32 = BitVec.allOnes 32 from rfl, BitVec.getLsbD_allOnes, decide_eq_true small]

theorem remainder_bit (r : Nat) (small : j < 32) :
    (0#32 ||| ~~~(1#32 <<< (31 - r))).getLsbD j = !decide (31 - r = j) := by
  rw [BitVec.getLsbD_or, BitVec.getLsbD_not, Bitmap.getLsbD_one_shiftLeft small]
  simp [small]

end

/-! ## After the bitmap is set up -/

section
variable {physicalMemSize kernelSize : Nat}

theorem initFrames_run (start : Paging) (physicalMemSize kernelSize : Nat) (inside : physicalFrames physicalMemSize kernelSize % 32 = 0 ∨
      physicalFrames physicalMemSize kernelSize / 32 < framesCount) :
    ∃ s, initFrames physicalMemSize kernelSize start = .ok ((), s) ∧
      s.lastPageTableAddr = start.lastPageTableAddr ∧ s.memory = start.memory ∧
      s.framesBitmapSize = physicalFrames physicalMemSize kernelSize / 32 +
        (if physicalFrames physicalMemSize kernelSize % 32 ≠ 0 then 1 else 0) ∧
      ∀ f, f < 32 * s.framesBitmapSize →
        (s.frames.bit f = false ↔ Available (physicalFrames physicalMemSize kernelSize) f) := by
  have words : 2 * (0x400000 / (frameSize * 32)) = 64 := by decide
  have count : framesCount = 32769 := by decide
  unfold initFrames
  generalize physicalFrames physicalMemSize kernelSize = n at *
  rw [words, run_bind (run_modify _ _)]
  by_cases whole : n % 32 = 0
  · obtain ⟨frames, run, locked⟩ := lockLoop_run (i := 0)
      (s := { start with frames := fun _ => 0#32, framesBitmapSize := n / 32 }) 64 (by omega)
    rw [run_bind (runIf_false (not_not.mpr whole))]
    refine ⟨_, run, rfl, rfl, (if_neg (not_not.mpr whole)).symm ▸ rfl, fun f small => ?_⟩
    have inWord : f / 32 < n / 32 := Nat.div_lt_of_lt_mul small
    show ((frames (f / 32)).getLsbD (f % 32) = false) ↔ _
    rw [locked]
    unfold Available
    by_cases low : f / 32 < 64
    · rw [if_pos ⟨Nat.zero_le _, by omega⟩, full_bit (Nat.mod_lt f (by decide))]
      simp only [Bool.true_eq_false, false_iff, not_and]
      omega
    · rw [if_neg (by omega), BitVec.getLsbD_zero]
      simp only [true_iff]
      omega
  · have room : n / 32 < framesCount := inside.resolve_left whole
    obtain ⟨frames, run, locked⟩ := lockLoop_run (i := 0)
      (s := { start with frames := (Function.update (fun _ => 0#32) (n / 32)
        (0#32 ||| ~~~(1#32 <<< (31 - n % 32)))), framesBitmapSize := n / 32 + 1 }) 64 (by omega)
    have remainder : lockRemainder n { start with frames := fun _ => 0#32, framesBitmapSize := n / 32 } =
        .ok ((), { start with frames := (Function.update (fun _ => 0#32) (n / 32)
          (0#32 ||| ~~~(1#32 <<< (31 - n % 32)))), framesBitmapSize := n / 32 + 1 }) := by
      unfold lockRemainder
      rw [run_bind (run_modify _ _), run_bind (frameWord_run room)]
      exact setFrameWord_run _ room
    rw [runIf_true whole, run_bind remainder]
    refine ⟨_, run, rfl, rfl, (if_pos whole).symm ▸ rfl, fun f small => ?_⟩
    have inWord : f / 32 < n / 32 + 1 := Nat.div_lt_of_lt_mul small
    have place := Nat.mod_lt f (show 0 < 32 by decide)
    show ((frames (f / 32)).getLsbD (f % 32) = false) ↔ _
    rw [locked]
    unfold Available
    by_cases low : f / 32 < 64
    · rw [if_pos ⟨Nat.zero_le _, by omega⟩, full_bit place]
      simp only [Bool.true_eq_false, false_iff, not_and]
      omega
    · rw [if_neg (by omega)]
      dsimp only
      by_cases last : f / 32 = n / 32
      · rw [last, Function.update_self, remainder_bit _ place]
        simp only [Bool.not_eq_false', decide_eq_true_eq]
        omega
      · rw [Function.update_of_ne last, BitVec.getLsbD_zero]
        simp only [true_iff]
        omega

/-- A last word that is partly used is written behind the end of the array. -/
theorem initFrames_beyond (start : Paging) (partly : physicalFrames physicalMemSize kernelSize % 32 ≠ 0)
    (beyond : framesCount ≤ physicalFrames physicalMemSize kernelSize / 32) :
    initFrames physicalMemSize kernelSize start = .error .wildFrame := by
  unfold initFrames
  generalize physicalFrames physicalMemSize kernelSize = n at *
  rw [run_bind (run_modify _ _), runIf_true partly]
  apply run_stop
  unfold lockRemainder
  rw [run_bind (run_modify _ _)]
  exact run_stop (frameWord_beyond beyond)

end

end Delos.Invariants
