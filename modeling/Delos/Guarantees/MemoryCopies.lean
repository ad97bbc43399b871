import Delos.Invariants.MemoryBlocks

/-!
# memmove and strcpy

`memmove` copies downwards exactly when its destination starts inside the source, and so
never reads a byte that it has already replaced. `strcpy` copies the terminator with the string
and then stores another one behind it.
-/
namespace Delos.Guarantees
open Source Invariants Lib

section
variable {m : Memory} {dest src : Address} {i j n : Nat}

/-- A source that does not start below the destination, or ends there, is read ahead of the stores. -/
theorem upwards_untouched (source_fits : src.toNat + n ≤ wordModulus) (target_fits : dest.toNat + n ≤ wordModulus)
    (ahead : ¬ (src.toNat < dest.toNat ∧ dest.toNat < src.toNat + n)) (less : i < j) (inside : j < n) :
    cell dest i ≠ cell dest j ∧ cell dest i ≠ cell src j := by
  refine ⟨cell_ne (by omega) (by omega) (Nat.ne_of_lt less), fun same => ?_⟩
  have numbers := congrArg UInt32.toNat same
  rw [cell_toNat (by omega), cell_toNat (by omega)] at numbers
  omega

theorem downwards_untouched (source_fits : src.toNat + n ≤ wordModulus) (target_fits : dest.toNat + n ≤ wordModulus)
    (below : src.toNat < dest.toNat) (less : i < j) (inside : j < n) :
    cell dest j ≠ cell dest i ∧ cell dest j ≠ cell src i := by
  refine ⟨cell_ne (by omega) (by omega) (Nat.ne_of_gt less), fun same => ?_⟩
  have numbers := congrArg UInt32.toNat same
  rw [cell_toNat (by omega), cell_toNat (by omega)] at numbers
  omega

/-- The end of the source is zero when it is the end of the address space. -/
theorem direction (size : UInt32) (source_fits : src.toNat + size.toNat ≤ wordModulus)
    (target_fits : dest.toNat + size.toNat ≤ wordModulus) :
    src < dest ∧ dest < src + size ↔ src.toNat < dest.toNat ∧ dest.toNat < src.toNat + size.toNat := by
  rw [UInt32.lt_iff_toNat_lt, UInt32.lt_iff_toNat_lt, UInt32.toNat_add]
  unfold wordModulus at *
  omega

end

theorem memmove_moves (m : Memory) (dest src : Address) (size : UInt32) (source_fits : src.toNat + size.toNat ≤ wordModulus)
    (target_fits : dest.toNat + size.toNat ≤ wordModulus) :
    (∀ i < size.toNat, (Memory.memmove m dest src size).2 (cell dest i) = m (cell src i)) ∧
      ∀ a, (∀ i < size.toNat, a ≠ cell dest i) → (Memory.memmove m dest src size).2 a = m a := by
  unfold Memory.memmove
  by_cases null : src = 0 ∧ dest = 0
  · rw [if_pos null, null.1, null.2]
    exact ⟨fun _ _ => rfl, fun _ _ => rfl⟩
  rw [if_neg null]
  by_cases overlap : src < dest ∧ dest < src + size
  · have inside := (direction size source_fits target_fits).mp overlap
    have moved := copyDown_copied m fun _ _ => downwards_untouched source_fits target_fits inside.1
    have dest_end : cell dest size.toNat = dest + size := congrArg (dest + ·) UInt32.ofNat_toNat
    have src_end : cell src size.toNat = src + size := congrArg (src + ·) UInt32.ofNat_toNat
    rw [dest_end, src_end] at moved
    rw [if_pos overlap]
    constructor
    · intro i small
      exact moved.copied i (List.mem_reverse.mpr (List.mem_range.mpr small))
    · intro a outside
      exact moved.frame a fun i among => outside i (List.mem_range.mp (List.mem_reverse.mp among))
  · have ahead := mt (direction size source_fits target_fits).mpr overlap
    have moved := copyUp_copied m fun _ _ => upwards_untouched source_fits target_fits ahead
    rw [if_neg overlap]
    constructor
    · intro i small
      exact moved.copied i (List.mem_range.mpr small)
    · intro a outside
      exact moved.frame a fun i among => outside i (List.mem_range.mp among)

/-- Four bytes to the address of the second one. -/
theorem memmove_moves_overlapping :
    (∀ i < (4 : UInt32).toNat, (Memory.memmove (fun a => a.toUInt8) 0x1001 0x1000 4).2 (cell 0x1001 i) = (cell 0x1000 i).toUInt8) ∧
      ∀ a, (∀ i < (4 : UInt32).toNat, a ≠ cell 0x1001 i) → (Memory.memmove (fun a => a.toUInt8) 0x1001 0x1000 4).2 a = a.toUInt8 :=
  memmove_moves (fun a => a.toUInt8) 0x1001 0x1000 4 (by decide) (by decide)

/-! ## strcpy -/

/-- The string with its terminator, and nothing else. -/
structure WritesOnly (m m' : Memory) (dest : Address) (s : CString) : Prop where
  stored : TextAt m' dest s
  kept : ∀ a, (∀ i ≤ s.bytes.length, a ≠ cell dest i) → m' a = m a

theorem copyStores_range (k : Nat) (text : List UInt8) : copyStores k text = List.range' k (text.length + 1) := by
  induction text generalizing k with
  | nil => rfl
  | cons c rest ih =>
    rw [copyStores, ih, List.length_cons]
    exact List.range'_succ.symm

section
variable {m : Memory} {dest src : Address} {s : CString}

theorem strcpy_run (stored : TextAt m src s) (allocated : dest ≠ 0)
    (apart : ∀ i j, i ≤ s.bytes.length → j ≤ s.bytes.length → cell dest i ≠ cell src j) :
    Memory.strcpy m dest src = some (dest, (strcpyStores s).map (cell dest),
      Function.update (Memory.copyUp (s.bytes.length + 1) m dest src) (cell dest (s.bytes.length + 1)) 0) := by
  have run := strcpyLoop_run stored.length_lt (fun i inside => stored.plain inside) stored.terminator
    fun i j less small => apart i j (Nat.le_trans (Nat.le_of_lt less) small) small
  rw [Memory.strcpy, if_neg allocated, run, strcpyStores, copyStores_range, ← List.range_eq_range']
  simp

/-- The source has to be somewhere else. -/
theorem behind_terminator (apart : ∀ i j, i ≤ s.bytes.length → j ≤ s.bytes.length → cell dest i ≠ cell src j) :
    s.bytes.length + 1 < wordModulus := by
  by_contra long
  obtain ⟨i, small, same⟩ := exists_cell dest src
  exact apart i 0 (by omega) (Nat.zero_le _) (by rw [cell_zero, same])

theorem copy_of_text (stored : TextAt m src s)
    (apart : ∀ i j, i ≤ s.bytes.length → j ≤ s.bytes.length → cell dest i ≠ cell src j) :
    WritesOnly m (Memory.copyUp (s.bytes.length + 1) m dest src) dest s := by
  have room := behind_terminator apart
  have moved := copyUp_copied m (n := s.bytes.length + 1) fun i j less small =>
    (⟨cell_ne (by omega) (by omega) (Nat.ne_of_lt less), apart i j (by omega) (by omega)⟩ :
      cell dest i ≠ cell dest j ∧ cell dest i ≠ cell src j)
  constructor
  · constructor
    · intro i inside
      rw [moved.copied i (List.mem_range.mpr (Nat.lt_succ_of_lt inside))]
      exact stored.text i inside
    · rw [moved.copied _ (List.mem_range.mpr (Nat.lt_succ_self _))]
      exact stored.terminator
  · intro a outside
    exact moved.frame a fun i among => outside i (Nat.le_of_lt_succ (List.mem_range.mp among))

end

theorem strcpy_writes (m : Memory) (dest src : Address) (s : CString) (stored : TextAt m src s) (allocated : dest ≠ 0)
    (apart : ∀ i j, i ≤ s.bytes.length → j ≤ s.bytes.length → cell dest i ≠ cell src j) :
    ∃ m', Memory.strcpy m dest src = some (dest, (strcpyStores s).map (cell dest), m') ∧
      (WritesOnly m m' dest s ↔ m (cell dest (s.bytes.length + 1)) = 0) := by
  have room := behind_terminator apart
  have copy := copy_of_text stored apart
  have outside : ∀ i ≤ s.bytes.length, cell dest (s.bytes.length + 1) ≠ cell dest i := fun i small =>
    cell_ne room (by omega) (by omega)
  refine ⟨_, strcpy_run stored allocated apart, ?_⟩
  constructor
  · intro only
    rw [← only.kept _ outside, Function.update_self]
  · intro zero
    -- the second store changes nothing
    have same : Function.update (Memory.copyUp (s.bytes.length + 1) m dest src) (cell dest (s.bytes.length + 1)) 0 =
        Memory.copyUp (s.bytes.length + 1) m dest src := by
      rw [← zero, ← copy.kept _ outside, Function.update_eq_self]
    rw [same]
    exact copy

/-! A name of 15 characters at 0x1000 that is copied to the 16 bytes at 0x2000; the memory holds 1
everywhere else. -/

def fifteen : CString := ⟨textBytes "fifteen_letters", by decide⟩

def nameMemory (a : Address) : UInt8 :=
  if 0x1000 ≤ a ∧ a ≤ 0x100f then (fifteen.bytes[(a - 0x1000).toNat]?).getD 0 else 1

theorem fifteen_stored : TextAt nameMemory 0x1000 fifteen := ⟨by decide, by decide⟩

theorem fifteen_cells {a : Address} {i : Nat} (low : a.toNat ≤ 0x2010) (small : i ≤ fifteen.bytes.length) :
    (cell a i).toNat = a.toNat + i := by
  have length : fifteen.bytes.length = 15 := by decide
  refine cell_toNat ?_
  unfold wordModulus
  omega

theorem fifteen_apart : ∀ i j, i ≤ fifteen.bytes.length → j ≤ fifteen.bytes.length → cell 0x2000 i ≠ cell 0x1000 j := fun i j small small' same => by
  have length : fifteen.bytes.length = 15 := by decide
  have numbers := congrArg UInt32.toNat same
  rw [fifteen_cells (by decide) small, fifteen_cells (by decide) small'] at numbers
  have source : (0x1000 : UInt32).toNat = 0x1000 := rfl
  have target : (0x2000 : UInt32).toNat = 0x2000 := rfl
  omega

theorem strcpy_writes_fifteen : ∃ m', Memory.strcpy nameMemory 0x2000 0x1000 = some (0x2000, (strcpyStores fifteen).map (cell 0x2000), m') ∧
    (WritesOnly nameMemory m' 0x2000 fifteen ↔ nameMemory (cell 0x2000 (fifteen.bytes.length + 1)) = 0) :=
  strcpy_writes nameMemory 0x2000 0x1000 fifteen fifteen_stored (by decide) fifteen_apart

/-- The byte behind the 16 bytes is replaced. -/
theorem strcpy_overruns : TextAt nameMemory 0x1000 fifteen ∧ fifteen.bytes.length + 1 = fileNameLen ∧
    ∃ m', Memory.strcpy nameMemory 0x2000 0x1000 = some (0x2000, (strcpyStores fifteen).map (cell 0x2000), m') ∧
      nameMemory 0x2010 = 1 ∧ m' 0x2010 = 0 ∧ ¬ WritesOnly nameMemory m' 0x2000 fifteen := by
  have behind : nameMemory 0x2010 = 1 := by decide
  refine ⟨fifteen_stored, by decide, _, strcpy_run fifteen_stored (by decide) fifteen_apart, behind, Function.update_self _ _ _, ?_⟩
  intro only
  have kept := only.kept 0x2010 fun i small same => by
    have length : fifteen.bytes.length = 15 := by decide
    have numbers := congrArg UInt32.toNat same
    rw [fifteen_cells (by decide) small] at numbers
    have target : (0x2000 : UInt32).toNat = 0x2000 := rfl
    have next : (0x2010 : UInt32).toNat = 0x2010 := rfl
    omega
  rw [behind] at kept
  exact absurd ((Function.update_self (cell 0x2000 16) 0 _).symm.trans kept) (by decide)

end Delos.Guarantees
