import Delos.Lib.BlockCopy
import Delos.Source.Memory

/-!
# Blocks and strings of the address space

The loops of memory.cpp and `strcpy` copy cell by cell, upwards or downwards; each is a copy
in that order. `reverse` is known by what every offset holds in the end.
-/
namespace Delos.Invariants
open Source Lib

/-- The address of a cell. -/
def cell (a : Address) (i : Nat) : Address := a + UInt32.ofNat i

/-- The string and its terminator. -/
structure TextAt (m : Memory) (a : Address) (s : CString) : Prop where
  text : ∀ i, i < s.bytes.length → s.bytes[i]? = some (m (cell a i))
  terminator : m (cell a s.bytes.length) = 0

section
variable {m : Memory} {a b dest src str : Address} {i j n : Nat} {s : CString}

theorem cell_zero : cell a 0 = a := UInt32.add_zero a

theorem cell_succ : cell a (i + 1) = cell (a + 1) i := by
  unfold cell
  rw [UInt32.ofNat_add, UInt32.add_comm (UInt32.ofNat i), ← UInt32.add_assoc]
  rfl

theorem cell_next : cell a i + 1 = cell a (i + 1) := by
  unfold cell
  rw [UInt32.ofNat_add, ← UInt32.add_assoc]
  rfl

theorem cell_pred : cell a (i + 1) - 1 = cell a i := by
  rw [← cell_next, UInt32.add_sub_cancel]

theorem cell_toNat (inside : a.toNat + i < wordModulus) : (cell a i).toNat = a.toNat + i := by
  unfold cell wordModulus at *
  rw [UInt32.toNat_add, UInt32.toNat_ofNat']
  omega

theorem cell_ne (i_small : i < wordModulus) (j_small : j < wordModulus) (different : i ≠ j) : cell a i ≠ cell a j := fun same => by
  have words : UInt32.ofNat i = UInt32.ofNat j := (UInt32.add_right_inj a).mp same
  have numbers := congrArg UInt32.toNat words
  unfold wordModulus at *
  rw [UInt32.toNat_ofNat', UInt32.toNat_ofNat', Nat.mod_eq_of_lt i_small, Nat.mod_eq_of_lt j_small] at numbers
  exact different numbers

/-- Every address is a cell of the address space behind `a`. -/
theorem exists_cell (a b : Address) : ∃ i < wordModulus, b = cell a i := by
  refine ⟨(b - a).toNat, UInt32.toNat_lt _, ?_⟩
  unfold cell
  rw [UInt32.ofNat_toNat, UInt32.add_comm, UInt32.sub_add_cancel]

/-! ## Copies -/

theorem copyUp_order (n : Nat) (m : Memory) (dest src : Address) :
    Memory.copyUp n m dest src = copyInOrder (cell dest) (cell src) (List.range n) m := by
  induction n generalizing m dest src with
  | zero => rfl
  | succ n ih =>
    rw [Memory.copyUp, ih, List.range_succ_eq_map, copyInOrder, copyInOrder_map, cell_zero, cell_zero]
    simp only [Nat.succ_eq_add_one, cell_succ]

theorem copyDown_order (n : Nat) (m : Memory) (dest src : Address) :
    Memory.copyDown n m (cell dest n) (cell src n) = copyInOrder (cell dest) (cell src) (List.range n).reverse m := by
  induction n generalizing m with
  | zero => rfl
  | succ n ih =>
    rw [Memory.copyDown, cell_pred, cell_pred, ih, List.range_succ, List.reverse_append, List.reverse_singleton,
      List.singleton_append, copyInOrder]

theorem copyUp_copied (m : Memory) (untouched : ∀ i j, i < j → j < n → cell dest i ≠ cell dest j ∧ cell dest i ≠ cell src j) :
    CopiedFrom (cell dest) (cell src) (List.range n) m (Memory.copyUp n m dest src) := by
  rw [copyUp_order]
  refine copyInOrder_copied (List.pairwise_lt_range.imp_of_mem ?_)
  intro i j _ inside less
  exact untouched i j less (List.mem_range.mp inside)

theorem copyDown_copied (m : Memory) (untouched : ∀ i j, i < j → j < n → cell dest j ≠ cell dest i ∧ cell dest j ≠ cell src i) :
    CopiedFrom (cell dest) (cell src) (List.range n).reverse m (Memory.copyDown n m (cell dest n) (cell src n)) := by
  rw [copyDown_order]
  refine copyInOrder_copied (List.pairwise_reverse.mpr (List.pairwise_lt_range.imp_of_mem ?_))
  intro i j _ inside less
  exact untouched i j less (List.mem_range.mp inside)

/-! ## Strings -/

theorem TextAt.plain (stored : TextAt m a s) (inside : i < s.bytes.length) : m (cell a i) ≠ 0 := fun zero => by
  have found := List.mem_of_getElem? (stored.text i inside)
  rw [zero] at found
  exact s.plain found

/-- Behind the last address the string would come around to its first byte. -/
theorem TextAt.length_lt (stored : TextAt m a s) : s.bytes.length < wordModulus := by
  by_contra long
  obtain ⟨i, small, same⟩ := exists_cell a (cell a s.bytes.length)
  have nul := stored.terminator
  rw [same] at nul
  exact stored.plain (by omega) nul

/-- The loop is the copy of the string with its terminator, upwards. -/
theorem strcpyLoop_run {left : Nat} (enough : n < left) (plain : ∀ i < n, m (cell src i) ≠ 0) (terminator : m (cell src n) = 0)
    (untouched : ∀ i j, i < j → j ≤ n → cell dest i ≠ cell src j) :
    Memory.strcpyLoop left m dest src =
      some ((List.range (n + 1)).map (cell dest), cell dest (n + 1), Memory.copyUp (n + 1) m dest src) := by
  induction n generalizing left m dest src with
  | zero =>
    obtain ⟨left, rfl⟩ := Nat.exists_eq_add_one_of_ne_zero (Nat.ne_zero_of_lt enough)
    rw [cell_zero] at terminator
    simp [Memory.strcpyLoop, terminator, Memory.copyUp, cell_succ, cell_zero]
  | succ n ih =>
    obtain ⟨left, rfl⟩ := Nat.exists_eq_add_one_of_ne_zero (Nat.ne_zero_of_lt enough)
    have kept : ∀ i ≤ n, Function.update m dest (m src) (cell (src + 1) i) = m (cell src (i + 1)) := fun i small => by
      have other := untouched 0 (i + 1) (Nat.succ_pos i) (Nat.succ_le_succ small)
      rw [cell_zero] at other
      rw [← cell_succ, Function.update_of_ne other.symm]
    have first := plain 0 (Nat.succ_pos n)
    rw [cell_zero] at first
    have rest := ih (m := Function.update m dest (m src)) (Nat.lt_of_succ_lt_succ enough)
      (fun i small => by
        rw [kept i (Nat.le_of_lt small)]
        exact plain (i + 1) (Nat.succ_lt_succ small))
      (by rw [kept n (Nat.le_refl n), terminator])
      (show ∀ i j, i < j → j ≤ n → cell (dest + 1) i ≠ cell (src + 1) j from fun i j less small => by
        rw [← cell_succ, ← cell_succ]
        exact untouched (i + 1) (j + 1) (Nat.succ_lt_succ less) (Nat.succ_le_succ small))
    rw [Memory.strcpyLoop, if_pos first, rest, List.range_succ_eq_map (n := n + 1)]
    simp [Memory.copyUp, cell_succ, cell_zero]

theorem strlenLoop_run {left k : Nat} (enough : n < left) (plain : ∀ i < n, m (cell str (k + i)) ≠ 0)
    (terminator : m (cell str (k + n)) = 0) :
    Memory.strlenLoop m str left (UInt32.ofNat k) = some ((List.range' k (n + 1)).map UInt32.ofNat, UInt32.ofNat (k + n)) := by
  induction n generalizing left k with
  | zero =>
    obtain ⟨left, rfl⟩ := Nat.exists_eq_add_one_of_ne_zero (Nat.ne_zero_of_lt enough)
    have nul : m (str + UInt32.ofNat k) = 0 := terminator
    simp [Memory.strlenLoop, nul]
  | succ n ih =>
    obtain ⟨left, rfl⟩ := Nat.exists_eq_add_one_of_ne_zero (Nat.ne_zero_of_lt enough)
    have first : m (str + UInt32.ofNat k) ≠ 0 := plain 0 (Nat.succ_pos n)
    have place : ∀ i, k + 1 + i = k + (i + 1) := fun i => by omega
    have rest := ih (k := k + 1) (Nat.lt_of_succ_lt_succ enough)
      (fun i small => by
        rw [place]
        exact plain (i + 1) (Nat.succ_lt_succ small))
      (by rw [place, terminator])
    have next : UInt32.ofNat k + 1 = UInt32.ofNat (k + 1) := (UInt32.ofNat_add k 1).symm
    rw [Memory.strlenLoop, if_pos first, next, rest, place, List.range'_succ (n := n + 1)]
    rfl

theorem strlen_run (stored : TextAt m str s) :
    Memory.strlen m str = some ((List.range (s.bytes.length + 1)).map UInt32.ofNat, UInt32.ofNat s.bytes.length) := by
  have run := strlenLoop_run (k := 0) stored.length_lt
    (fun i inside => by
      rw [Nat.zero_add]
      exact stored.plain inside)
    (by rw [Nat.zero_add, stored.terminator])
  rw [Nat.zero_add, ← List.range_eq_range'] at run
  exact run

theorem swap_cells {i j k : Nat} (i_small : i < wordModulus) (j_small : j < wordModulus) (k_small : k < wordModulus) :
    Function.update (Function.update m (cell str i) (m (cell str j))) (cell str j) (m (cell str i)) (cell str k) =
      if k = j then m (cell str i) else if k = i then m (cell str j) else m (cell str k) := by
  by_cases second : k = j
  · rw [if_pos second, second, Function.update_self]
  rw [if_neg second, Function.update_of_ne (cell_ne k_small j_small second)]
  by_cases first : k = i
  · rw [if_pos first, first, Function.update_self]
  · rw [if_neg first, Function.update_of_ne (cell_ne k_small i_small first)]

/-- The cells from `start` to `last` the other way round. -/
theorem reverseLoop_run (m : Memory) (str : Address) {left start last : Nat} (enough : last < start + 2 * left) (start_small : start < wordModulus)
    (last_small : last < wordModulus) :
    ∃ used m', Memory.reverseLoop str (left + 1) m (UInt32.ofNat start) (UInt32.ofNat last) = some (used, m') ∧
      (∀ i ∈ used, i.toNat ≤ last) ∧ ∀ i < wordModulus, m' (cell str i) =
        if start ≤ i ∧ i ≤ last then m (cell str (start + last - i)) else m (cell str i) := by
  induction left generalizing m start last with
  | zero =>
    have stop : ¬ UInt32.ofNat start < UInt32.ofNat last := by
      rw [UInt32.lt_iff_toNat_lt, UInt32.toNat_ofNat_of_lt' start_small, UInt32.toNat_ofNat_of_lt' last_small]
      omega
    refine ⟨[], m, ?_, fun i none => absurd none List.not_mem_nil, fun i _ => (if_neg (by omega)).symm⟩
    rw [Memory.reverseLoop, if_neg stop]
  | succ left ih =>
    have start_number : (UInt32.ofNat start).toNat = start := UInt32.toNat_ofNat_of_lt' start_small
    have last_number : (UInt32.ofNat last).toNat = last := UInt32.toNat_ofNat_of_lt' last_small
    have compare : UInt32.ofNat start < UInt32.ofNat last ↔ start < last := by
      rw [UInt32.lt_iff_toNat_lt, start_number, last_number]
    by_cases more : start < last
    · obtain ⟨used, m', run, within, cells⟩ := ih
        (Function.update (Function.update m (cell str start) (m (cell str last))) (cell str last) (m (cell str start)))
        (show last - 1 < start + 1 + 2 * left by omega) (by omega) (by omega)
      have next : UInt32.ofNat start + 1 = UInt32.ofNat (start + 1) := (UInt32.ofNat_add start 1).symm
      have previous : UInt32.ofNat last - 1 = UInt32.ofNat (last - 1) := (UInt32.ofNat_sub (Nat.one_le_of_lt more)).symm
      refine ⟨UInt32.ofNat start :: UInt32.ofNat last :: used, m', ?_, ?_, ?_⟩
      · rw [Memory.reverseLoop, if_pos (compare.mpr more), next, previous]
        exact congrArg (Option.map _) run
      · intro i among
        rcases List.mem_cons.mp among with rfl | among
        · omega
        rcases List.mem_cons.mp among with rfl | among
        · omega
        · have inner := within i among
          omega
      · intro i small
        rw [cells i small]
        by_cases inner : start + 1 ≤ i ∧ i ≤ last - 1
        · have mirror : start + 1 + (last - 1) - i = start + last - i := by omega
          rw [if_pos inner, if_pos (by omega), mirror, swap_cells start_small last_small (by omega), if_neg (by omega), if_neg (by omega)]
        rw [if_neg inner, swap_cells start_small last_small small]
        by_cases second : i = last
        · rw [if_pos second, if_pos (by omega), second, Nat.add_sub_cancel]
        rw [if_neg second]
        by_cases first : i = start
        · rw [if_pos first, if_pos (by omega), first, Nat.add_sub_cancel_left]
        · rw [if_neg first, if_neg (by omega)]
    · refine ⟨[], m, ?_, fun i none => absurd none List.not_mem_nil, fun i _ => ?_⟩
      · rw [Memory.reverseLoop, if_neg (mt compare.mp more)]
      · by_cases middle : start ≤ i ∧ i ≤ last
        · have same : start + last - i = i := by omega
          rw [if_pos middle, same]
        · rw [if_neg middle]

end

end Delos.Invariants
