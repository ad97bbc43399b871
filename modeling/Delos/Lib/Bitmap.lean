import Mathlib.Data.List.Range
import Mathlib.Logic.Function.Basic

/-!
# Bitmaps in words

A bitmap is a sequence of words; bit `f` is in word `f / w`, the lowest bit first. Setting
and clearing update one word. The clear bits below a bound are a list, and taking the
lowest one takes the head of that list.
-/
namespace Delos.Lib

abbrev Bitmap (w : Nat) := Nat → BitVec w

namespace Bitmap

variable {w : Nat}

def bit (b : Bitmap w) (f : Nat) : Bool := (b (f / w)).getLsbD (f % w)

def setBit (b : Bitmap w) (f : Nat) : Bitmap w :=
  Function.update b (f / w) (b (f / w) ||| 1#w <<< (f % w))

def clearBit (b : Bitmap w) (f : Nat) : Bitmap w :=
  Function.update b (f / w) (b (f / w) &&& ~~~(1#w <<< (f % w)))

/-- The clear bits below the bound in ascending order. -/
def clears (b : Bitmap w) (n : Nat) : List Nat := (List.range n).filter fun f => !b.bit f

/-- The lowest clear bit. -/
structure Lowest (b : Bitmap w) (f : Nat) : Prop where
  clear : b.bit f = false
  below : ∀ g < f, b.bit g = true

section
variable {b : Bitmap w} {f g i j n : Nat}

theorem bit_word (b : Bitmap w) (small : j < w) : b.bit (w * i + j) = (b i).getLsbD j := by
  rw [bit, Nat.mul_add_div (by omega), Nat.div_eq_of_lt small, Nat.add_zero, Nat.mul_add_mod,
    Nat.mod_eq_of_lt small]

/-- Two indices in one word are the same when their places in it are. -/
theorem place_eq_iff (word : f / w = g / w) : f % w = g % w ↔ f = g := by
  constructor
  · intro place
    rw [← Nat.div_add_mod f w, ← Nat.div_add_mod g w, word, place]
  · intro same
    rw [same]

theorem getLsbD_one_shiftLeft (small : j < w) : (1#w <<< i).getLsbD j = decide (i = j) := by
  have positive : 0 < w := by omega
  by_cases same : i = j
  · subst same
    simp [BitVec.getLsbD_shiftLeft, small, positive]
  · simp only [BitVec.getLsbD_shiftLeft, small, decide_true, Bool.true_and, BitVec.getLsbD_one, same,
      decide_false, Bool.and_eq_false_imp, Bool.not_eq_true', decide_eq_false_iff_not]
    intro above
    have : ¬ j - i = 0 := by omega
    simp [this]

theorem bit_setBit (positive : 0 < w) (b : Bitmap w) (f g : Nat) :
    (b.setBit f).bit g = (decide (f = g) || b.bit g) := by
  unfold setBit bit
  have place := Nat.mod_lt g positive
  by_cases word : f / w = g / w
  · rw [word, Function.update_self, BitVec.getLsbD_or, getLsbD_one_shiftLeft place, Bool.or_comm,
      decide_eq_decide.mpr (place_eq_iff word)]
  · have different : f ≠ g := fun same => word (by rw [same])
    rw [Function.update_of_ne (Ne.symm word), decide_eq_false different, Bool.false_or]

theorem bit_clearBit (positive : 0 < w) (b : Bitmap w) (f g : Nat) :
    (b.clearBit f).bit g = (!decide (f = g) && b.bit g) := by
  unfold clearBit bit
  have place := Nat.mod_lt g positive
  by_cases word : f / w = g / w
  · rw [word, Function.update_self, BitVec.getLsbD_and, BitVec.getLsbD_not, getLsbD_one_shiftLeft place,
      Bool.and_comm, decide_eq_true place, Bool.true_and, decide_eq_decide.mpr (place_eq_iff word)]
  · have different : f ≠ g := fun same => word (by rw [same])
    rw [Function.update_of_ne (Ne.symm word), decide_eq_false different, Bool.not_false, Bool.true_and]

/-- Bitmaps with the same bits are the same. -/
theorem bit_ext {b b' : Bitmap w} (same : ∀ f, b.bit f = b'.bit f) : b = b' := by
  funext i
  apply BitVec.eq_of_getLsbD_eq
  intro j small
  rw [← bit_word b small, ← bit_word b' small]
  exact same _

theorem clearBit_setBit (positive : 0 < w) (clear : b.bit f = false) : (b.setBit f).clearBit f = b := by
  apply bit_ext
  intro g
  rw [bit_clearBit positive, bit_setBit positive]
  by_cases same : f = g
  · rw [← same, clear]
    simp
  · simp [same]

/-- A word is full when none of its bits is clear. -/
theorem full_iff (b : Bitmap w) (i : Nat) :
    b i = BitVec.allOnes w ↔ ∀ j < w, b.bit (w * i + j) = true := by
  constructor
  · intro full j small
    rw [bit_word b small, full, BitVec.getLsbD_allOnes, decide_eq_true small]
  · intro set
    apply BitVec.eq_of_getLsbD_eq
    intro j small
    rw [← bit_word b small, set j small, BitVec.getLsbD_allOnes, decide_eq_true small]

/-! ## The clear bits -/

theorem mem_clears : f ∈ b.clears n ↔ f < n ∧ b.bit f = false := by
  simp [clears]

theorem clears_nodup (b : Bitmap w) (n : Nat) : (b.clears n).Nodup := List.nodup_range.filter _

theorem clears_add (b : Bitmap w) (n k : Nat) :
    b.clears (n + k) = b.clears n ++ ((List.range k).map (n + ·)).filter fun f => !b.bit f := by
  rw [clears, List.range_add, List.filter_append, clears]

/-- The lowest clear bit is the head. -/
theorem clears_lowest (positive : 0 < w) (lowest : b.Lowest f) (small : f < n) :
    b.clears n = f :: (b.setBit f).clears n := by
  obtain ⟨rest, rfl⟩ : ∃ rest, n = f + (1 + rest) := ⟨n - f - 1, by omega⟩
  have none : ∀ b' : Bitmap w, (∀ g < f, b'.bit g = true) → b'.clears f = [] := fun b' set => by
    apply List.filter_eq_nil_iff.mpr
    intro g member
    rw [set g (List.mem_range.mp member)]
    decide
  have same : ∀ g < rest, (b.setBit f).bit (f + (g + 1)) = b.bit (f + (g + 1)) := fun g _ => by
    rw [bit_setBit positive, decide_eq_false (by omega), Bool.false_or]
  have here : (b.setBit f).bit f = true := by
    rw [bit_setBit positive]
    simp
  rw [clears_add, clears_add, none b lowest.below, none _ fun g less => by
    rw [bit_setBit positive, lowest.below g less, Bool.or_true]]
  rw [Nat.add_comm 1 rest, List.range_succ_eq_map]
  simp only [List.nil_append, List.map_cons, Nat.add_zero, List.map_map, List.filter_cons, lowest.clear, here,
    Bool.not_false, Bool.not_true, if_true, Bool.false_eq_true, if_false]
  congr 1
  apply List.filter_congr
  intro g member
  obtain ⟨k, inside, rfl⟩ := List.mem_map.mp member
  exact congrArg _ (same k (List.mem_range.mp inside)).symm

theorem clears_nil (b : Bitmap w) (n : Nat) : b.clears n = [] ↔ ∀ f < n, b.bit f = true := by
  simp [clears, List.filter_eq_nil_iff]

/-- There is a lowest clear bit as soon as there is one. -/
theorem exists_lowest (clear : b.bit f = false) : ∃ g ≤ f, b.Lowest g := by
  induction f using Nat.strong_induction_on with
  | _ f ih =>
    by_cases below : ∀ g < f, b.bit g = true
    · exact ⟨f, Nat.le_refl _, clear, below⟩
    · push Not at below
      obtain ⟨g, less, here⟩ := below
      obtain ⟨h, low, lowest⟩ := ih g less (by simpa using here)
      exact ⟨h, by omega, lowest⟩

end

end Bitmap

end Delos.Lib
