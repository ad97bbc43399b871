import Delos.Invariants.NumberText

/-!
# Signed numbers

`itoa` has a table for negative digits and appends a sign, but the base is a `uint32_t`: the
division makes the number unsigned, so that neither is ever used. The canonical text of a number is
stored for every number that is not negative, and for no other.
-/
namespace Delos.Guarantees
open Source Invariants

/-- The sign, and the numeral of the absolute value. -/
def canonicalText (base : Nat) (num : Int) : List UInt8 :=
  if num < 0 then UInt8.ofNat '-'.toNat :: numeral base num.natAbs else numeral base num.natAbs

theorem numeral_head {base n : Nat} (valid : 2 ≤ base) (small : base ≤ 36) : (numeral base n)[0]? ≠ some (UInt8.ofNat '-'.toNat) := by
  have noSign : ∀ d < 36, digitChar d ≠ UInt8.ofNat '-'.toNat := by decide +kernel
  induction n using Nat.strongRecOn with
  | ind n ih =>
    rw [numeral_step valid]
    by_cases final : n / base = 0
    · rw [if_pos final]
      have digit := noSign (n % base) (Nat.lt_of_lt_of_le (Nat.mod_lt n (by omega)) small)
      simpa using digit
    · have less : n / base < n := Nat.div_lt_self (Nat.pos_of_ne_zero fun zero => final (by simp [zero])) (by omega)
      have some : 0 < (numeral base (n / base)).length := by
        rw [numeral_step valid]
        simp
      rw [if_neg final, List.getElem?_append_left some]
      exact ih _ less

section
variable {str : Chars} {num : Int32} {base : Nat}

theorem word_of_positive (positive : 0 ≤ num.toInt) : num.toInt.natAbs = num.toUInt32.toNat := by
  have value : num.toInt = num.toBitVec.toInt := rfl
  have word : num.toUInt32.toNat = num.toBitVec.toNat := rfl
  rw [value, BitVec.toInt_eq_toNat_cond] at positive ⊢
  rw [word]
  split at positive <;> omega

/-- No digit is a sign. -/
theorem not_canonical (valid : 2 ≤ base) (small : base ≤ 36) (negative : num.toInt < 0)
    (stored : HoldsText str (numeral base num.toUInt32.toNat)) : ¬ HoldsText str (canonicalText base num.toInt) := fun canonical => by
  rw [canonicalText, if_pos negative] at canonical
  have sign := canonical.1 0 (Nat.succ_pos _)
  have digit := stored.1 0 (by rw [numeral_step valid]; simp)
  refine numeral_head (n := num.toUInt32.toNat) valid small ?_
  rw [digit, ← sign, List.getElem?_cons_zero]

end

theorem itoa_signed (str : Chars) (num : Int32) (base : UInt32) (valid : 2 ≤ base.toNat) (small : base.toNat ≤ 36) :
    ∃ str', itoa str num base = some str' ∧ (HoldsText str' (canonicalText base.toNat num.toInt) ↔ 0 ≤ num.toInt) := by
  obtain ⟨str', run, stored⟩ := itoa_run valid small str num
  refine ⟨str', run, ?_⟩
  constructor
  · intro canonical
    by_contra negative
    exact not_canonical valid small (Int.not_le.mp negative) stored canonical
  · intro positive
    rw [canonicalText, if_neg (Int.not_lt.mpr positive), word_of_positive positive]
    exact stored

theorem itoa_signed_seven : ∃ str', itoa (fun _ => 0) 42 10 = some str' ∧ (HoldsText str' (canonicalText 10 42) ↔ 0 ≤ (42 : Int)) :=
  itoa_signed (fun _ => 0) 42 10 (by decide) (by decide)

/-- -1 in decimal. -/
theorem itoa_signed_minus : ∃ str', itoa (fun _ => 0) (-1) 10 = some str' ∧ HoldsText str' (textBytes "4294967295") ∧
    canonicalText 10 (-1) = textBytes "-1" ∧ ¬ HoldsText str' (canonicalText 10 (-1)) := by
  obtain ⟨str', run, stored⟩ := itoa_run (show 2 ≤ (10 : UInt32).toNat by decide) (by decide) (fun _ => 0) (-1)
  have text : numeral 10 4294967295 = textBytes "4294967295" := (itoaDec_numeral 4294967295).symm.trans (by decide +kernel)
  have one : numeral 10 1 = textBytes "1" := (itoaDec_numeral 1).symm.trans (by decide +kernel)
  refine ⟨str', run, text ▸ stored, ?_, ?_⟩
  · have absolute : (-1 : Int).natAbs = 1 := rfl
    rw [canonicalText, if_pos (by decide), absolute, one]
    decide +kernel
  · exact not_canonical (by decide) (by decide) (by decide) stored

/-- What `kprintf` shows for `%d` and `%x`, whatever the sign. -/
theorem itoa_dec_text (str : Chars) (num : Int32) :
    ∃ str', itoa str num 10 = some str' ∧ HoldsText str' (itoaDec num.toUInt32.toNat) := by
  rw [itoaDec_numeral]
  exact itoa_run (by decide) (by decide) str num

theorem itoa_hex_text (str : Chars) (num : Int32) :
    ∃ str', itoa str num 16 = some str' ∧ HoldsText str' (itoaHex num.toUInt32.toNat) := by
  rw [itoaHex_numeral]
  exact itoa_run (by decide) (by decide) str num

end Delos.Guarantees
