import Mathlib.Data.Nat.Digits.Lemmas
import Delos.Invariants.NumberText

/-!
# Decimal numbers

`itoa` writes the numeral of the unsigned word, and `atoi` reads numerals modulo 2^32; a sign, which `itoa`
never writes, makes the result the negative word.
-/
namespace Delos.Guarantees
open Source Invariants

/-- An optional sign and a numeral without leading zeros; zero has no sign. -/
structure DecimalText (negative : Bool) (digits : List Nat) : Prop where
  decimal : ∀ d ∈ digits, d < 10
  nonempty : digits ≠ []
  noLeadingZero : digits.head? = some 0 → digits = [0]
  noMinusZero : ¬ (negative = true ∧ digits = [0])

section
variable {negative : Bool} {digits : List Nat} {n : Nat}

theorem short_of_value (text : DecimalText negative digits) (fits : Nat.ofDigits 10 digits.reverse ≤ 2 ^ 31) : digits.length ≤ 10 := by
  obtain ⟨d, rest, rfl⟩ := List.exists_cons_of_ne_nil text.nonempty
  by_cases zero : d = 0
  · rw [text.noLeadingZero (congrArg some zero)]
    decide
  · rw [List.reverse_cons, Nat.ofDigits_append, Nat.ofDigits_singleton, List.length_reverse] at fits
    have first : 10 ^ rest.length * 1 ≤ 10 ^ rest.length * d := Nat.mul_le_mul_left _ (Nat.pos_of_ne_zero zero)
    by_contra long
    rw [List.length_cons] at long
    have large : 10 ^ 10 ≤ 10 ^ rest.length := Nat.pow_le_pow_right (by decide) (by omega)
    omega

theorem lowDigits_value : Nat.ofDigits 10 (lowDigits 10 n) = n := by
  unfold lowDigits
  by_cases zero : n = 0
  · rw [if_pos zero, zero]
    rfl
  · rw [if_neg zero, Nat.ofDigits_digits]

theorem lowDigits_decimal : ∀ d ∈ lowDigits 10 n, d < 10 := by
  unfold lowDigits
  intro d among
  by_cases zero : n = 0
  · simp [zero] at among
    omega
  · rw [if_neg zero] at among
    exact Nat.digits_lt_base (by decide) among

theorem lowDigits_length (fits : n < 2 ^ 32) : (lowDigits 10 n).length ≤ 10 := by
  unfold lowDigits
  by_cases zero : n = 0
  · simp [zero]
  · rw [if_neg zero, Nat.digits_length_le_iff (by decide)]
    omega

/-- Two's complement. -/
theorem word_of_number (num : Int32) : num.toInt % 2 ^ 32 = num.toUInt32.toNat := by
  have value : num.toInt = num.toBitVec.toInt := rfl
  have word : num.toUInt32.toNat = num.toBitVec.toNat := rfl
  rw [value, word, BitVec.toInt_eq_toNat_cond]
  split <;> omega

end

theorem decimal_round_trip :
    (∀ (str : Chars) (num : Int32), ∃ str', itoa str num 10 = some str' ∧
      ∃ r, atoi (some str') = some r ∧ (r.toNat : Int) = num.toInt % 2 ^ 32) ∧
    ∀ (str : Chars) (negative : Bool) (digits : List Nat), DecimalText negative digits →
      -2 ^ 31 ≤ signedValue negative digits → signedValue negative digits < 2 ^ 31 → HoldsText str (signedText negative digits) →
        ∃ r, atoi (some str) = some r ∧ (r.toNat : Int) = signedValue negative digits % 2 ^ 32 := by
  constructor
  · intro str num
    obtain ⟨str', run, stored⟩ := itoa_run (show 2 ≤ (10 : UInt32).toNat by decide) (by decide) str num
    have length := lowDigits_length num.toUInt32.toNat_lt
    have digits : lowDigits 10 num.toUInt32.toNat ≠ [] := by
      rw [lowDigits_step (by decide)]
      exact List.cons_ne_nil _ _
    obtain ⟨r, read, value⟩ := atoi_run
      (by rw [List.length_reverse]; exact Nat.lt_of_le_of_lt length (by decide))
      (mt List.reverse_eq_nil_iff.mp digits)
      (fun d among => lowDigits_decimal d (List.mem_reverse.mp among))
      (show HoldsText str' (signedText false (lowDigits 10 num.toUInt32.toNat).reverse) from stored)
    refine ⟨str', run, r, read, ?_⟩
    have word := num.toUInt32.toNat_lt
    rw [signedValue, if_neg Bool.false_ne_true, List.reverse_reverse, lowDigits_value] at value
    rw [value, word_of_number]
    omega
  · intro str negative digits text low high stored
    have fits : Nat.ofDigits 10 digits.reverse ≤ 2 ^ 31 := by
      unfold signedValue at low high
      cases negative with
      | true =>
        rw [if_pos rfl] at low
        omega
      | false =>
        rw [if_neg Bool.false_ne_true] at high
        omega
    exact atoi_run (Nat.lt_of_le_of_lt (short_of_value text fits) (by decide)) text.nonempty text.decimal stored

/-- -1, which `itoa` writes as "4294967295", and "-42". -/
theorem decimal_round_trip_minus :
    (∃ str', itoa (fun _ => 0) (-1) 10 = some str' ∧ ∃ r, atoi (some str') = some r ∧ (r.toNat : Int) = (-1 : Int32).toInt % 2 ^ 32) ∧
    ∃ r, atoi (some fun i => (textBytes "-42")[i]?.getD 0) = some r ∧ (r.toNat : Int) = signedValue true [4, 2] % 2 ^ 32 :=
  ⟨decimal_round_trip.1 (fun _ => 0) (-1),
    decimal_round_trip.2 (fun i => (textBytes "-42")[i]?.getD 0) true [4, 2] ⟨by decide, by decide, by decide, by decide⟩
      (by decide) (by decide) ⟨by decide, by decide⟩⟩

end Delos.Guarantees
