import Mathlib.Data.Nat.Digits.Defs
import Delos.Source.Strings

/-!
# The digits that `itoa` stores

Its arithmetic is unsigned from the first division on: whatever the sign of the number,
`itoa` stores the numeral of the unsigned word. No digit is outside the table and the last
`tmp_value` is below the base, so that it is never negative.
-/
namespace Delos.Invariants
open Source

def digitChar (d : Nat) : UInt8 := if d < 10 then UInt8.ofNat (48 + d) else UInt8.ofNat (87 + d)

/-- The digits from the last one on; zero has one digit. -/
def lowDigits (base n : Nat) : List Nat := if n = 0 then [0] else Nat.digits base n

/-- The numeral of a natural number. -/
def numeral (base n : Nat) : List UInt8 := (lowDigits base n).reverse.map digitChar

/-- The string at `str`. -/
def HoldsText (str : Chars) (text : List UInt8) : Prop := (∀ i, i < text.length → text[i]? = some (str i)) ∧ str text.length = 0

def writeChars (str : Chars) (ptr : Nat) : List UInt8 → Chars
  | [] => str
  | c :: rest => writeChars (Function.update str ptr c) (ptr + 1) rest

section
variable {str : Chars} {base : UInt32} {num : Int32} {ptr a b i n d : Nat} {text : List UInt8}

theorem writeChars_before (before : i < ptr) : writeChars str ptr text i = str i := by
  induction text generalizing str ptr with
  | nil => rfl
  | cons c rest ih =>
    rw [writeChars, ih (Nat.lt_succ_of_lt before), Function.update_of_ne (Nat.ne_of_lt before)]

theorem writeChars_at (inside : i < text.length) : text[i]? = some (writeChars str ptr text (ptr + i)) := by
  induction text generalizing str ptr i with
  | nil => simp at inside
  | cons c rest ih =>
    cases i with
    | zero =>
      rw [Nat.add_zero, writeChars, writeChars_before (Nat.lt_succ_self ptr), Function.update_self, List.getElem?_cons_zero]
    | succ i =>
      have place : ptr + (i + 1) = ptr + 1 + i := by omega
      rw [place, List.getElem?_cons_succ]
      exact ih (Nat.lt_of_succ_lt_succ inside)

theorem swapLoop_at {left : Nat} (enough : b < a + 2 * left) (i : Nat) :
    swapLoop left str a b i = if a ≤ i ∧ i ≤ b then str (a + b - i) else str i := by
  induction left generalizing str a b with
  | zero =>
    have outside : ¬ (a ≤ i ∧ i ≤ b) := by omega
    rw [if_neg outside, swapLoop]
  | succ left ih =>
    unfold swapLoop
    by_cases more : a < b
    · rw [if_pos more, ih (by omega)]
      by_cases first : i = a
      · subst first
        rw [if_neg (by omega), if_pos (by omega), Function.update_self, Nat.add_sub_cancel_left]
      by_cases last : i = b
      · subst last
        rw [if_neg (by omega), if_pos (by omega), Function.update_of_ne first, Function.update_self, Nat.add_sub_cancel]
      by_cases inside : a ≤ i ∧ i ≤ b
      · rw [if_pos (by omega), if_pos inside, Function.update_of_ne (by omega), Function.update_of_ne (by omega)]
        congr 1
        omega
      · rw [if_neg (by omega), if_neg inside, Function.update_of_ne first, Function.update_of_ne last]
    · rw [if_neg more]
      by_cases inside : a ≤ i ∧ i ≤ b
      · rw [if_pos inside]
        congr 1
        omega
      · rw [if_neg inside]

/-- The characters, their end, and the swaps. -/
theorem holdsText_reverse (str : Chars) (some : text ≠ []) :
    HoldsText (swapLoop text.length (Function.update (writeChars str 0 text) text.length 0) 0 (text.length - 1)) text.reverse := by
  have positive : 0 < text.length := List.length_pos_iff.mpr some
  constructor
  · intro i inside
    rw [List.length_reverse] at inside
    have place : 0 + (text.length - 1) - i = 0 + (text.length - 1 - i) := by omega
    rw [swapLoop_at (by omega), if_pos (by omega), place, Function.update_of_ne (by omega), List.getElem?_reverse inside]
    exact writeChars_at (by omega)
  · rw [List.length_reverse, swapLoop_at (by omega), if_neg (by omega), Function.update_self]

/-- The upper half of the table. -/
theorem digitTable_upper (small : d < 36) : digitTable[35 + d]? = some (digitChar d) := by
  have all : ∀ d < 36, digitTable[35 + d]? = some (digitChar d) := by decide +kernel
  exact all d small

theorem lowDigits_step {base : Nat} (valid : 2 ≤ base) :
    lowDigits base n = n % base :: if n / base = 0 then [] else lowDigits base (n / base) := by
  unfold lowDigits
  by_cases zero : n = 0
  · simp [zero]
  · rw [if_neg zero, Nat.digits_def' valid (Nat.pos_of_ne_zero zero)]
    by_cases one : n / base = 0
    · rw [if_pos one, one, Nat.digits_zero]
    · rw [if_neg one, if_neg one]

theorem toInt_of_small (small : num.toUInt32.toNat < 2 ^ 31) : num.toInt = num.toUInt32.toNat := by
  have value : num.toInt = num.toBitVec.toInt := rfl
  have word : num.toUInt32.toNat = num.toBitVec.toNat := rfl
  rw [value, word, BitVec.toInt_eq_toNat_of_lt]
  omega

theorem not_negative (small : num.toUInt32.toNat < 2 ^ 31) : ¬ num < 0 := by
  rw [Int32.lt_iff_toInt_lt, toInt_of_small small]
  exact Int.not_lt.mpr (Int.natCast_nonneg _)

theorem quotient_zero : (num.toUInt32 / base).toInt32 = 0 ↔ num.toUInt32.toNat / base.toNat = 0 := by
  rw [← UInt32.toNat_div]
  constructor
  · intro zero
    exact congrArg (fun n => n.toUInt32.toNat) zero
  · intro zero
    have word : num.toUInt32 / base = 0 := UInt32.toNat_inj.mp zero
    rw [word]
    rfl

/-- The index of the digit. -/
theorem remainder_index (small : base.toNat ≤ 36) (valid : 0 < base.toNat) :
    (35 + (num.toUInt32 - num.toUInt32 / base * base)).toNat = 35 + num.toUInt32.toNat % base.toNat := by
  have below := Nat.mod_lt num.toUInt32.toNat valid
  have split := Nat.div_add_mod num.toUInt32.toNat base.toNat
  have bound := num.toUInt32.toNat_lt
  have product : (num.toUInt32 / base * base).toNat = num.toUInt32.toNat / base.toNat * base.toNat := by
    rw [UInt32.toNat_mul, UInt32.toNat_div, Nat.mod_eq_of_lt]
    rw [Nat.mul_comm]
    omega
  have less : num.toUInt32 / base * base ≤ num.toUInt32 := by
    rw [UInt32.le_iff_toNat_le, product, Nat.mul_comm]
    omega
  rw [UInt32.toNat_add, UInt32.toNat_sub_of_le _ _ less, product, Nat.mul_comm]
  have rest : num.toUInt32.toNat - base.toNat * (num.toUInt32.toNat / base.toNat) = num.toUInt32.toNat % base.toNat := by omega
  rw [rest]
  have thirtyfive : (35 : UInt32).toNat = 35 := rfl
  rw [thirtyfive]
  omega

theorem itoaLoop_step (valid : 2 ≤ base.toNat) (small : base.toNat ≤ 36) (left : Nat) :
    itoaLoop base (left + 1) str ptr num =
      if num.toUInt32.toNat / base.toNat = 0 then
        some (Function.update str ptr (digitChar (num.toUInt32.toNat % base.toNat)), ptr + 1, num)
      else itoaLoop base left (Function.update str ptr (digitChar (num.toUInt32.toNat % base.toNat))) (ptr + 1)
        (num.toUInt32 / base).toInt32 := by
  have positive : 0 < base.toNat := by omega
  have digit : digitTable[(35 + (num.toUInt32 - num.toUInt32 / base * base)).toNat]? =
      some (digitChar (num.toUInt32.toNat % base.toNat)) := by
    rw [remainder_index small positive]
    exact digitTable_upper (Nat.lt_of_lt_of_le (Nat.mod_lt _ positive) small)
  simp only [itoaLoop, UInt32.toUInt32_toInt32, digit, quotient_zero]

theorem itoaLoop_run (str : Chars) (ptr : Nat) (valid : 2 ≤ base.toNat) (small : base.toNat ≤ 36) {left : Nat}
    (enough : num.toUInt32.toNat < base.toNat ^ (left + 1)) : ∃ t : Int32, ¬ t < 0 ∧
      itoaLoop base (left + 1) str ptr num =
        some (writeChars str ptr ((lowDigits base.toNat num.toUInt32.toNat).map digitChar),
          ptr + (lowDigits base.toNat num.toUInt32.toNat).length, t) := by
  have below_word : ∀ {num : Int32}, num.toUInt32.toNat / base.toNat = 0 → num.toUInt32.toNat < 2 ^ 31 := fun final => by
    have less := (Nat.div_eq_zero_iff_lt (by omega)).mp final
    omega
  induction left generalizing str ptr num with
  | zero =>
    have final : num.toUInt32.toNat / base.toNat = 0 := Nat.div_eq_of_lt (by simpa using enough)
    refine ⟨num, not_negative (below_word final), ?_⟩
    rw [itoaLoop_step valid small, if_pos final, lowDigits_step valid, if_pos final]
    rfl
  | succ left ih =>
    rw [itoaLoop_step valid small, lowDigits_step valid]
    by_cases final : num.toUInt32.toNat / base.toNat = 0
    · rw [if_pos final, if_pos final]
      exact ⟨num, not_negative (below_word final), rfl⟩
    · have less : num.toUInt32.toNat / base.toNat < base.toNat ^ (left + 1) := by
        rw [Nat.div_lt_iff_lt_mul (by omega), ← Nat.pow_succ]
        exact enough
      rw [if_neg final, if_neg final]
      obtain ⟨t, sign, run⟩ := ih (Function.update str ptr (digitChar (num.toUInt32.toNat % base.toNat))) (ptr + 1)
        (show (num.toUInt32 / base).toInt32.toUInt32.toNat < base.toNat ^ (left + 1) by
          rw [UInt32.toUInt32_toInt32, UInt32.toNat_div]
          exact less)
      rw [UInt32.toUInt32_toInt32, UInt32.toNat_div] at run
      refine ⟨t, sign, ?_⟩
      rw [run, List.map_cons, writeChars, List.length_cons, Nat.add_right_comm, Nat.add_assoc]

/-- What is left in the buffer is the numeral of the unsigned word. -/
theorem itoa_run (valid : 2 ≤ base.toNat) (small : base.toNat ≤ 36) (str : Chars) (num : Int32) :
    ∃ str', itoa str num base = some str' ∧ HoldsText str' (numeral base.toNat num.toUInt32.toNat) := by
  have enough : num.toUInt32.toNat < base.toNat ^ (31 + 1) :=
    Nat.lt_of_lt_of_le num.toUInt32.toNat_lt (Nat.pow_le_pow_left valid 32)
  obtain ⟨t, sign, run⟩ := itoaLoop_run str 0 valid small enough
  have bounds : ¬ (base < 2 ∨ base > 36) := by
    rw [UInt32.lt_iff_toNat_lt, gt_iff_lt, UInt32.lt_iff_toNat_lt]
    have two : (2 : UInt32).toNat = 2 := rfl
    have most : (36 : UInt32).toNat = 36 := rfl
    omega
  unfold itoa
  rw [if_neg bounds, run]
  simp only [if_neg sign, Nat.zero_add]
  refine ⟨_, rfl, ?_⟩
  have digits : (lowDigits base.toNat num.toUInt32.toNat).map digitChar ≠ [] := by
    rw [lowDigits_step valid]
    simp
  have reversed := holdsText_reverse str digits
  rw [List.length_map] at reversed
  rw [numeral, List.map_reverse]
  exact reversed

/-! ## The numbers that `kprintf` shows -/

theorem numeral_step {base : Nat} (valid : 2 ≤ base) :
    numeral base n = (if n / base = 0 then [] else numeral base (n / base)) ++ [digitChar (n % base)] := by
  unfold numeral
  rw [lowDigits_step valid]
  by_cases final : n / base = 0 <;> simp [final]

theorem textBytes_append (s t : String) : textBytes (s ++ t) = textBytes s ++ textBytes t := by simp [textBytes]

theorem textBytes_digit (small : d < 16) : textBytes (String.ofList [Nat.digitChar d]) = [digitChar d] := by
  have all : ∀ d < 16, textBytes (String.ofList [Nat.digitChar d]) = [digitChar d] := by decide +kernel
  exact all d small

theorem toDigits_numeral {base : Nat} (valid : 2 ≤ base) (small : base ≤ 16) (n : Nat) :
    textBytes (String.ofList (Nat.toDigits base n)) = numeral base n := by
  induction n using Nat.strongRecOn with
  | ind n ih =>
    rw [Nat.toDigits_eq_if (by omega), numeral_step valid]
    by_cases final : n < base
    · rw [if_pos final, Nat.div_eq_of_lt final, if_pos rfl, Nat.mod_eq_of_lt final, List.nil_append]
      exact textBytes_digit (Nat.lt_of_lt_of_le final small)
    · have more : n / base ≠ 0 := (Nat.div_ne_zero_iff.mpr ⟨by omega, Nat.le_of_not_lt final⟩)
      have less : n / base < n := Nat.div_lt_self (by omega) (by omega)
      rw [if_neg final, if_neg more, String.ofList_append, textBytes_append, ih _ less]
      rw [textBytes_digit (Nat.lt_of_lt_of_le (Nat.mod_lt n (by omega)) small)]

theorem itoaDec_numeral (n : Nat) : itoaDec n = numeral 10 n := toDigits_numeral (by decide) (by decide) n

theorem itoaHex_numeral (n : Nat) : itoaHex n = numeral 16 n := toDigits_numeral (by decide) (by decide) n

/-! ## The numbers that `atoi` reads -/

theorem digitChar_numeric (small : d < 10) :
    (48 ≤ digitChar d ∧ digitChar d ≤ 57) ∧ (digitChar d).toUInt32 - 48 = UInt32.ofNat d ∧ digitChar d ≠ UInt8.ofNat '-'.toNat := by
  have all : ∀ d < 10, (48 ≤ digitChar d ∧ digitChar d ≤ 57) ∧ (digitChar d).toUInt32 - 48 = UInt32.ofNat d ∧
      digitChar d ≠ UInt8.ofNat '-'.toNat := by decide +kernel
  exact all d small

theorem foldl_digits (digits : List Nat) : digits.foldl (fun n d => n * 10 + d) 0 = Nat.ofDigits 10 digits.reverse := by
  rw [Nat.ofDigits_eq_foldr, List.foldr_reverse]
  congr 1
  funext n d
  rw [Nat.add_comm, Nat.mul_comm]
  rfl

/-- The digits in front of the NUL, most significant first, on top of what was read before. -/
theorem atoiLoop_run {digits : List Nat} {left : Nat} (enough : digits.length < left) (small : ∀ d ∈ digits, d < 10)
    (stored : ∀ i, i < digits.length → (digits.map digitChar)[i]? = some (str (ptr + i))) (stop : str (ptr + digits.length) = 0) :
    atoiLoop str left ptr (UInt32.ofNat n) = some (UInt32.ofNat (digits.foldl (fun n d => n * 10 + d) n)) := by
  induction digits generalizing left ptr n with
  | nil =>
    obtain ⟨left, rfl⟩ := Nat.exists_eq_add_one_of_ne_zero (Nat.ne_zero_of_lt enough)
    have nul : str ptr = 0 := stop
    have noDigit : ¬ isNumericString str ptr := by
      unfold isNumericString
      rw [nul]
      decide
    rw [atoiLoop, if_neg noDigit, List.foldl_nil]
  | cons d rest ih =>
    obtain ⟨left, rfl⟩ := Nat.exists_eq_add_one_of_ne_zero (Nat.ne_zero_of_lt enough)
    obtain ⟨numeric, value, _⟩ := digitChar_numeric (small d List.mem_cons_self)
    have first : digitChar d = str ptr := by simpa using stored 0 (Nat.succ_pos _)
    have place : ∀ i, ptr + 1 + i = ptr + (i + 1) := fun i => by omega
    have later : ∀ i, i < rest.length → (rest.map digitChar)[i]? = some (str (ptr + 1 + i)) := fun i inside => by
      rw [place, ← stored (i + 1) (Nat.succ_lt_succ inside), List.map_cons, List.getElem?_cons_succ]
    have next : UInt32.ofNat n * 10 + UInt32.ofNat d = UInt32.ofNat (n * 10 + d) := by
      rw [UInt32.ofNat_add, UInt32.ofNat_mul]
      rfl
    rw [first] at numeric value
    have digit : isNumericString str ptr := numeric
    rw [atoiLoop, if_pos digit, value, next, List.foldl_cons]
    exact ih (Nat.lt_of_succ_lt_succ enough) (fun e among => small e (List.mem_cons_of_mem d among)) later (by rw [place, ← stop, List.length_cons])

def signedText (negative : Bool) (digits : List Nat) : List UInt8 :=
  if negative then UInt8.ofNat '-'.toNat :: digits.map digitChar else digits.map digitChar

def signedValue (negative : Bool) (digits : List Nat) : Int :=
  if negative then -(Nat.ofDigits 10 digits.reverse : Nat) else (Nat.ofDigits 10 digits.reverse : Nat)

/-- The digits behind a sign, or behind nothing. -/
theorem atoiLoop_behind (front : List UInt8) {digits : List Nat} (short : digits.length < wordModulus) (small : ∀ d ∈ digits, d < 10)
    (stored : HoldsText str (front ++ digits.map digitChar)) :
    atoiLoop str wordModulus front.length 0 = some (UInt32.ofNat (Nat.ofDigits 10 digits.reverse)) := by
  obtain ⟨chars, nul⟩ := stored
  rw [List.length_append, List.length_map] at nul
  rw [← foldl_digits]
  refine atoiLoop_run (n := 0) short small ?_ nul
  intro i inside
  have found := chars (front.length + i) (by simpa using inside)
  rwa [List.getElem?_append_right (Nat.le_add_right _ _), Nat.add_sub_cancel_left] at found

theorem first_char {c : UInt8} {rest : List UInt8} (stored : HoldsText str (c :: rest)) : str 0 = c := by
  simpa using (stored.1 0 (Nat.succ_pos _)).symm

/-- The sign is the largest word, and the product with it the negative. -/
theorem atoi_run {negative : Bool} {digits : List Nat} (short : digits.length < wordModulus) (some_digit : digits ≠ [])
    (small : ∀ d ∈ digits, d < 10) (stored : HoldsText str (signedText negative digits)) :
    ∃ r, atoi (some str) = some r ∧ (r.toNat : Int) = signedValue negative digits % 2 ^ 32 := by
  cases negative with
  | true =>
    have sign := first_char stored
    have run := atoiLoop_behind [UInt8.ofNat '-'.toNat] short small stored
    refine ⟨(0 - 1) * UInt32.ofNat (Nat.ofDigits 10 digits.reverse), ?_, ?_⟩
    · simp only [atoi, if_pos sign]
      exact congrArg (Option.map _) run
    · rw [UInt32.zero_sub, UInt32.neg_mul, UInt32.one_mul, UInt32.toNat_neg, UInt32.toNat_ofNat', signedValue, if_pos rfl]
      change ((((2 ^ 32 - Nat.ofDigits 10 digits.reverse % 2 ^ 32) % 2 ^ 32 : Nat)) : Int) = _
      omega
  | false =>
    obtain ⟨d, rest, rfl⟩ := List.exists_cons_of_ne_nil some_digit
    have noSign : str 0 ≠ UInt8.ofNat '-'.toNat := by
      rw [first_char stored]
      exact (digitChar_numeric (small d List.mem_cons_self)).2.2
    have run := atoiLoop_behind [] short small stored
    refine ⟨1 * UInt32.ofNat (Nat.ofDigits 10 (d :: rest).reverse), ?_, ?_⟩
    · simp only [atoi, if_neg noSign]
      exact congrArg (Option.map _) run
    · rw [UInt32.one_mul, UInt32.toNat_ofNat']
      exact Int.natCast_mod _ _

end

end Delos.Invariants
