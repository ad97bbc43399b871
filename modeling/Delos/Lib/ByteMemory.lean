import Mathlib.Data.Nat.Bitwise
import Mathlib.Tactic.Ring

/-!
# Byte windows

A window is the run of mapped bytes that starts at `origin`. Its contents are
one number in base 256, so a closed run over a window is plain number
arithmetic and can be evaluated. Reads below the origin give zero and writes
there have no effect; nothing is claimed about unmapped addresses.
-/
namespace Delos.Lib

structure ByteMemory where
  origin : Nat
  image : Nat
  deriving DecidableEq, Repr

namespace ByteMemory

def readByte (m : ByteMemory) (a : Nat) : UInt8 :=
  if a < m.origin then 0 else UInt8.ofNat (m.image >>> (8 * (a - m.origin)))

/-- The digit is replaced by adding its difference to the new value, bit by bit. -/
def writeByte (m : ByteMemory) (a : Nat) (v : UInt8) : ByteMemory :=
  if a < m.origin then m
  else { m with image := m.image ^^^ ((m.readByte a ^^^ v).toNat <<< (8 * (a - m.origin))) }

def readBytes (m : ByteMemory) (a : Nat) : Nat → List UInt8
  | 0 => []
  | n + 1 => m.readByte a :: m.readBytes (a + 1) n

def writeBytes (m : ByteMemory) (a : Nat) : List UInt8 → ByteMemory
  | [] => m
  | v :: vs => (m.writeByte a v).writeBytes (a + 1) vs

private theorem byte_xor_high (digit : UInt8) (image k : Nat) :
    UInt8.ofNat ((image ^^^ (digit.toNat <<< (8 * k))) >>> (8 * k)) =
      UInt8.ofNat (image >>> (8 * k)) ^^^ digit := by
  rw [Nat.shiftRight_xor_distrib, Nat.shiftLeft_shiftRight]
  apply UInt8.toNat_inj.mp
  rw [UInt8.toNat_xor, UInt8.toNat_ofNat', UInt8.toNat_ofNat', Nat.xor_mod_two_pow]
  rw [Nat.mod_eq_of_lt digit.toNat_lt]

private theorem byte_xor_other (digit : UInt8) (image k j : Nat) (different : k ≠ j) :
    UInt8.ofNat ((image ^^^ (digit.toNat <<< (8 * k))) >>> (8 * j)) =
      UInt8.ofNat (image >>> (8 * j)) := by
  have bound := digit.toNat_lt
  rw [Nat.shiftRight_xor_distrib]
  apply UInt8.toNat_inj.mp
  rw [UInt8.toNat_ofNat', UInt8.toNat_ofNat', Nat.xor_mod_two_pow]
  have zero : ((digit.toNat <<< (8 * k)) >>> (8 * j)) % 2 ^ 8 = 0 := by
    rcases Nat.lt_or_ge k j with below | above
    · -- the digit sits below the one read: shifting pushes it out
      have split : 8 * j = 8 * k + 8 * (j - k) := by omega
      rw [split, Nat.shiftRight_add, Nat.shiftLeft_shiftRight, Nat.shiftRight_eq_div_pow]
      have wide : 2 ^ 8 ≤ 2 ^ (8 * (j - k)) := Nat.pow_le_pow_right (by decide) (by omega)
      rw [Nat.div_eq_of_lt (by omega), Nat.zero_mod]
    · have split : 8 * k = 8 * (k - j) + 8 * j := by omega
      rw [split, Nat.shiftLeft_add, Nat.shiftLeft_shiftRight, Nat.shiftLeft_eq]
      have whole : 8 * (k - j) = 8 + 8 * (k - j - 1) := by omega
      rw [whole, Nat.pow_add, ← Nat.mul_assoc, Nat.mul_right_comm]
      exact Nat.mul_mod_left _ _
  rw [zero, Nat.xor_zero]

@[simp] theorem origin_writeByte (m : ByteMemory) (a : Nat) (v : UInt8) :
    (m.writeByte a v).origin = m.origin := by
  unfold writeByte
  split <;> rfl

@[simp] theorem origin_writeBytes (vs : List UInt8) (m : ByteMemory) (a : Nat) :
    (m.writeBytes a vs).origin = m.origin := by
  induction vs generalizing m a with
  | nil => rfl
  | cons v vs ih => rw [writeBytes, ih, origin_writeByte]

theorem readByte_writeByte_same (m : ByteMemory) (a : Nat) (v : UInt8) (mapped : m.origin ≤ a) :
    (m.writeByte a v).readByte a = v := by
  have above : ¬ a < m.origin := by omega
  simp only [writeByte, readByte, if_neg above]
  rw [byte_xor_high, ← UInt8.xor_assoc, UInt8.xor_self, UInt8.zero_xor]

theorem readByte_writeByte_ne (m : ByteMemory) (a b : Nat) (v : UInt8) (different : a ≠ b) :
    (m.writeByte a v).readByte b = m.readByte b := by
  unfold writeByte
  split
  · rfl
  next above =>
    by_cases below : b < m.origin
    · simp only [readByte, if_pos below]
    · simp only [readByte, if_neg below]
      exact byte_xor_other _ _ _ _ (by omega)

theorem readByte_writeByte (m : ByteMemory) (a b : Nat) (v : UInt8) (mapped : m.origin ≤ a) :
    (m.writeByte a v).readByte b = if a = b then v else m.readByte b := by
  split
  next same => rw [← same, readByte_writeByte_same m a v mapped]
  next different => exact readByte_writeByte_ne m a b v different

theorem readByte_writeBytes_outside (vs : List UInt8) (m : ByteMemory) (a b : Nat)
    (outside : b < a ∨ a + vs.length ≤ b) :
    (m.writeBytes a vs).readByte b = m.readByte b := by
  induction vs generalizing m a with
  | nil => rfl
  | cons v vs ih =>
    simp only [List.length_cons] at outside
    rw [writeBytes, ih _ _ (by omega)]
    exact readByte_writeByte_ne m a b v (by omega)

theorem readByte_writeBytes_inside (vs : List UInt8) (m : ByteMemory) (a i : Nat)
    (inside : i < vs.length) (mapped : m.origin ≤ a) :
    (m.writeBytes a vs).readByte (a + i) = vs[i] := by
  induction vs generalizing m a i with
  | nil => simp at inside
  | cons v vs ih =>
    cases i with
    | zero =>
      rw [writeBytes, readByte_writeBytes_outside vs _ _ _ (by omega)]
      exact readByte_writeByte_same m a v mapped
    | succ i =>
      have rest := ih (m.writeByte a v) (a + 1) i (by simpa using inside) (by simp; omega)
      have shift : a + (i + 1) = a + 1 + i := by omega
      rw [writeBytes, shift, rest]
      rfl

@[simp] theorem length_readBytes (n : Nat) (m : ByteMemory) (a : Nat) :
    (m.readBytes a n).length = n := by
  induction n generalizing a with
  | zero => rfl
  | succ n ih => simp [readBytes, ih]

theorem getElem_readBytes (n : Nat) (m : ByteMemory) (a i : Nat) (inside : i < (m.readBytes a n).length) :
    (m.readBytes a n)[i] = m.readByte (a + i) := by
  induction n generalizing a i with
  | zero => simp at inside
  | succ n ih =>
    cases i with
    | zero => rfl
    | succ i =>
      simp only [readBytes, List.getElem_cons_succ]
      rw [ih]
      congr 1
      omega

theorem readBytes_congr (n : Nat) (m m' : ByteMemory) (a : Nat)
    (same : ∀ i < n, m'.readByte (a + i) = m.readByte (a + i)) :
    m'.readBytes a n = m.readBytes a n := by
  apply List.ext_getElem (by simp)
  intro i inside _
  rw [getElem_readBytes, getElem_readBytes]
  exact same i (by simpa using inside)

theorem readBytes_add (n k : Nat) (m : ByteMemory) (a : Nat) :
    m.readBytes a (n + k) = m.readBytes a n ++ m.readBytes (a + n) k := by
  induction n generalizing a with
  | zero => simp [readBytes]
  | succ n ih =>
    have shift : n + 1 + k = n + k + 1 := by omega
    rw [shift, readBytes, readBytes, ih]
    simp only [List.cons_append]
    congr 3
    omega

/-- A part of a range is a part of its bytes. -/
theorem readBytes_part (m : ByteMemory) (a : Nat) {k len n : Nat} (fits : k + len ≤ n) :
    m.readBytes (a + k) len = ((m.readBytes a n).drop k).take len := by
  have whole : n = k + (len + (n - k - len)) := by omega
  rw [whole, readBytes_add, readBytes_add, List.drop_left' (length_readBytes k m a),
    List.take_left' (length_readBytes len m (a + k))]

theorem readBytes_writeBytes_same (vs : List UInt8) (m : ByteMemory) (a : Nat) (mapped : m.origin ≤ a) :
    (m.writeBytes a vs).readBytes a vs.length = vs := by
  apply List.ext_getElem (by simp)
  intro i _ inside
  rw [getElem_readBytes, readByte_writeBytes_inside vs m a i inside mapped]

theorem readBytes_writeBytes_outside (vs : List UInt8) (m : ByteMemory) (a b n : Nat)
    (outside : b + n ≤ a ∨ a + vs.length ≤ b) :
    (m.writeBytes a vs).readBytes b n = m.readBytes b n :=
  readBytes_congr n _ _ b fun i _ => readByte_writeBytes_outside vs m a (b + i) (by omega)

/-- A store inside a range replaces that part of its bytes. -/
theorem readBytes_writeBytes_within (vs : List UInt8) (m : ByteMemory) (a k n : Nat)
    (fits : k + vs.length ≤ n) (mapped : m.origin ≤ a) :
    (m.writeBytes (a + k) vs).readBytes a n =
      (m.readBytes a n).take k ++ vs ++ (m.readBytes a n).drop (k + vs.length) := by
  obtain ⟨rest, rfl⟩ : ∃ rest, n = k + (vs.length + rest) := ⟨n - k - vs.length, by omega⟩
  have front := readBytes_writeBytes_outside vs m (a + k) a k (Or.inl (Nat.le_refl _))
  have same := readBytes_writeBytes_same vs m (a + k) (by omega)
  have back := readBytes_writeBytes_outside vs m (a + k) (a + k + vs.length) rest
    (Or.inr (Nat.le_refl _))
  rw [readBytes_add, readBytes_add, front, same, back, readBytes_add, readBytes_add]
  rw [List.take_left' (length_readBytes k m a), ← List.append_assoc, ← List.append_assoc]
  rw [List.drop_left' (by rw [List.length_append, length_readBytes, length_readBytes])]

theorem writeBytes_append (vs ws : List UInt8) (m : ByteMemory) (a : Nat) :
    m.writeBytes a (vs ++ ws) = (m.writeBytes a vs).writeBytes (a + vs.length) ws := by
  induction vs generalizing m a with
  | nil => rfl
  | cons v vs ih =>
    have shift : a + (vs.length + 1) = a + 1 + vs.length := by omega
    rw [List.cons_append, writeBytes, writeBytes, ih, List.length_cons, shift]

/-- Storing what is there changes nothing. -/
theorem writeBytes_readBytes (n : Nat) (m : ByteMemory) (a : Nat) :
    m.writeBytes a (m.readBytes a n) = m := by
  induction n generalizing a with
  | zero => rfl
  | succ n ih =>
    have same : m.writeByte a (m.readByte a) = m := by
      rw [writeByte, UInt8.xor_self, UInt8.toNat_zero, Nat.zero_shiftLeft, Nat.xor_zero]
      split <;> rfl
    rw [readBytes, writeBytes, same, ih]

/-! ## Little-endian words -/

/-- Little-endian value of a byte string. -/
def leValue : List UInt8 → Nat
  | [] => 0
  | b :: bs => b.toNat + 256 * leValue bs

/-- The `width` little-endian bytes of a number. -/
def leBytes : Nat → Nat → List UInt8
  | 0, _ => []
  | width + 1, n => UInt8.ofNat n :: leBytes width (n / 256)

@[simp] theorem length_leBytes (width n : Nat) : (leBytes width n).length = width := by
  induction width generalizing n with
  | zero => rfl
  | succ width ih => simp [leBytes, ih]

theorem leValue_leBytes (width n : Nat) : leValue (leBytes width n) = n % 256 ^ width := by
  induction width generalizing n with
  | zero => simp [leBytes, leValue, Nat.mod_one]
  | succ width ih =>
    have low : (UInt8.ofNat n).toNat = n % 256 := UInt8.toNat_ofNat'
    rw [leBytes, leValue, ih, low, Nat.pow_succ', Nat.mod_mul]

theorem leValue_lt (bs : List UInt8) : leValue bs < 256 ^ bs.length := by
  induction bs with
  | nil => simp [leValue]
  | cons b bs ih =>
    have bound := b.toNat_lt
    simp only [leValue, List.length_cons, Nat.pow_succ']
    omega

theorem leBytes_leValue (bs : List UInt8) : leBytes bs.length (leValue bs) = bs := by
  induction bs with
  | nil => rfl
  | cons b bs ih =>
    have bound := b.toNat_lt
    have low : UInt8.ofNat (b.toNat + 256 * leValue bs) = b := by
      apply UInt8.toNat_inj.mp
      rw [UInt8.toNat_ofNat']
      omega
    have high : (b.toNat + 256 * leValue bs) / 256 = leValue bs := by omega
    simp only [leValue, List.length_cons, leBytes, low, high, ih]

def read32 (m : ByteMemory) (a : Nat) : Nat := leValue (m.readBytes a 4)

def write32 (m : ByteMemory) (a v : Nat) : ByteMemory := m.writeBytes a (leBytes 4 v)

@[simp] theorem origin_write32 (m : ByteMemory) (a v : Nat) :
    (m.write32 a v).origin = m.origin := origin_writeBytes _ m a

theorem read32_lt (m : ByteMemory) (a : Nat) : m.read32 a < 2 ^ 32 := by
  have bound := leValue_lt (m.readBytes a 4)
  rw [length_readBytes] at bound
  exact bound

theorem read32_write32_same (m : ByteMemory) (a v : Nat) (mapped : m.origin ≤ a) :
    (m.write32 a v).read32 a = v % 2 ^ 32 := by
  have back := readBytes_writeBytes_same (leBytes 4 v) m a mapped
  rw [length_leBytes] at back
  have word : 256 ^ 4 = 2 ^ 32 := by decide
  rw [read32, write32, back, leValue_leBytes, word]

theorem readByte_write32_outside (m : ByteMemory) (a b v : Nat) (outside : b < a ∨ a + 4 ≤ b) :
    (m.write32 a v).readByte b = m.readByte b :=
  readByte_writeBytes_outside _ m a b (by rwa [length_leBytes])

theorem read32_congr (m m' : ByteMemory) (a : Nat)
    (same : ∀ i < 4, m'.readByte (a + i) = m.readByte (a + i)) :
    m'.read32 a = m.read32 a := by
  rw [read32, read32, readBytes_congr 4 m m' a same]

theorem read32_write32_outside (m : ByteMemory) (a b v : Nat) (outside : b + 4 ≤ a ∨ a + 4 ≤ b) :
    (m.write32 a v).read32 b = m.read32 b :=
  read32_congr m _ b fun i _ => readByte_write32_outside m a (b + i) v (by omega)

theorem read32_writeByte_outside (m : ByteMemory) (a b : Nat) (v : UInt8)
    (outside : a < b ∨ b + 4 ≤ a) : (m.writeByte a v).read32 b = m.read32 b :=
  read32_congr m _ b fun i _ => readByte_writeByte_ne m a (b + i) v (by omega)

/-! ## Words as parts of the number -/

private theorem xor_digits {a c : Nat} (b d : Nat) (first : a < 256) (second : c < 256) :
    (a + 256 * b) ^^^ (c + 256 * d) = (a ^^^ c) ^^^ ((b ^^^ d) <<< 8) := by
  have small : a ^^^ c < 2 ^ 8 := Nat.xor_lt_two_pow first second
  rw [← Nat.div_add_mod ((a + 256 * b) ^^^ (c + 256 * d)) (2 ^ 8), ← Nat.div_add_mod ((a ^^^ c) ^^^ ((b ^^^ d) <<< 8)) (2 ^ 8)]
  have divide : ∀ {x y : Nat}, x < 256 → (x + 256 * y) / 2 ^ 8 = y := fun small => by omega
  have rest : ∀ {x y : Nat}, x < 256 → (x + 256 * y) % 2 ^ 8 = x := fun small => by omega
  have low : ((b ^^^ d) <<< 8) % 2 ^ 8 = 0 := by rw [Nat.shiftLeft_eq]; exact Nat.mul_mod_left _ _
  have high : ((b ^^^ d) <<< 8) / 2 ^ 8 = b ^^^ d := by rw [Nat.shiftLeft_eq]; exact Nat.mul_div_cancel _ (by decide)
  rw [Nat.xor_div_two_pow, Nat.xor_mod_two_pow, Nat.xor_div_two_pow, Nat.xor_mod_two_pow, divide first, divide second,
    rest first, rest second, low, high, Nat.div_eq_of_lt small, Nat.mod_eq_of_lt small, Nat.zero_xor, Nat.xor_zero]

private theorem mod_digits (n x : Nat) : x % 256 ^ (n + 1) = x % 256 + 256 * (x / 256 % 256 ^ n) := by
  rw [Nat.pow_succ', Nat.mod_mul]

theorem leValue_readBytes (n : Nat) (m : ByteMemory) (a : Nat) (mapped : m.origin ≤ a) :
    leValue (m.readBytes a n) = (m.image >>> (8 * (a - m.origin))) % 256 ^ n := by
  induction n generalizing a with
  | zero => simp [readBytes, leValue, Nat.mod_one]
  | succ n ih =>
    have next : 8 * (a + 1 - m.origin) = 8 * (a - m.origin) + 8 := by omega
    rw [readBytes, leValue, ih (a + 1) (by omega), readByte, if_neg (by omega), UInt8.toNat_ofNat', next,
      Nat.shiftRight_add, Nat.shiftRight_eq_div_pow _ 8, mod_digits]

/-- A store changes the number in one place. -/
theorem writeBytes_word (n : Nat) (m : ByteMemory) (a v : Nat) (mapped : m.origin ≤ a) :
    m.writeBytes a (leBytes n v) =
      { m with image := m.image ^^^ ((leValue (m.readBytes a n) ^^^ v % 256 ^ n) <<< (8 * (a - m.origin))) } := by
  induction n generalizing m a v with
  | zero => simp [leBytes, writeBytes, readBytes, leValue, Nat.mod_one]
  | succ n ih =>
    have next : 8 * (a + 1 - m.origin) = 8 + 8 * (a - m.origin) := by omega
    have same : (m.writeByte a (UInt8.ofNat v)).readBytes (a + 1) n = m.readBytes (a + 1) n :=
      readBytes_congr n _ _ _ fun i _ => readByte_writeByte_ne m a (a + 1 + i) _ (by omega)
    have digits : leValue (m.readBytes a (n + 1)) ^^^ v % 256 ^ (n + 1) = (m.readByte a ^^^ UInt8.ofNat v).toNat ^^^
        ((leValue (m.readBytes (a + 1) n) ^^^ v / 256 % 256 ^ n) <<< 8) := by
      rw [readBytes, leValue, mod_digits, xor_digits _ _ (m.readByte a).toNat_lt (Nat.mod_lt v (by decide)), UInt8.toNat_xor,
        UInt8.toNat_ofNat']
    rw [leBytes, writeBytes, ih _ (a + 1) (v / 256) (by rw [origin_writeByte]; omega), same, digits, origin_writeByte, next,
      Nat.shiftLeft_add, writeByte, if_neg (by omega)]
    generalize (leValue (m.readBytes (a + 1) n) ^^^ v / 256 % 256 ^ n) <<< 8 = later
    rw [Nat.shiftLeft_xor_distrib, Nat.xor_assoc]

end ByteMemory

end Delos.Lib
