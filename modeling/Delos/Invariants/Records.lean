import Delos.Invariants.KernelMemory

/-!
# `file_t` records and arrays of them

A record is its 25 bytes. `RecordsAt` says that an array of records lies in the
heap window; the field accesses of vfs.cpp read and write it field by field. The
array may already have been freed: reading needs its bytes only.
-/
namespace Delos.Invariants
open Lib Source

@[ext] structure Record where
  bytes : List UInt8
  whole : bytes.length = fileRecordSize

namespace Record

def field (r : Record) (k len : Nat) : List UInt8 := (r.bytes.drop k).take len

/-- The name up to its terminator. -/
def name (r : Record) : List UInt8 := (r.bytes.take fileNameLen).takeWhile fun b => b ≠ 0

def startCluster (r : Record) : Nat := ByteMemory.leValue (r.field 16 4)
def size (r : Record) : Nat := ByteMemory.leValue (r.field 20 4)
def flags (r : Record) : UInt8 := (r.field 24 1).headD 0
def isOpen (r : Record) : Bool := flagBit r.flags 0
def isSystem (r : Record) : Bool := flagBit r.flags 1

/-- The record with some of its bytes replaced. -/
def overwrite (r : Record) (k : Nat) (bytes : List UInt8) (fits : k + bytes.length ≤ fileRecordSize) :
    Record :=
  ⟨r.bytes.take k ++ bytes ++ r.bytes.drop (k + bytes.length), by
    have := r.whole
    simp only [List.length_append, List.length_take, List.length_drop]
    omega⟩

def setStartCluster (r : Record) (v : Nat) : Record :=
  r.overwrite 16 (ByteMemory.leBytes 4 v) (by rw [ByteMemory.length_leBytes]; decide)

def setSize (r : Record) (v : Nat) : Record :=
  r.overwrite 20 (ByteMemory.leBytes 4 v) (by rw [ByteMemory.length_leBytes]; decide)

def setFlag (r : Record) (bit : Nat) (v : Bool) : Record :=
  r.overwrite 24 [withFlagBit r.flags bit v] (by rw [List.length_singleton]; decide)

section
variable {r : Record} {k len j n : Nat} {bytes : List UInt8}
  {fits : k + bytes.length ≤ fileRecordSize}

theorem bytes_overwrite : (r.overwrite k bytes fits).bytes =
    r.bytes.take k ++ bytes ++ r.bytes.drop (k + bytes.length) := rfl

theorem field_overwrite_same (size : bytes.length = n) :
    (r.overwrite k bytes fits).field k n = bytes := by
  have front : (r.bytes.take k).length = k := by
    have := r.whole
    rw [List.length_take]
    omega
  rw [field, bytes_overwrite, List.append_assoc, List.drop_left' front, List.take_left' size]

theorem take_overwrite (before : n ≤ k) :
    (r.overwrite k bytes fits).bytes.take n = r.bytes.take n := by
  have front : n ≤ (r.bytes.take k).length := by
    have := r.whole
    rw [List.length_take]
    omega
  rw [bytes_overwrite, List.append_assoc, List.take_append_of_le_length front, List.take_take,
    Nat.min_eq_left before]

theorem drop_overwrite (after : k + bytes.length ≤ n) :
    (r.overwrite k bytes fits).bytes.drop n = r.bytes.drop n := by
  obtain ⟨rest, rfl⟩ : ∃ rest, n = k + bytes.length + rest := ⟨n - (k + bytes.length), by omega⟩
  have front : (r.bytes.take k ++ bytes).length = k + bytes.length := by
    have := r.whole
    rw [List.length_append, List.length_take]
    omega
  rw [bytes_overwrite, ← List.drop_drop, List.drop_left' front, List.drop_drop]

theorem field_overwrite_before (before : j + len ≤ k) :
    (r.overwrite k bytes fits).field j len = r.field j len := by
  rw [field, field, List.take_drop, List.take_drop, take_overwrite before]

theorem field_overwrite_after (after : k + bytes.length ≤ j) :
    (r.overwrite k bytes fits).field j len = r.field j len := by
  rw [field, field, drop_overwrite after]

/-- The second of two stores of the same length at one place remains. -/
theorem overwrite_overwrite {bytes' : List UInt8} {fits' : k + bytes'.length ≤ fileRecordSize}
    (same : bytes'.length = bytes.length) :
    (r.overwrite k bytes fits).overwrite k bytes' fits' = r.overwrite k bytes' fits' := by
  have front : (r.overwrite k bytes fits).bytes.take k = r.bytes.take k := take_overwrite (Nat.le_refl _)
  have back : (r.overwrite k bytes fits).bytes.drop (k + bytes.length) =
      r.bytes.drop (k + bytes.length) := drop_overwrite (Nat.le_refl _)
  apply Record.ext
  show (r.overwrite k bytes fits).bytes.take k ++ bytes' ++
    (r.overwrite k bytes fits).bytes.drop (k + bytes'.length) =
      r.bytes.take k ++ bytes' ++ r.bytes.drop (k + bytes'.length)
  rw [front, same, back]

theorem name_overwrite (behind : fileNameLen ≤ k) : (r.overwrite k bytes fits).name = r.name := by
  rw [name, name, take_overwrite behind]

end

theorem flagBit_same {flags : UInt8} {bit : Nat} {v : Bool} (small : bit < 2) :
    flagBit (withFlagBit flags bit v) bit = v := by
  have byte := flags.toNat_lt
  unfold flagBit withFlagBit
  rw [UInt8.toNat_ofNat']
  obtain rfl | rfl : bit = 0 ∨ bit = 1 := by omega
  all_goals cases v <;> simp <;> omega

theorem flagBit_other {flags : UInt8} {bit bit' : Nat} {v : Bool} (small : bit < 2) (small' : bit' < 2)
    (different : bit' ≠ bit) : flagBit (withFlagBit flags bit v) bit' = flagBit flags bit' := by
  have byte := flags.toNat_lt
  unfold flagBit withFlagBit
  rw [UInt8.toNat_ofNat', Bool.eq_iff_iff, beq_iff_eq, beq_iff_eq]
  obtain ⟨rfl, rfl⟩ | ⟨rfl, rfl⟩ : bit = 0 ∧ bit' = 1 ∨ bit = 1 ∧ bit' = 0 := by omega
  all_goals cases v <;> simp <;> omega

section
variable (r : Record) (v bit : Nat) (b : Bool)

@[simp] theorem name_setStartCluster : (r.setStartCluster v).name = r.name :=
  name_overwrite (by decide)

@[simp] theorem name_setSize : (r.setSize v).name = r.name := name_overwrite (by decide)

@[simp] theorem name_setFlag : (r.setFlag bit b).name = r.name := name_overwrite (by decide)

@[simp] theorem startCluster_setSize : (r.setSize v).startCluster = r.startCluster := by
  rw [startCluster, setSize, field_overwrite_before (by decide), startCluster]

@[simp] theorem startCluster_setFlag : (r.setFlag bit b).startCluster = r.startCluster := by
  rw [startCluster, setFlag, field_overwrite_before (by decide), startCluster]

theorem startCluster_setStartCluster (word : v < wordModulus) :
    (r.setStartCluster v).startCluster = v := by
  rw [startCluster, setStartCluster, field_overwrite_same (ByteMemory.length_leBytes 4 v), ByteMemory.leValue_leBytes]
  exact Nat.mod_eq_of_lt word

theorem size_setSize (word : v < wordModulus) : (r.setSize v).size = v := by
  rw [size, setSize, field_overwrite_same (ByteMemory.length_leBytes 4 v), ByteMemory.leValue_leBytes]
  exact Nat.mod_eq_of_lt word

@[simp] theorem size_setFlag : (r.setFlag bit b).size = r.size := by
  rw [size, setFlag, field_overwrite_before (by decide), size]

theorem setSize_setSize (v' : Nat) : (r.setSize v).setSize v' = r.setSize v' :=
  overwrite_overwrite (by rw [ByteMemory.length_leBytes, ByteMemory.length_leBytes])

theorem flags_setFlag : (r.setFlag bit b).flags = withFlagBit r.flags bit b := by
  rw [flags, setFlag, field_overwrite_same List.length_singleton, List.headD_cons]

@[simp] theorem flags_setSize : (r.setSize v).flags = r.flags := by
  rw [flags, setSize, field_overwrite_after (by rw [ByteMemory.length_leBytes]), flags]

@[simp] theorem flags_setStartCluster : (r.setStartCluster v).flags = r.flags := by
  rw [flags, setStartCluster, field_overwrite_after (by rw [ByteMemory.length_leBytes]; decide), flags]

@[simp] theorem size_setStartCluster : (r.setStartCluster v).size = r.size := by
  rw [size, setStartCluster, field_overwrite_after (by rw [ByteMemory.length_leBytes]), size]

@[simp] theorem isOpen_setFlag_open : (r.setFlag 0 b).isOpen = b := by
  rw [isOpen, flags_setFlag, flagBit_same (by decide)]

@[simp] theorem isOpen_setFlag_system : (r.setFlag 1 b).isOpen = r.isOpen := by
  rw [isOpen, flags_setFlag, flagBit_other (by decide) (by decide) (by decide), isOpen]

@[simp] theorem isSystem_setFlag_system : (r.setFlag 1 b).isSystem = b := by
  rw [isSystem, flags_setFlag, flagBit_same (by decide)]

theorem size_lt : r.size < wordModulus := by
  have bound := ByteMemory.leValue_lt (r.field 20 4)
  have length : (r.field 20 4).length = 4 := by
    have := r.whole
    unfold fileRecordSize at this
    rw [field, List.length_take, List.length_drop]
    omega
  rw [length] at bound
  exact bound

/-- A C string of at most 15 bytes is the name of a record exactly when the
record starts with its bytes and the terminator. -/
theorem name_eq_iff (text : List UInt8) (plain : (0 : UInt8) ∉ text)
    (short : text.length < fileNameLen) :
    r.bytes.take (text.length + 1) = text ++ [0] ↔ r.name = text := by
  have inner : r.bytes.take (text.length + 1) = (r.bytes.take fileNameLen).take (text.length + 1) := by
    rw [List.take_take, Nat.min_eq_left short]
  have size : (r.bytes.take fileNameLen).length = fileNameLen := by
    have := r.whole
    unfold fileRecordSize at this
    unfold fileNameLen
    rw [List.length_take]
    omega
  rw [inner, name]
  generalize r.bytes.take fileNameLen = bytes at size
  clear inner
  rw [← size] at short
  clear size
  induction text generalizing bytes with
  | nil =>
    cases bytes with
    | nil => simp at short
    | cons b rest =>
      by_cases zero : b = 0
      · simp [zero]
      · simp [zero]
  | cons c text ih =>
    have nonzero : c ≠ 0 := fun zero => plain (zero ▸ List.mem_cons_self)
    cases bytes with
    | nil => simp at short
    | cons b rest =>
      have later := ih (fun inside => plain (List.mem_cons_of_mem _ inside)) rest
        (by simpa using short)
      rw [List.length_cons, List.take_succ_cons, List.cons_append, List.cons.injEq]
      by_cases same : b = c
      · subst same
        rw [List.takeWhile_cons, if_pos (by simpa using nonzero), List.cons.injEq]
        exact and_congr_right fun _ => later
      · refine ⟨fun both => absurd both.1 same, fun equal => ?_⟩
        rw [List.takeWhile_cons] at equal
        split at equal
        · exact absurd (List.cons.inj equal).1 same
        · cases equal

/-- `strcpy` gives the record its name. -/
theorem name_overwrite_start (text : List UInt8) (plain : (0 : UInt8) ∉ text)
    (short : text.length < fileNameLen) (fits : 0 + (text ++ [0, 0]).length ≤ fileRecordSize) :
    (r.overwrite 0 (text ++ [0, 0]) fits).name = text := by
  rw [← name_eq_iff _ text plain short, bytes_overwrite, List.take_zero, List.nil_append,
    List.take_append_of_le_length (by simp)]
  rw [show text ++ [0, 0] = (text ++ [0]) ++ [0] by simp]
  exact List.take_left' (by simp)

end

end Record

end Delos.Invariants
