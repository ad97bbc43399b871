import Mathlib.Logic.Function.Basic
import Delos.Source.Strings

/-!
# memory.cpp and string.cpp on the address space

Addresses, sizes and indices are words and wrap around. A loop that looks for a NUL ends
without a result when every address was passed.
-/
namespace Delos.Source

abbrev Address := UInt32

abbrev Memory := Address → UInt8

namespace Memory

/-! ## memory.cpp -/

/-- `*destCopy++ = *srcCopy++` -/
def copyUp : Nat → Memory → Address → Address → Memory
  | 0, m, _, _ => m
  | size + 1, m, dest, src => copyUp size (Function.update m dest (m src)) (dest + 1) (src + 1)

/-- `*--destCopy = *--srcCopy` -/
def copyDown : Nat → Memory → Address → Address → Memory
  | 0, m, _, _ => m
  | size + 1, m, dest, src => copyDown size (Function.update m (dest - 1) (m (src - 1))) (dest - 1) (src - 1)

/-- What is returned, and the memory. -/
def memmove (m : Memory) (dest src : Address) (size : UInt32) : Address × Memory :=
  if src = 0 ∧ dest = 0 then (0, m)
  else if src < dest ∧ dest < src + size then (dest, copyDown size.toNat m (dest + size) (src + size))
  else (dest, copyUp size.toNat m dest src)

/-! ## string.cpp -/

/-- The indices that are read, and the one that holds the NUL. -/
def strlenLoop (m : Memory) (str : Address) : Nat → UInt32 → Option (List UInt32 × UInt32)
  | 0, _ => none
  | left + 1, i =>
    if m (str + i) ≠ 0 then (strlenLoop m str left (i + 1)).map fun (read, len) => (i :: read, len)
    else some ([i], i)

def strlen (m : Memory) (str : Address) : Option (List UInt32 × UInt32) := strlenLoop m str wordModulus 0

/-- The addresses that are stored to, where `dest` is then, and the memory. -/
def strcpyLoop : Nat → Memory → Address → Address → Option (List Address × Address × Memory)
  | 0, _, _, _ => none
  | left + 1, m, dest, src =>
    if m src ≠ 0 then
      (strcpyLoop left (Function.update m dest (m src)) (dest + 1) (src + 1)).map fun (stores, rest) => (dest :: stores, rest)
    else some ([dest], dest + 1, Function.update m dest (m src))

/-- What is returned, the addresses that are stored to, and the memory. -/
def strcpy (m : Memory) (dest src : Address) : Option (Address × List Address × Memory) :=
  if dest = 0 then some (0, [], m)
  else (strcpyLoop wordModulus m dest src).map fun (stores, ptr, m) => (dest, stores ++ [ptr], Function.update m ptr 0)

/-- The indices that are read and stored to, and the memory. -/
def reverseLoop (str : Address) : Nat → Memory → UInt32 → UInt32 → Option (List UInt32 × Memory)
  | 0, _, _, _ => none
  | left + 1, m, start, last =>
    if start < last then
      let temp := m (str + start)
      let m := Function.update m (str + start) (m (str + last))
      let m := Function.update m (str + last) temp
      (reverseLoop str left m (start + 1) (last - 1)).map fun (used, m) => (start :: last :: used, m)
    else some ([], m)

/-- The source calls the second index `end`. -/
def reverse (m : Memory) (str : Address) : Option (List UInt32 × Memory) := do
  let (read, len) ← strlen m str
  let (used, m) ← reverseLoop str wordModulus m 0 (len - 1)
  pure (read ++ used, m)

end Memory

end Delos.Source
