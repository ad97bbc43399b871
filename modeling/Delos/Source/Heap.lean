import Delos.Lib.ByteMemory

/-!
# heap.cpp: the allocator of the kernel heap and of every process heap

`heap_block_t` is packed: `next` takes bytes 0 to 3, the `free` bit is bit 0 of
byte 4 and `size` takes bytes 5 to 8. Pointers are 32-bit numbers and pointer
sums wrap. The search loop follows `next` through memory, so it carries a step
bound; `none` means the bound was reached.
-/
namespace Delos.Source
open Lib (ByteMemory)

def wordModulus : Nat := 2 ^ 32

/-- `sizeof(heap_block_t)` -/
def blockHeaderSize : Nat := 9

/-- `heap_t` -/
structure Heap where
  addr : Nat
  size : Nat
  deriving DecidableEq, Repr

/-- The heap behind `kmalloc`: `KERNEL_HEAP_START_ADDR`, `KERNEL_HEAP_SIZE`. -/
def kernelHeap : Heap := ⟨0xC0400000, 20 * 1024 * 1024⟩

/-- The heap of every process: `PAGE_TABLE_ADDR(764)`, `PROCESS_HEAP_SIZE`. -/
def processHeap : Heap := ⟨764 * 1024 * 4096, 2 * 1024 * 4096⟩

def blockNext (m : ByteMemory) (block : Nat) : Nat := m.read32 block

def blockFree (m : ByteMemory) (block : Nat) : Bool := (m.readByte (block + 4)).toNat % 2 == 1

def blockSize (m : ByteMemory) (block : Nat) : Nat := m.read32 (block + 5)

def setBlockNext (m : ByteMemory) (block next : Nat) : ByteMemory := m.write32 block next

/-- A one-bit field: the other seven bits of its byte stay as they are. -/
def setBlockFree (m : ByteMemory) (block : Nat) (free : Bool) : ByteMemory :=
  m.writeByte (block + 4)
    (UInt8.ofNat ((m.readByte (block + 4)).toNat / 2 * 2 + (if free then 1 else 0)))

def setBlockSize (m : ByteMemory) (block size : Nat) : ByteMemory := m.write32 (block + 5) size

def heapInit (addr size : Nat) (m : ByteMemory) : Heap × ByteMemory :=
  let m := setBlockSize m addr size
  let m := setBlockNext m addr 0
  (⟨addr, size⟩, setBlockFree m addr true)

/-- "if two adjacent blocks are free, merge them into one larger block" -/
def mergeWithNext (m : ByteMemory) (block : Nat) : ByteMemory :=
  if blockFree m block && blockNext m block != 0 && blockFree m (blockNext m block) then
    let m := setBlockSize m block (blockSize m block + blockSize m (blockNext m block))
    setBlockNext m block (blockNext m (blockNext m block))
  else m

/-- The break-up of a block that is larger than needed, then `block->free = 0`. -/
def takeBlock (m : ByteMemory) (block needed : Nat) : ByteMemory :=
  let m :=
    if blockSize m block > (needed + blockHeaderSize) % wordModulus then
      let newBlock := (block + needed) % wordModulus
      let m := setBlockFree m newBlock true
      let m := setBlockNext m newBlock (blockNext m block)
      let m := setBlockSize m newBlock (blockSize m block - needed)
      let m := setBlockNext m block newBlock
      setBlockSize m block needed
    else m
  setBlockFree m block false

def heapMallocLoop (needed : Nat) : Nat → Nat → ByteMemory → Option (Nat × ByteMemory)
  | 0, _, _ => none
  | bound + 1, block, m =>
    if block = 0 then some (0, m)
    else
      let m := mergeWithNext m block
      if blockFree m block && decide (needed ≤ blockSize m block) then
        some ((block + blockHeaderSize) % wordModulus, takeBlock m block needed)
      else heapMallocLoop needed bound (blockNext m block) m

def heapMalloc (heap : Heap) (size : Nat) (m : ByteMemory) : Option (Nat × ByteMemory) :=
  heapMallocLoop ((size + blockHeaderSize) % wordModulus) (heap.size + 1) heap.addr m

def heapFree (heap : Heap) (ptr : Nat) (m : ByteMemory) : ByteMemory :=
  if ptr < heap.addr ∨ ptr > (heap.addr + heap.size) % wordModulus then m
  else setBlockFree m ((ptr + wordModulus - blockHeaderSize) % wordModulus) true

end Delos.Source
