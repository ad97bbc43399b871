import Delos.Lib.Bitmap
import Delos.Lib.Program
import Delos.Source.Heap

/-!
# paging.cpp: frames, page tables and the mapping of the kernel

`memory` is the physical memory. The first two page tables, which loader.asm fills, map
the first 8 MB onto themselves, and no function changes them; the kernel reaches every
other address through its page directory. A page is one word of its table, and the
address field of a word without a page is 0xFFFFF.
-/
namespace Delos.Source
open Lib (ByteMemory Bitmap Program)

/-- `PAGE_TABLE_COUNT` and `PAGE_TABLE_ENTRIES` -/
def pageTableEntries : Nat := 1024

/-- `PAGE_DIR_ADDR` -/
def pageDirAddr : Nat := 0x9A000

/-- `PAGE_TABLE_START_ADDR` -/
def pageTableStartAddr : Nat := 0x400000

/-- `FRAME_SIZE` -/
def frameSize : Nat := 0x1000

/-- `FRAMES_COUNT` -/
def framesCount : Nat := 1 + 0x100000000 / frameSize / 32

/-- `KERNEL_HEAP_START_PAGE` and `FS_START_PAGE`: five tables each. -/
def kernelHeapStartPage : Nat := 769
def fsStartPage : Nat := 774

/-- The address field of an entry that is not used. -/
def unusedAddr : Nat := 0xFFFFF

/-- The end of the memory that is mapped onto itself. -/
def identityEnd : Nat := 0x800000

structure Paging where
  frames : Bitmap 32
  framesBitmapSize : Nat
  lastPageTableAddr : Nat
  memory : ByteMemory

inductive MapFault where
  /-- `_panic()`: all frames are taken up, or all pages are already mapped. -/
  | panic
  /-- An index behind the end of `frames`. -/
  | wildFrame
  | pageFault
  /-- `list_get` returned NULL, which is used as a pointer. -/
  | nullPage
  /-- Bytes behind the end of a program are used. -/
  | wildProgram
  deriving DecidableEq, Repr

abbrev Mapper (α : Type) := Program Paging MapFault α

def runIf (condition : Prop) [Decidable condition] (x : Mapper Unit) : Mapper Unit :=
  if condition then x else pure ()

/-! ## Frames -/

def frameWord (i : Nat) : Mapper (BitVec 32) := do
  let s ← get
  if i < framesCount then pure (s.frames i) else throw .wildFrame

def setFrameWord (i : Nat) (word : BitVec 32) : Mapper Unit := do
  let s ← get
  if i < framesCount then set { s with frames := Function.update s.frames i word } else throw .wildFrame

/-- `physical_frames`; the differences wrap. -/
@[irreducible] def physicalFrames (physicalMemSize kernelSize : Nat) : Nat :=
  let frames := (physicalMemSize / frameSize + wordModulus - kernelSize / frameSize) % wordModulus
  if kernelSize % frameSize ≠ 0 then (frames + wordModulus - 1) % wordModulus else frames

/-- The inner loop of `get_number_of_free_frames`. -/
def countFree (word : BitVec 32) : Nat → Nat → Nat
  | 0, _ => 0
  | left + 1, j => (if (word >>> j) &&& 1#32 = 0#32 then 1 else 0) + countFree word left (j + 1)

def countFreeLoop : Nat → Nat → Mapper Nat
  | 0, _ => pure 0
  | left + 1, i => do
    let word ← frameWord i
    let free := if word ≠ 0xFFFFFFFF#32 then countFree word 32 0 else 0
    let rest ← countFreeLoop left (i + 1)
    pure (free + rest)

def getNumberOfFreeFrames : Mapper Nat := do
  let s ← get
  countFreeLoop s.framesBitmapSize 0

/-- The inner loop of `allocate_frame`. -/
def firstFreeBit (word : BitVec 32) : Nat → Nat → Option Nat
  | 0, _ => none
  | left + 1, j => if (word >>> j) &&& 1#32 = 0#32 then some j else firstFreeBit word left (j + 1)

def frameSetState (frameIndex occupied : Nat) : Mapper Unit := do
  let byteNum := frameIndex / 32
  let bitNum := frameIndex % 32
  let mask := 1#32 <<< bitNum
  let word ← frameWord byteNum
  if occupied = 1 then setFrameWord byteNum (word ||| mask)
  else if occupied = 0 then setFrameWord byteNum (word &&& ~~~mask)
  else pure ()

def allocateFrameLoop : Nat → Nat → Mapper Nat
  | 0, _ => throw .panic
  | left + 1, i => do
    let word ← frameWord i
    match (if word ≠ 0xFFFFFFFF#32 then firstFreeBit word 32 0 else none) with
    | some j => do
      frameSetState (i * 32 + j) 1
      pure (i * 32 + j)
    | none => allocateFrameLoop left (i + 1)

def allocateFrame : Mapper Nat := do
  let s ← get
  allocateFrameLoop s.framesBitmapSize 0

/-- The words of the first 8 MB. -/
def lockLoop : Nat → Nat → Mapper Unit
  | 0, _ => pure ()
  | left + 1, i => do
    setFrameWord i 0xFFFFFFFF#32
    lockLoop left (i + 1)

/-- The bits of the last word that are no frames are to be locked. -/
def lockRemainder (frames : Nat) : Mapper Unit := do
  modify fun s => { s with framesBitmapSize := frames / 32 + 1 }
  let word ← frameWord (frames / 32)
  setFrameWord (frames / 32) (word ||| ~~~(1#32 <<< (31 - frames % 32)))

/-- `paging_init` up to the bitmap. -/
def initFrames (physicalMemSize kernelSize : Nat) : Mapper Unit := do
  let frames := physicalFrames physicalMemSize kernelSize
  modify fun s => { s with frames := fun _ => 0#32, framesBitmapSize := frames / 32 }
  runIf (frames % 32 ≠ 0) (lockRemainder frames)
  lockLoop (2 * (0x400000 / (frameSize * 32))) 0

/-! ## Entries -/

/-- `page_table_addr` of a directory entry and `physical_page_addr` of a page. -/
def entryAddr (word : Nat) : Nat := word / 0x1000

def setEntryAddr (a word : Nat) : Nat := a % 0x100000 * 0x1000 + word % 0x1000

/-- A field of one bit: `present` is bit 0, `read_write` bit 1 and `user_mode` bit 2. -/
def entryBit (bit word : Nat) : Nat := word / 2 ^ bit % 2

def setEntryBit (bit v word : Nat) : Nat :=
  word / 2 ^ (bit + 1) * 2 ^ (bit + 1) + v % 2 * 2 ^ bit + word % 2 ^ bit

/-- What the processor makes of an address with the page directory at `dir`. -/
def translate (memory : ByteMemory) (dir a : Nat) : Option Nat :=
  let table := memory.read32 (dir + 4 * (a / 0x400000))
  if entryBit 0 table = 1 then
    let page := memory.read32 (entryAddr table * frameSize + 4 * (a / frameSize % pageTableEntries))
    if entryBit 0 page = 1 then some (entryAddr page * frameSize + a % frameSize) else none
  else none

/-- The physical address behind an address of the kernel. -/
def kernelAddr (a : Nat) : Mapper Nat := do
  let s ← get
  if a < identityEnd then pure a
  else match translate s.memory pageDirAddr a with
    | some p => pure p
    | none => throw .pageFault

def readEntry (a : Nat) : Mapper Nat := do
  let p ← kernelAddr a
  let s ← get
  pure (s.memory.read32 p)

def writeEntry (a word : Nat) : Mapper Unit := do
  let p ← kernelAddr a
  modify fun s => { s with memory := s.memory.write32 p word }

def updateEntry (a : Nat) (f : Nat → Nat) : Mapper Unit := do
  let word ← readEntry a
  writeEntry a (f word)

/-- `memset` to zero, then the address that marks an unused entry. -/
def clearEntry (a : Nat) : Mapper Unit := do
  writeEntry a 0
  updateEntry a (setEntryAddr unusedAddr)

/-- The entry of a table that is in use from now on. -/
def fillEntry (a addr user : Nat) : Mapper Unit := do
  updateEntry a (setEntryAddr addr)
  updateEntry a (setEntryBit 1 1)
  updateEntry a (setEntryBit 0 1)
  updateEntry a (setEntryBit 2 user)

def clearTable (table : Nat) : Nat → Nat → Mapper Unit
  | 0, _ => pure ()
  | left + 1, i => do
    clearEntry (table + 4 * i)
    clearTable table left (i + 1)

/-- `&kernel_page_dir->page_tables[i]` -/
def dirEntry (i : Nat) : Nat := pageDirAddr + 4 * i

/-- `kernel_page_dir->page_tables[i].page_table_addr << 12` -/
def pageTable (i : Nat) : Mapper Nat := do
  let word ← readEntry (dirEntry i)
  pure (entryAddr word * frameSize)

/-! ## Pages -/

def allocatePageTable (pageTableIndex user : Nat) : Mapper Nat := do
  let word ← readEntry (dirEntry pageTableIndex)
  if entryAddr word ≠ unusedAddr then pure (entryAddr word * frameSize)
  else do
    let table := (← get).lastPageTableAddr
    clearTable table pageTableEntries 0
    fillEntry (dirEntry pageTableIndex) (table / frameSize) user
    modify fun s => { s with lastPageTableAddr := (table + 0x1000) % wordModulus }
    pure table

/-- The frame is taken before the page is looked at. -/
def allocatePageAt (pageTableIndex pageIndex user : Nat) : Mapper Nat := do
  let frameIndex ← allocateFrame
  let frameAddr := frameIndex * frameSize % wordModulus
  let word ← readEntry (dirEntry pageTableIndex)
  runIf (entryAddr word = unusedAddr) do
    let _ ← allocatePageTable pageTableIndex user
  let table ← pageTable pageTableIndex
  let page ← readEntry (table + 4 * pageIndex)
  if entryAddr page ≠ unusedAddr then pure (pageTableIndex % 0x400 * 0x400000 + pageIndex % 0x400 * 0x1000)
  else do
    fillEntry (table + 4 * pageIndex) (frameAddr / frameSize) user
    pure (pageTableIndex % 0x400 * 0x400000 + pageIndex % 0x400 * 0x1000)

/-- The first page of a table that is not mapped. -/
def firstUnused (table : Nat) : Nat → Nat → Mapper (Option Nat)
  | 0, _ => pure none
  | left + 1, j => do
    let page ← readEntry (table + 4 * j)
    if entryAddr page = unusedAddr then pure (some j) else firstUnused table left (j + 1)

def allocatePageLoop (user : Nat) : Nat → Nat → Mapper Nat
  | 0, _ => throw .panic
  | left + 1, i =>
    if i = 0 ∨ i = 1 ∨ i ≥ 768 then allocatePageLoop user left (i + 1)
    else do
      let word ← readEntry (dirEntry i)
      if entryAddr word ≠ unusedAddr then do
        match ← firstUnused (entryAddr word * frameSize) pageTableEntries 0 with
        | some j => allocatePageAt i j user
        | none => allocatePageLoop user left (i + 1)
      else do
        let _ ← allocatePageTable i user
        allocatePageAt i 0 user

def allocatePage (user : Nat) : Mapper Nat := allocatePageLoop user pageTableEntries 0

def unmapPage (virtualAddr : Nat) : Mapper Unit := do
  let table ← pageTable (virtualAddr / 0x400000)
  let a := table + 4 * (virtualAddr / 0x1000 % 0x400)
  let page ← readEntry a
  if entryAddr page = unusedAddr then pure ()
  else do
    frameSetState (entryAddr page * 0x1000 / frameSize) 0
    clearEntry a

/-! ## paging_init -/

def mapPages (i : Nat) : Nat → Nat → Mapper Unit
  | 0, _ => pure ()
  | left + 1, j => do
    let _ ← allocatePageAt i j 1
    mapPages i left (j + 1)

/-- `map_kernel_heap` and `map_filesystem` -/
def mapTables : Nat → Nat → Mapper Unit
  | 0, _ => pure ()
  | left + 1, i => do
    let _ ← allocatePageTable i 1
    mapPages i pageTableEntries 0
    mapTables left (i + 1)

def mapKernelHeap : Mapper Unit := mapTables 5 kernelHeapStartPage

def mapFilesystem : Mapper Unit := mapTables 5 fsStartPage

def clearDir : Nat → Nat → Mapper Unit
  | 0, _ => pure ()
  | left + 1, i =>
    if i = 0 ∨ i = 1 ∨ i = 768 then clearDir left (i + 1)
    else do
      clearEntry (dirEntry i)
      clearDir left (i + 1)

def pagingInit (physicalMemSize kernelSize : Nat) : Mapper Unit := do
  initFrames physicalMemSize kernelSize
  clearDir pageTableEntries 0
  modify fun s => { s with lastPageTableAddr := pageTableStartAddr }
  mapKernelHeap
  mapFilesystem

end Delos.Source
