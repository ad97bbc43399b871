import Delos.Source.Paging
import Delos.Source.Process

/-!
# elf_loader.cpp: the segments of a program

`load_elf_file` runs in the address space of the kernel: the pages of the process, its
page tables and its page directory are written where the kernel has them mapped. The
lists of the kernel are lists; `list_get` behind the end of one stops the run.
-/
namespace Delos.Source
open Lib (ByteMemory)

/-- `PF_X`, `PF_W` and `PF_R` -/
def pfX : Nat := 0x1
def pfW : Nat := 0x2
def pfR : Nat := 0x4

/-- A little-endian field of the image. -/
def codeField (code : List UInt8) (offset width : Nat) : Nat :=
  ByteMemory.leValue ((code.drop offset).take width)

/-- Bytes of the image; there are none behind its end. -/
def codeBytes (code : List UInt8) (offset size : Nat) : Mapper (List UInt8) :=
  let bytes := (code.drop offset).take size
  if bytes.length = size then pure bytes else throw .wildProgram

/-- The fields of `elf_header_t` that are read. -/
def eEntry (code : List UInt8) : Nat := codeField code 24 4
def ePhoff (code : List UInt8) : Nat := codeField code 28 4
def ePhnum (code : List UInt8) : Nat := codeField code 44 2

/-- `elf_program_header_t` up to `p_flags` -/
structure ProgramHeader where
  type : Nat
  offset : Nat
  vaddr : Nat
  paddr : Nat
  filesz : Nat
  memsz : Nat
  flags : Nat
  deriving DecidableEq, Repr

def programHeader (code : List UInt8) (ph : Nat) : ProgramHeader where
  type := codeField code ph 4
  offset := codeField code (ph + 4) 4
  vaddr := codeField code (ph + 8) 4
  paddr := codeField code (ph + 12) 4
  filesz := codeField code (ph + 16) 4
  memsz := codeField code (ph + 20) 4
  flags := codeField code (ph + 24) 4

/-- `validate_elf`: 1 if the image does not start as an ELF file does. -/
def validateElf (code : List UInt8) : Nat :=
  if code.take 4 = [0x7F, 0x45, 0x4C, 0x46] then 0 else 1

/-- The fields of the PCB that make up the address space. -/
structure AddressSpace where
  /-- where the kernel has the page directory mapped -/
  pageDirKernelMapping : Nat
  cr3 : Nat
  eip : Nat
  /-- where the kernel has the page tables mapped -/
  pageTables : List Nat

/-- The lists that `allocate_segment` works on. -/
structure SegmentLists where
  pageTables : List Nat
  pageTableIndexes : List Nat
  dataPages : List Nat

/-- `memcpy` to an address of the kernel -/
def memcpyTo : Nat → List UInt8 → Mapper Unit
  | _, [] => pure ()
  | a, b :: rest => do
    let p ← kernelAddr a
    modify fun s => { s with memory := s.memory.writeByte p b }
    memcpyTo (a + 1) rest

/-- The frame number of a page that the kernel has mapped. -/
def pageFrame (pageVirtAddr : Nat) : Mapper Nat := do
  let table ← pageTable (pageVirtAddr / 0x400000)
  let page ← readEntry (table + 4 * (pageVirtAddr / 0x1000 % 0x400))
  pure (entryAddr page)

/-- An entry of the process: writable, for the user, present. -/
def mapEntry (a addr : Nat) : Mapper Unit := do
  updateEntry a (setEntryAddr addr)
  updateEntry a (setEntryBit 1 1)
  updateEntry a (setEntryBit 2 1)
  updateEntry a (setEntryBit 0 1)

/-- The page table of the process for one directory entry: the last one if the index is in
the list, else a new one. -/
def segmentTable (dir i : Nat) (lists : SegmentLists) : Mapper (Nat × SegmentLists) :=
  if i ∈ lists.pageTableIndexes then
    match lists.pageTables.getLast? with
    | some codePageTable => pure (codePageTable, lists)
    | none => throw .nullPage
  else do
    let codePageTable ← allocatePage 1
    clearTable codePageTable pageTableEntries 0
    let addr ← pageFrame codePageTable
    mapEntry (dir + 4 * i) addr
    pure (codePageTable, { lists with
      pageTables := lists.pageTables ++ [codePageTable]
      pageTableIndexes := lists.pageTableIndexes ++ [i] })

/-- The pages of one table from `j` on. -/
def segmentPages (codePageTable : Nat) : Nat → Nat → List Nat → Mapper (List Nat)
  | 0, _, dataPages => pure dataPages
  | left + 1, j, dataPages => do
    let pageVirtAddr ← allocatePage 1
    let addr ← pageFrame pageVirtAddr
    mapEntry (codePageTable + 4 * j) addr
    segmentPages codePageTable left (j + 1) (dataPages ++ [pageVirtAddr])

/-- The pages that hold the addresses from `startVirtAddr` up to and with `endVirtAddr`. -/
def segmentTables (dir startVirtAddr endVirtAddr : Nat) : Nat → Nat → SegmentLists → Mapper SegmentLists
  | 0, _, lists => pure lists
  | left + 1, i, lists => do
    let (codePageTable, lists) ← segmentTable dir i lists
    let first := if i = startVirtAddr / 0x400000 then startVirtAddr / 0x1000 % 0x400 else 0
    let last := if i = endVirtAddr / 0x400000 then endVirtAddr / 0x1000 % 0x400 else pageTableEntries - 1
    let dataPages ← segmentPages codePageTable (last + 1 - first) first lists.dataPages
    segmentTables dir startVirtAddr endVirtAddr left (i + 1) { lists with dataPages := dataPages }

/-- The next bytes go to the first page of the list, which then leaves the kernel's mapping;
its frame stays occupied. -/
def copyPage (data : List UInt8) (offset size : Nat) : List Nat → Mapper (List Nat)
  | [] => throw .nullPage
  | pageVirtAddr :: rest => do
    let bytes ← codeBytes data offset size
    memcpyTo pageVirtAddr bytes
    let table ← pageTable (pageVirtAddr / 0x400000)
    clearEntry (table + 4 * (pageVirtAddr / 0x1000 % 0x400))
    pure rest

def copyPages (data : List UInt8) : Nat → Nat → List Nat → Mapper (Nat × List Nat)
  | 0, offset, dataPages => pure (offset, dataPages)
  | left + 1, offset, dataPages => do
    let rest ← copyPage data offset frameSize dataPages
    copyPages data left ((offset + frameSize) % wordModulus) rest

/-- `pages_needed` -/
def pagesNeeded (dataSize : Nat) : Nat :=
  if dataSize % frameSize ≠ 0 then dataSize / frameSize + 1 else dataSize / frameSize

/-- `pages_needed - 1`, which wraps. -/
def fullCopies (dataSize : Nat) : Nat := (pagesNeeded dataSize + wordModulus - 1) % wordModulus

def allocateSegment (startVirtAddr endVirtAddr dir : Nat) (data : List UInt8) (dataSize : Nat)
    (lists : SegmentLists) : Mapper SegmentLists := do
  let lists ← segmentTables dir startVirtAddr endVirtAddr
    (endVirtAddr / 0x400000 + 1 - startVirtAddr / 0x400000) (startVirtAddr / 0x400000) { lists with dataPages := [] }
  let (offset, dataPages) ← copyPages data (fullCopies dataSize) 0 lists.dataPages
  let rest ← copyPage data offset (dataSize % frameSize) dataPages
  pure { lists with dataPages := rest }

/-- The program headers from `ph` on. -/
def loadSegments (code : List UInt8) (dir : Nat) : Nat → Nat → Nat → SegmentLists → Mapper (Nat × SegmentLists)
  | 0, _, eip, lists => pure (eip, lists)
  | left + 1, ph, eip, lists => do
    let _ ← codeBytes code ph 4
    let header := programHeader code ph
    if header.type = 1 then do
      let _ ← codeBytes code ph 28
      let lists ← allocateSegment header.vaddr ((header.vaddr + header.filesz) % wordModulus) dir
        (code.drop header.offset) header.filesz lists
      let eip := if header.flags = pfX + pfR + pfW ∨ header.flags = pfX + pfR then eEntry code else eip
      loadSegments code dir left (ph + 32) eip lists
    else loadSegments code dir left (ph + 32) eip lists

/-- `load_elf_file`; `image` is the code of each program in the table. -/
def loadElfFile (image : String → List UInt8) (filename : CString) (pcb : AddressSpace) : Mapper (Nat × AddressSpace) :=
  match getProgram filename with
  | none => pure (1, pcb)
  | some program => do
    let code := image program
    if validateElf code = 1 then pure (1, pcb)
    else do
      let _ ← codeBytes code 0 46
      let (eip, lists) ← loadSegments code pcb.pageDirKernelMapping (ePhnum code) (ePhoff code) pcb.eip
        ⟨pcb.pageTables, [], []⟩
      pure (0, { pcb with eip := eip, pageTables := lists.pageTables })

end Delos.Source
