import Delos.Lib.Program
import Delos.Source.Heap

/-!
# vfs.cpp: the file system of the kernel

The state holds three windows of the address space: the page at address 0, the
kernel heap and the file system. Pointers are addresses; `file_t` and `folder_t`
are packed records read field by field. The layout is that of the i686 compiler:
`fat12_t` takes two bytes and an assignment keeps the upper four bits of the
second, `file_t` takes 25 bytes with both flags in the last one, `folder_t` eight.
An access outside the windows, and a NULL from `kmalloc`, stop the model.
-/
namespace Delos.Source
open Lib (ByteMemory Program)

def fileNameLen : Nat := 16
def eofCluster : Nat := 0xFFF
def freeCluster : Nat := 0xFFE
def takenCluster : Nat := 0xFFD
def clusterSize : Nat := 64

/-- `CLUSTER_COUNT`: the minimum is 0xFFF, as `FS_SIZE / 66` is larger. -/
def clusterCount : Nat := 0xFFF

/-- `sizeof(fat12_t)` -/
def fatEntrySize : Nat := 2

/-- `sizeof(file_t)` -/
def fileRecordSize : Nat := 25

/-- `sizeof(folder_t)` -/
def folderSize : Nat := 8

def fsStartAddr : Nat := 0xC1800000
def fsSize : Nat := 20 * 1024 * 1024
def pageSize : Nat := 4096
def clusterStartAddr : Nat := fsStartAddr + fatEntrySize * clusterCount

/-- `CLUSTER_ADDR(index)` -/
def clusterAddr (index : Nat) : Nat := (clusterStartAddr + index * clusterSize) % wordModulus

def rootFirstStartCluster : Nat := 0
def maxFilesInFirstCluster : Nat := (clusterSize - 4) / fileRecordSize
def maxFilesInOneCluster : Nat := clusterSize / fileRecordSize

/-- Why the model has no state after a call. -/
inductive Stop where
  /-- `_panic()` -/
  | panic
  /-- `kmalloc` returned NULL, which its callers do not test. -/
  | outOfMemory
  | wildAccess
  /-- A loop that never ends. -/
  | endless
  deriving DecidableEq, Repr

inductive Color where
  | red | lightRed | lightGray | green | cyan | yellow
  /-- The colour a process asked for. -/
  | value (bits : UInt8)
  deriving DecidableEq, Repr

inductive ScreenCall where
  | setColor (color : Color)
  | resetColor
  | kprintf (text : String)
  /-- A text with the bytes of a file, a name or a process in it. -/
  | kprintfBytes (bytes : List UInt8)
  | clearScreen
  | setCursor (offset : Nat)
  /-- `print_terminal_index` -/
  | terminalIndex (index : Nat)
  deriving DecidableEq, Repr

/-- A C string: the bytes before the terminator. -/
structure CString where
  bytes : List UInt8
  plain : (0 : UInt8) ∉ bytes
  deriving DecidableEq

theorem plain_nil : (0 : UInt8) ∉ [] := List.not_mem_nil

structure Fs where
  page0 : ByteMemory
  heap : ByteMemory
  disk : ByteMemory
  /-- `static folder_t *root` -/
  root : Nat
  screen : List ScreenCall
  deriving DecidableEq

abbrev Kernel (α : Type) := Program Fs Stop α

/-- An `if` without `else` in front of further statements. -/
def doIf (condition : Prop) [Decidable condition] (x : Kernel Unit) : Kernel Unit :=
  if condition then x else pure ()

/-! ## Memory -/

def readMemory (a n : Nat) : Kernel (List UInt8) := do
  let s ← get
  if a + n ≤ pageSize then pure (s.page0.readBytes a n)
  else if kernelHeap.addr ≤ a ∧ a + n ≤ fsStartAddr then pure (s.heap.readBytes a n)
  else if fsStartAddr ≤ a ∧ a + n ≤ fsStartAddr + fsSize then pure (s.disk.readBytes a n)
  else throw .wildAccess

def writeMemory (a : Nat) (bytes : List UInt8) : Kernel Unit := do
  if a + bytes.length ≤ pageSize then
    modify fun s => { s with page0 := s.page0.writeBytes a bytes }
  else if kernelHeap.addr ≤ a ∧ a + bytes.length ≤ fsStartAddr then
    modify fun s => { s with heap := s.heap.writeBytes a bytes }
  else if fsStartAddr ≤ a ∧ a + bytes.length ≤ fsStartAddr + fsSize then
    modify fun s => { s with disk := s.disk.writeBytes a bytes }
  else throw .wildAccess

def readWord (a : Nat) : Kernel Nat := do
  let bytes ← readMemory a 4
  pure (ByteMemory.leValue bytes)

def writeWord (a v : Nat) : Kernel Unit := writeMemory a (ByteMemory.leBytes 4 v)

/-- `memcpy` does nothing when one of the pointers is NULL. -/
def memcpy (dest src size : Nat) : Kernel Unit :=
  if dest = 0 ∨ src = 0 then pure ()
  else do
    let bytes ← readMemory src size
    writeMemory dest bytes

/-- `strcmp(str1, str2) == 0` for a string in memory. -/
def sameString (a : Nat) : List UInt8 → Kernel Bool
  | [] => pure true
  | c :: rest => do
    let b ← readMemory a 1
    if b = [c] then sameString (a + 1) rest else pure false

/-- `strcpy` writes the terminator twice. -/
def strcpy (dest : Nat) (src : CString) : Kernel Unit :=
  if dest = 0 then pure () else writeMemory dest (src.bytes ++ [0, 0])

def kmalloc (size : Nat) : Kernel Nat := do
  let s ← get
  match heapMalloc kernelHeap size s.heap with
  | none => throw .endless
  | some (p, heap) =>
    if p = 0 then throw .outOfMemory
    else do
      modify fun s => { s with heap := heap }
      pure p

def kfree (ptr : Nat) : Kernel Unit :=
  modify fun s => { s with heap := heapFree kernelHeap ptr s.heap }

def emit (call : ScreenCall) : Kernel Unit :=
  modify fun s => { s with screen := s.screen ++ [call] }

/-- The three lines in front of every `_panic()` of the file system. -/
def panicWith (message : String) : Kernel Unit := do
  emit (.setColor .red)
  emit (.kprintf message)
  throw .panic

def ensure (condition : Bool) (message : String) : Kernel Unit :=
  if condition then pure () else panicWith message

/-! ## Fields of `folder_t` and `file_t` -/

def rootPointer : Kernel Nat := do
  let s ← get
  pure s.root

def setRootPointer (p : Nat) : Kernel Unit := modify fun s => { s with root := p }

def rootFileCount : Kernel Nat := do
  let root ← rootPointer
  readWord root

def rootFiles : Kernel Nat := do
  let root ← rootPointer
  readWord (root + 4)

def setRootFileCount (v : Nat) : Kernel Unit := do
  let root ← rootPointer
  writeWord root v

def setRootFiles (v : Nat) : Kernel Unit := do
  let root ← rootPointer
  writeWord (root + 4) v

/-- `&files[index]` -/
def fileAt (files index : Nat) : Nat := files + index * fileRecordSize

def fileStartClusterIndex (file : Nat) : Kernel Nat := readWord (file + 16)
def setFileStartClusterIndex (file v : Nat) : Kernel Unit := writeWord (file + 16) v
def fileSize (file : Nat) : Kernel Nat := readWord (file + 20)
def setFileSize (file v : Nat) : Kernel Unit := writeWord (file + 20) v

/-- Flag bit 0 is `open`, bit 1 is `system`. -/
def flagBit (flags : UInt8) (bit : Nat) : Bool := flags.toNat / 2 ^ bit % 2 == 1

def withFlagBit (flags : UInt8) (bit : Nat) (v : Bool) : UInt8 :=
  UInt8.ofNat (flags.toNat - flags.toNat / 2 ^ bit % 2 * 2 ^ bit + (if v then 2 ^ bit else 0))

def fileFlag (bit file : Nat) : Kernel Bool := do
  let flags ← readMemory (file + 24) 1
  pure (flagBit (flags.headD 0) bit)

def setFileFlag (bit file : Nat) (v : Bool) : Kernel Unit := do
  let flags ← readMemory (file + 24) 1
  writeMemory (file + 24) [withFlagBit (flags.headD 0) bit v]

def fileOpen (file : Nat) : Kernel Bool := fileFlag 0 file
def setFileOpen (file : Nat) (v : Bool) : Kernel Unit := setFileFlag 0 file v
def fileSystem (file : Nat) : Kernel Bool := fileFlag 1 file
def setFileSystem (file : Nat) (v : Bool) : Kernel Unit := setFileFlag 1 file v

/-! ## The FAT -/

/-- `fat[i].value` for an index inside the table. -/
def fatValue (disk : ByteMemory) (i : Nat) : Nat :=
  ByteMemory.leValue (disk.readBytes (fsStartAddr + fatEntrySize * i) 2) % 0x1000

def fatAddr (i : Nat) : Nat := (fsStartAddr + fatEntrySize * i) % wordModulus

def fat (i : Nat) : Kernel Nat := do
  let bytes ← readMemory (fatAddr i) 2
  pure (ByteMemory.leValue bytes % 0x1000)

def setFat (i v : Nat) : Kernel Unit := do
  let bytes ← readMemory (fatAddr i) 2
  writeMemory (fatAddr i)
    (ByteMemory.leBytes 2 (ByteMemory.leValue bytes / 0x1000 * 0x1000 + v % 0x1000))

def existsNFreeClustersLoop (disk : ByteMemory) (n : Nat) : Nat → Nat → Nat → Bool
  | 0, _, _ => false
  | left + 1, i, freeClusters =>
    let freeClusters := freeClusters + (if fatValue disk i = freeCluster then 1 else 0)
    if freeClusters ≥ n then true else existsNFreeClustersLoop disk n left (i + 1) freeClusters

def existsNFreeClusters (n : Nat) : Kernel Bool := do
  let s ← get
  pure (existsNFreeClustersLoop s.disk n clusterCount 0 0)

def getClusterCountNeeded (size : Nat) : Nat :=
  size / clusterSize + (if size % clusterSize ≠ 0 then 1 else 0)

def firstFreeCluster (disk : ByteMemory) : Nat → Nat → Option Nat
  | 0, _ => none
  | left + 1, i =>
    if fatValue disk i = freeCluster then some i else firstFreeCluster disk left (i + 1)

def getFreeCluster : Kernel Nat := do
  let s ← get
  match firstFreeCluster s.disk clusterCount 0 with
  | some i => do
    setFat i takenCluster
    pure i
  | none => do
    panicWith "ERR: all clusters are full"
    pure takenCluster

/-- The walk that sets a chain as free, up to the EOF cluster. -/
def freeClustersLoop : Nat → Nat → Kernel Nat
  | 0, _ => throw .endless
  | bound + 1, currCluster => do
    let value ← fat currCluster
    if value ≠ eofCluster ∧ value ≠ freeCluster then do
      setFat currCluster freeCluster
      freeClustersLoop bound value
    else pure currCluster

/-- A walk of more than 0x1000 steps repeats an index and never ends. -/
def walkBound : Nat := 0x1001

def freeAllOccupiedClusters (startCluster : Nat) : Kernel Unit := do
  let currCluster ← fat startCluster
  let currCluster ← freeClustersLoop walkBound currCluster
  setFat currCluster freeCluster

/-! ## The root folder -/

def freeRootDir : Kernel Unit := do
  let root ← rootPointer
  if root = 0 then pure ()
  else do
    let files ← rootFiles
    doIf (files ≠ 0) do
      kfree files
      setRootFiles 0
    kfree root
    setRootPointer 0

/-- The clusters that are full of records, all but the first and the last one. -/
def saveClustersLoop : Nat → Nat → Nat → Kernel (Nat × Nat)
  | 0, prevCluster, fileIndex => pure (prevCluster, fileIndex)
  | left + 1, prevCluster, fileIndex => do
    let currCluster ← getFreeCluster
    setFat prevCluster currCluster
    let files ← rootFiles
    memcpy (clusterAddr currCluster) (fileAt files fileIndex) (maxFilesInOneCluster * fileRecordSize)
    saveClustersLoop left currCluster (fileIndex + maxFilesInOneCluster)

def rootFolderSize (fileCount : Nat) : Nat := (4 + fileCount * fileRecordSize) % wordModulus

def saveRootFolder : Kernel Unit := do
  let fileCount ← rootFileCount
  let clustersNeeded := getClusterCountNeeded (rootFolderSize fileCount)
  let enough ← existsNFreeClusters clustersNeeded
  ensure enough "ERR: there is not enough space to store the root folder"
  let root ← rootPointer
  memcpy (clusterAddr rootFirstStartCluster) root 4
  let files ← rootFiles
  memcpy (clusterAddr rootFirstStartCluster + 4) files
    (min maxFilesInFirstCluster fileCount * fileRecordSize)
  if fileCount ≤ maxFilesInFirstCluster then do
    let currCluster ← getFreeCluster
    setFat rootFirstStartCluster currCluster
    setFat currCluster eofCluster
  else do
    let (prevCluster, fileIndex) ←
      saveClustersLoop ((clustersNeeded + wordModulus - 2) % wordModulus) rootFirstStartCluster maxFilesInFirstCluster
    let currCluster ← getFreeCluster
    setFat prevCluster currCluster
    memcpy (clusterAddr currCluster) (fileAt files fileIndex)
      ((fileCount + wordModulus - fileIndex) * fileRecordSize % wordModulus)
    let eof ← getFreeCluster
    setFat currCluster eof
    setFat eof eofCluster

/-- All clusters except for the last one, as long as two more links follow. -/
def loadClustersLoop : Nat → Nat → Nat → Kernel (Nat × Nat)
  | 0, _, _ => throw .endless
  | bound + 1, currCluster, fileIndex => do
    let first ← fat currCluster
    let second ← fat first
    let third ← fat second
    if third ≠ eofCluster then do
      let files ← rootFiles
      memcpy (fileAt files fileIndex) (clusterAddr first) (maxFilesInOneCluster * fileRecordSize)
      loadClustersLoop bound first (fileIndex + maxFilesInOneCluster)
    else pure (currCluster, fileIndex)

def missingEof : String := "ERR: the rood directory was not loaded properly (missing EOF)"

def loadRootFolder : Kernel Unit := do
  let old ← rootPointer
  doIf (old ≠ 0) freeRootDir
  let root ← kmalloc folderSize
  setRootPointer root
  memcpy root (clusterAddr rootFirstStartCluster) 4
  let fileCount ← rootFileCount
  let files ← kmalloc (fileCount * fileRecordSize % wordModulus)
  setRootFiles files
  memcpy files (clusterAddr rootFirstStartCluster + 4)
    (min maxFilesInFirstCluster fileCount * fileRecordSize)
  if fileCount ≤ maxFilesInFirstCluster then do
    let currCluster ← fat rootFirstStartCluster
    let value ← fat currCluster
    ensure (value == eofCluster) missingEof
  else do
    let (currCluster, fileIndex) ←
      loadClustersLoop walkBound rootFirstStartCluster maxFilesInFirstCluster
    let currCluster ← fat currCluster
    memcpy (fileAt files fileIndex) (clusterAddr currCluster)
      ((fileCount + wordModulus - fileIndex) * fileRecordSize % wordModulus)
    let currCluster ← fat currCluster
    let value ← fat currCluster
    ensure (value == eofCluster) missingEof

/-! ## Files of the loaded root folder -/

/-- A name that does not fit with its terminator is cut off. -/
def normalizeFilename (filename : CString) : CString :=
  ⟨filename.bytes.take (fileNameLen - 1), fun inside => filename.plain (List.mem_of_mem_take inside)⟩

def findFile (filename : CString) (files : Nat) : Nat → Nat → Kernel (Option Nat)
  | 0, _ => pure none
  | left + 1, i => do
    let same ← sameString (fileAt files i) (filename.bytes ++ [0])
    if same then pure (some i) else findFile filename files left (i + 1)

/-- The loop over `root->files` shared by the next three functions. -/
def fileIndexOf (filename : CString) : Kernel (Option Nat) := do
  let fileCount ← rootFileCount
  let files ← rootFiles
  findFile filename files fileCount 0

def existsFile (filename : CString) : Kernel Bool := do
  let index ← fileIndexOf filename
  pure index.isSome

def getFile (filename : CString) : Kernel Nat := do
  let index ← fileIndexOf (normalizeFilename filename)
  match index with
  | some i => do
    let files ← rootFiles
    pure (fileAt files i)
  | none => pure 0

end Delos.Source
