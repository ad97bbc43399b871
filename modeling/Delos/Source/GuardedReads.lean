import Delos.Source.VfsReading

/-!
# vfs.cpp: read and cat with a test in front of their accesses

`link` stands in front of every access to the FAT, `data` in front of every copy out of
a cluster, `store` in front of every write to `file_buffer` with the end of the bytes it
touches. With tests that always pass these are `read` and `cat`.
-/
namespace Delos.Source

/-- Passes for the clusters of the list. -/
def within (cells : List Nat) (c : Nat) : Kernel Unit :=
  if c ∈ cells then pure () else throw .wildAccess

/-- Passes as long as the bytes are those of `file_buffer`. -/
def insideBuffer (stop : Nat) : Kernel Unit :=
  if stop ≤ screenBufferSize then pure () else throw .wildAccess

def noTest (_ : Nat) : Kernel Unit := pure ()

section
variable (link data store : Nat → Kernel Unit)

def followClustersTested : Nat → Nat → Kernel Nat
  | 0, currCluster => pure currCluster
  | left + 1, currCluster => do
    link currCluster
    let next ← fat currCluster
    followClustersTested left next

def readLoopTested (len : Nat) : Nat → Nat → Nat → Kernel (List UInt8)
  | 0, _, _ => throw .endless
  | bound + 1, currCluster, bytesRead =>
    if bytesRead = len then pure []
    else do
      link currCluster
      let currCluster ← fat currCluster
      let bytesToRead :=
        if (bytesRead + clusterSize) % wordModulus ≤ len then clusterSize else len - bytesRead
      data currCluster
      let bytes ← readMemory (clusterAddr currCluster) bytesToRead
      let rest ← readLoopTested len bound currCluster ((bytesRead + bytesToRead) % wordModulus)
      pure (bytes ++ rest)

/-- `read` behind the search for the file. -/
def readRange (offset len currCluster size : Nat) : Kernel (Nat × List UInt8) :=
  if (offset + len) % wordModulus > size then do
    emit (.kprintf "the start byte is out of range\n\r")
    pure (1, [])
  else do
    let offsetInStartCluster := offset % clusterSize
    let currCluster ← followClustersTested link (offset / clusterSize) currCluster
    let bytesRead := min len (clusterSize - offsetInStartCluster)
    data currCluster
    let bytes ← readMemory (clusterAddr currCluster + offsetInStartCluster) bytesRead
    if len ≤ clusterSize - offsetInStartCluster then pure (1, bytes)
    else do
      let rest ← readLoopTested link data len (len + 1) currCluster bytesRead
      pure (0, bytes ++ rest)

/-- The start cluster and the size are read after the root folder was freed. -/
def withFile {α : Type} (filename : CString) (f : Nat → Nat → Kernel α) : Kernel α := do
  loadRootFolder
  let file ← getFile filename
  freeRootDir
  let currCluster ← fileStartClusterIndex file
  let size ← fileSize file
  f currCluster size

def readGuarded (filename : CString) (offset len : Nat) : Kernel (Nat × List UInt8) :=
  withFile (normalizeFilename filename) (readRange link data offset len)

def catLoopTested (size : Nat) : Nat → Nat → Nat → List UInt8 → Kernel (List UInt8)
  | 0, _, _, _ => throw .endless
  | bound + 1, currCluster, readBytes, buffer => do
    let value ← fat currCluster
    if value ≠ eofCluster then do
      let bytesLeft := (size + wordModulus - readBytes) % wordModulus
      let bytesToRead := min clusterSize bytesLeft
      let full := decide (buffer.length + bytesToRead ≥ screenBufferSize)
      doIf full do
        store (buffer.length + 1)
        emit (.kprintfBytes (upToNul buffer))
      let buffer := if full then [] else buffer
      store (buffer.length + bytesToRead)
      let bytes ← readMemory (clusterAddr currCluster) bytesToRead
      catLoopTested size bound value ((readBytes + bytesToRead) % wordModulus) (buffer ++ bytes)
    else pure buffer

/-- `cat` behind the last access to the root folder. -/
def printFile (currCluster size : Nat) : Kernel Nat := do
  let buffer ← catLoopTested store size walkBound currCluster 0 []
  store (buffer.length + 1)
  emit (.kprintfBytes (upToNul buffer))
  pure 0

/-- `cat` behind the search for the file. -/
def printFound (file : Nat) : Kernel Nat :=
  if file = 0 then do
    emit (.kprintf "file not found\n\r")
    freeRootDir
    pure 1
  else do
    let currCluster ← fileStartClusterIndex file
    let size ← fileSize file
    freeRootDir
    printFile store currCluster size

def catGuarded (filename : CString) : Kernel Nat := do
  let filename := normalizeFilename filename
  loadRootFolder
  let file ← getFile filename
  printFound store file

end

/-! ## Without tests -/

theorem followClustersTested_none (left c : Nat) :
    followClustersTested noTest left c = followClusters left c := by
  induction left generalizing c with
  | zero => rfl
  | succ left ih =>
    unfold followClustersTested followClusters
    simp only [noTest, pure_bind, ih]

theorem readLoopTested_none (len bound c bytesRead : Nat) :
    readLoopTested noTest noTest len bound c bytesRead = readLoop len bound c bytesRead := by
  induction bound generalizing c bytesRead with
  | zero => rfl
  | succ bound ih =>
    unfold readLoopTested readLoop
    simp only [noTest, pure_bind, ih]

theorem readGuarded_none (filename : CString) (offset len : Nat) :
    readGuarded noTest noTest filename offset len = read filename offset len := by
  unfold readGuarded withFile read readRange
  simp only [followClustersTested_none, readLoopTested_none]
  simp only [noTest, pure_bind]

theorem catLoopTested_none (size bound c readBytes : Nat) (buffer : List UInt8) :
    catLoopTested noTest size bound c readBytes buffer = catLoop size bound c readBytes buffer := by
  induction bound generalizing c readBytes buffer with
  | zero => rfl
  | succ bound ih =>
    unfold catLoopTested catLoop
    simp only [noTest, pure_bind, ih]

theorem catGuarded_none (filename : CString) : catGuarded noTest filename = cat filename := by
  unfold catGuarded cat printFound printFile
  simp only [catLoopTested_none]
  simp only [noTest, pure_bind]

end Delos.Source
