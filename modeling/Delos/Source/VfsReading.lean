import Delos.Source.VfsOperations

/-!
# vfs.cpp: the operations that only read

`read` hands the bytes over in the order in which it copies them; `cat` collects
them in the static `file_buffer`, which is written out before it would be full.
Neither `read` nor `ls` looks at the result of a search before it is used.
-/
namespace Delos.Source
open Lib (ByteMemory)

/-- `SCREEN_BUFFER_SIZE` -/
def screenBufferSize : Nat := 256

/-- What `%s` prints of a buffer. -/
def upToNul (bytes : List UInt8) : List UInt8 := bytes.takeWhile (· ≠ 0)

/-- `itoa_dec`: the divisions by the unsigned base are those of unsigned numbers. -/
def itoaDec (v : Nat) : List UInt8 := textBytes (toString v)

def fileExists (filename : CString) : Kernel Bool := do
  let filename := normalizeFilename filename
  loadRootFolder
  let file ← getFile filename
  freeRootDir
  pure (file ≠ 0)

/-- The root folder is not freed when the file does not exist. -/
def getFileSize (filename : CString) : Kernel Nat := do
  let filename := normalizeFilename filename
  loadRootFolder
  let file ← getFile filename
  if file = 0 then pure 0
  else do
    let size ← fileSize file
    freeRootDir
    pure size

/-- The bytes that are still missing, cluster by cluster. The sum with the cluster size
wraps when `len` is among the last numbers of the word; the loop then runs on. -/
def readLoop (len : Nat) : Nat → Nat → Nat → Kernel (List UInt8)
  | 0, _, _ => throw .endless
  | bound + 1, currCluster, bytesRead =>
    if bytesRead = len then pure []
    else do
      let currCluster ← fat currCluster
      let bytesToRead :=
        if (bytesRead + clusterSize) % wordModulus ≤ len then clusterSize else len - bytesRead
      let bytes ← readMemory (clusterAddr currCluster) bytesToRead
      let rest ← readLoop len bound currCluster ((bytesRead + bytesToRead) % wordModulus)
      pure (bytes ++ rest)

/-- The result code and the bytes stored in the buffer. A read that ends in the
first cluster returns 1 as well. -/
def read (filename : CString) (offset len : Nat) : Kernel (Nat × List UInt8) := do
  let filename := normalizeFilename filename
  loadRootFolder
  let file ← getFile filename
  freeRootDir
  let currCluster ← fileStartClusterIndex file
  let size ← fileSize file
  if (offset + len) % wordModulus > size then do
    emit (.kprintf "the start byte is out of range\n\r")
    pure (1, [])
  else do
    let offsetInStartCluster := offset % clusterSize
    let currCluster ← followClusters (offset / clusterSize) currCluster
    let bytesRead := min len (clusterSize - offsetInStartCluster)
    let bytes ← readMemory (clusterAddr currCluster + offsetInStartCluster) bytesRead
    if len ≤ clusterSize - offsetInStartCluster then pure (1, bytes)
    else do
      let rest ← readLoop len (len + 1) currCluster bytesRead
      pure (0, bytes ++ rest)

/-- `size - read_bytes` wraps when the chain has more clusters than the size needs. -/
def catLoop (size : Nat) : Nat → Nat → Nat → List UInt8 → Kernel (List UInt8)
  | 0, _, _, _ => throw .endless
  | bound + 1, currCluster, readBytes, buffer => do
    let value ← fat currCluster
    if value ≠ eofCluster then do
      let bytesLeft := (size + wordModulus - readBytes) % wordModulus
      let bytesToRead := min clusterSize bytesLeft
      let full := decide (buffer.length + bytesToRead ≥ screenBufferSize)
      doIf full (emit (.kprintfBytes (upToNul buffer)))
      let bytes ← readMemory (clusterAddr currCluster) bytesToRead
      catLoop size bound value ((readBytes + bytesToRead) % wordModulus)
        ((if full then [] else buffer) ++ bytes)
    else pure buffer

def cat (filename : CString) : Kernel Nat := do
  let filename := normalizeFilename filename
  loadRootFolder
  let file ← getFile filename
  if file = 0 then do
    emit (.kprintf "file not found\n\r")
    freeRootDir
    pure 1
  else do
    let currCluster ← fileStartClusterIndex file
    let size ← fileSize file
    freeRootDir
    let buffer ← catLoop size walkBound currCluster 0 []
    emit (.kprintfBytes (upToNul buffer))
    pure 0

/-- One field of a line of `ls`: the label in grey, the value in the default colour. -/
def lsField (label : String) (value : List UInt8) : Kernel Unit := do
  emit (.setColor .lightGray)
  emit (.kprintf label)
  emit .resetColor
  emit (.kprintfBytes value)

/-- The characters of a string in memory. -/
def readString : Nat → Nat → Kernel (List UInt8)
  | 0, _ => throw .endless
  | bound + 1, a => do
    let c ← readMemory a 1
    if c = [0] then pure []
    else do
      let rest ← readString bound (a + 1)
      pure (c ++ rest)

def lsLoop (files : Nat) : Nat → Nat → Kernel Unit
  | 0, _ => pure ()
  | left + 1, i => do
    let file := fileAt files i
    let name ← readString wordModulus file
    lsField "NAME: " (name ++ textBytes " ")
    let size ← fileSize file
    lsField "SIZE: " (itoaDec size ++ textBytes " [B] ")
    let startCluster ← fileStartClusterIndex file
    lsField "CLUSTER: " (itoaDec startCluster ++ textBytes " ")
    let system ← fileSystem file
    lsField "SYS: " (itoaDec (if system then 1 else 0) ++ textBytes " ")
    let opened ← fileOpen file
    lsField "STATUS: " (textBytes (if opened then "OPENED\n\r" else "CLOSED\n\r"))
    lsLoop files left (i + 1)

def ls : Kernel Unit := do
  loadRootFolder
  let fileCount ← rootFileCount
  let files ← rootFiles
  lsLoop files fileCount 0
  freeRootDir

end Delos.Source
