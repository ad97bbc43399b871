import Delos.Source.Syscalls

/-!
# The system calls that take file names

What the handlers hand to the file system, and the same calls with a test in front of every
use of a pointer that `get_file` returned. The functions of vfs.cpp that test the pointer
themselves, or that get to it behind such a test, are used as they are.
-/
namespace Delos.Source

/-- `listed` says whether the name is in the list of open files of the caller. -/
inductive FileCall where
  | openFile (filename : CString)
  | closeFile (filename : CString) (listed : Bool)
  | read (filename : CString) (offset len : Nat) (listed : Bool)
  | write (filename : CString) (buffer : List UInt8) (offset : Nat) (listed : Bool)
  | touch (filename : CString)
  | cat (filename : CString)
  | cp (src des : CString)
  | rm (filename : CString)
  | fileAppend (filename : CString) (buffer : List UInt8)

/-- The test of `open`, `read` and `write`: a file that exists and, for the last two, is open. -/
def whenKnown (filename : CString) (listed : Bool) (call : Kernel Nat) : Kernel Nat := do
  let known ← fileExists filename
  if known && listed then call else pure 1

def fileAppend (filename : CString) (buffer : List UInt8) : Kernel Nat := do
  let size ← getFileSize filename
  let known ← fileExists filename
  if known then write filename buffer size
  else do
    let _ ← touch filename
    write filename buffer size

namespace FileCall

/-- What `sys_call_open`, `sys_call_close`, ... do to the file system, with the result in EAX. -/
def run : FileCall → Kernel Nat
  | openFile filename => whenKnown filename true (Source.openFile filename)
  | closeFile filename listed => if listed then Source.closeFile filename else pure 1
  | read filename offset len listed => whenKnown filename listed do
    let (result, _) ← Source.read filename offset len
    pure result
  | write filename buffer offset listed => whenKnown filename listed (Source.write filename buffer offset)
  | touch filename => Source.touch filename
  | cat filename => Source.cat filename
  | cp src des => Source.cp src des
  | rm filename => Source.rm filename
  | fileAppend filename buffer => Source.fileAppend filename buffer

end FileCall

/-! ## Tested pointers -/

/-- The access stops when the pointer is NULL. -/
def deref {α : Type} (access : Nat → Kernel α) (file : Nat) : Kernel α :=
  if file = 0 then throw .wildAccess else access file

def rmTested (filename : CString) : Kernel Nat := do
  let filename := normalizeFilename filename
  loadRootFolder
  let file ← getFile filename
  let system ← deref fileSystem file
  if system then do
    freeRootDir
    pure 1
  else deleteLoadedFile filename

def updateFlagTested (set : Nat → Kernel Unit) (filename : CString) : Kernel Nat := do
  loadRootFolder
  let file ← getFile filename
  deref set file
  storeRootFolder
  pure 0

def openFileTested (filename : CString) : Kernel Nat := do
  let filename := normalizeFilename filename
  let opened ← isFileOpen filename
  if opened = 1 then pure 1 else updateFlagTested (setFileOpen · true) filename

def closeFileTested (filename : CString) : Kernel Nat := do
  let filename := normalizeFilename filename
  let opened ← isFileOpen filename
  if opened = 0 then pure 1 else updateFlagTested (setFileOpen · false) filename

def readTested (filename : CString) (offset len : Nat) : Kernel (Nat × List UInt8) := do
  let filename := normalizeFilename filename
  loadRootFolder
  let file ← getFile filename
  freeRootDir
  let currCluster ← deref fileStartClusterIndex file
  let size ← deref fileSize file
  if (offset + len) % wordModulus > size then do
    emit (.kprintf "the start byte is out of range\n\r")
    pure (1, [])
  else do
    let offsetInStartCluster := offset % clusterSize
    let currCluster ← followClusters (offset / clusterSize) currCluster
    let bytesRead := min len (clusterSize - offsetInStartCluster)
    let bytes ← readMemory (clusterAddr currCluster + offsetInStartCluster) bytesRead
    if len ≤ clusterSize - offsetInStartCluster then pure (1, bytes)
    else do
      let rest ← readLoop len (len + 1) currCluster bytesRead
      pure (0, bytes ++ rest)

def cpTested (src des : CString) : Kernel Nat := do
  let src := normalizeFilename src
  let des := normalizeFilename des
  if src = des then pure 1
  else do
    loadRootFolder
    let srcFile ← getFile src
    if srcFile = 0 then do
      freeRootDir
      pure 1
    else do
      let srcCluster ← fileStartClusterIndex srcFile
      let oldDesFile ← getFile des
      freeRootDir
      doIf (oldDesFile ≠ 0) do
        let _ ← rmTested des
      let _ ← touch des
      let srcSize ← fileSize srcFile
      let enough ← existsNFreeClusters (getClusterCountNeeded srcSize)
      if enough = false then do
        emit (.setColor .lightRed)
        emit (.kprintf "ERR: there is not enough place to store the file\n\r")
        emit .resetColor
        pure 1
      else do
        loadRootFolder
        let desFile ← getFile des
        let desCluster ← deref fileStartClusterIndex desFile
        let srcSize ← fileSize srcFile
        deref (setFileSize · srcSize) desFile
        storeRootFolder
        let eof ← fat desCluster
        setFat eof freeCluster
        let lastCluster ← copyClustersLoop walkBound srcCluster desCluster
        setFat lastCluster eofCluster
        pure 0

/-- `append_data` stops by itself when the pointer is NULL. -/
def FileCall.tested : FileCall → Kernel Nat
  | .openFile filename => whenKnown filename true (openFileTested filename)
  | .closeFile filename listed => if listed then closeFileTested filename else pure 1
  | .read filename offset len listed => whenKnown filename listed do
    let (result, _) ← readTested filename offset len
    pure result
  | .rm filename => rmTested filename
  | .cp src des => cpTested src des
  | call => call.run

end Delos.Source
