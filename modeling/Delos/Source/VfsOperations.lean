import Delos.Source.Vfs

/-!
# vfs.cpp: the operations on files

Every operation that changes the directory loads it into the kernel heap,
changes the copy, frees the clusters of the directory and saves the copy. The
`file_t` pointers are used as the source uses them, also after the folder they
point into was freed. Buffers of user programs are given by their bytes.
-/
namespace Delos.Source
open Lib (ByteMemory)

/-- Where `append_data` reads from: user memory or the kernel heap. -/
inductive Buffer where
  | user (bytes : List UInt8)
  | kernel (addr : Nat)

def readBuffer (buffer : Buffer) (offset size : Nat) : Kernel (List UInt8) :=
  match buffer with
  | .user bytes => pure ((bytes.drop offset).take size)
  | .kernel a => readMemory (a + offset) size

/-- The three calls at the end of every update of the root folder. -/
def storeRootFolder : Kernel Unit := do
  freeAllOccupiedClusters rootFirstStartCluster
  saveRootFolder
  freeRootDir

/-! ## Creating and deleting -/

/-- Records `i`, `i + 1`, ... go to the same positions of the new array. -/
def copyFiles (dest src : Nat) : Nat → Nat → Kernel Unit
  | 0, _ => pure ()
  | left + 1, i => do
    memcpy (fileAt dest i) (fileAt src i) fileRecordSize
    copyFiles dest src left (i + 1)

def createFile (filename : CString) : Kernel Unit := do
  let enough ← existsNFreeClusters 2
  if enough = false then emit (.kprintf "there is not enough space to create a file")
  else do
    let fileCount ← rootFileCount
    let files ← kmalloc ((fileCount + 1) * fileRecordSize % wordModulus)
    let oldFiles ← rootFiles
    copyFiles files oldFiles fileCount 0
    let file := fileAt files fileCount
    strcpy file filename
    setFileSize file 0
    setFileOpen file false
    setFileSystem file false
    let startCluster ← getFreeCluster
    setFileStartClusterIndex file startCluster
    let eof ← getFreeCluster
    let startCluster ← fileStartClusterIndex file
    setFat startCluster eof
    setFat eof eofCluster
    kfree oldFiles
    setRootFiles files
    setRootFileCount ((fileCount + 1) % wordModulus)

def touch (filename : CString) : Kernel Nat := do
  let filename := normalizeFilename filename
  loadRootFolder
  let exists' ← existsFile filename
  if exists' then pure 1
  else do
    createFile filename
    storeRootFolder
    pure 0

/-- All records but the one at `filePos`; `j` counts the records written. -/
def copyOtherFiles (dest src filePos : Nat) : Nat → Nat → Nat → Kernel Unit
  | 0, _, _ => pure ()
  | left + 1, i, j =>
    if i = filePos then copyOtherFiles dest src filePos left (i + 1) j
    else do
      memcpy (fileAt dest j) (fileAt src i) fileRecordSize
      copyOtherFiles dest src filePos left (i + 1) (j + 1)

def deleteFile (filename : CString) : Kernel Unit := do
  let index ← fileIndexOf filename
  let fileCount ← rootFileCount
  let filePos := index.getD fileCount
  let files ← kmalloc ((fileCount + wordModulus - 1) * fileRecordSize % wordModulus)
  let oldFiles ← rootFiles
  copyOtherFiles files oldFiles filePos fileCount 0 0
  let startCluster ← fileStartClusterIndex (fileAt oldFiles filePos)
  freeAllOccupiedClusters startCluster
  setFat startCluster freeCluster
  kfree oldFiles
  setRootFiles files
  setRootFileCount ((fileCount + wordModulus - 1) % wordModulus)

/-- What `rm` and `delete_system_file` do after the root folder was loaded. -/
def deleteLoadedFile (filename : CString) : Kernel Nat := do
  let exists' ← existsFile filename
  if exists' = false then do
    freeRootDir
    pure 1
  else do
    deleteFile filename
    storeRootFolder
    pure 0

def deleteSystemFile (filename : CString) : Kernel Nat := do
  let filename := normalizeFilename filename
  loadRootFolder
  deleteLoadedFile filename

/-- The system flag is read before the file is known to exist. -/
def rm (filename : CString) : Kernel Nat := do
  let filename := normalizeFilename filename
  loadRootFolder
  let file ← getFile filename
  let system ← fileSystem file
  if system then do
    freeRootDir
    pure 1
  else deleteLoadedFile filename

/-! ## Flags -/

/-- The flag is read after the root folder was freed. -/
def isFileOpen (filename : CString) : Kernel Nat := do
  let filename := normalizeFilename filename
  loadRootFolder
  let file ← getFile filename
  freeRootDir
  if file = 0 then pure 0
  else do
    let opened ← fileOpen file
    pure (if opened then 1 else 0)

/-- The part of `open_file`, `close_file` and `set_as_system_file` behind their
check; none of them tests whether the file exists. -/
def updateFlag (set : Nat → Kernel Unit) (filename : CString) : Kernel Nat := do
  loadRootFolder
  let file ← getFile filename
  set file
  storeRootFolder
  pure 0

def setAsSystemFile (filename : CString) : Kernel Nat := do
  let filename := normalizeFilename filename
  let opened ← isFileOpen filename
  if opened = 1 then pure 1 else updateFlag (setFileSystem · true) filename

def openFile (filename : CString) : Kernel Nat := do
  let filename := normalizeFilename filename
  let opened ← isFileOpen filename
  if opened = 1 then pure 1 else updateFlag (setFileOpen · true) filename

def closeFile (filename : CString) : Kernel Nat := do
  let filename := normalizeFilename filename
  let opened ← isFileOpen filename
  if opened = 0 then pure 1 else updateFlag (setFileOpen · false) filename

/-! ## Writing -/

/-- The last cluster before the EOF cluster. -/
def lastClusterLoop : Nat → Nat → Kernel Nat
  | 0, _ => throw .endless
  | bound + 1, currCluster => do
    let next ← fat currCluster
    let value ← fat next
    if value ≠ eofCluster then lastClusterLoop bound next else pure currCluster

/-- Whole clusters of the buffer; the last one follows behind the loop. -/
def appendClustersLoop (buffer : Buffer) : Nat → Nat → Nat → Kernel (Nat × Nat)
  | 0, prevCluster, bytesStored => pure (prevCluster, bytesStored)
  | left + 1, prevCluster, bytesStored => do
    let currCluster ← getFreeCluster
    setFat prevCluster currCluster
    let bytes ← readBuffer buffer bytesStored clusterSize
    writeMemory (clusterAddr currCluster) bytes
    appendClustersLoop buffer left currCluster (bytesStored + clusterSize)

/-- Without a file the source prints the message, frees the folder and goes on
through the NULL pointer; no caller in the kernel reaches this. -/
def appendData (filename : CString) (buffer : Buffer) (bytes : Nat) : Kernel Unit := do
  let filename := normalizeFilename filename
  loadRootFolder
  let file ← getFile filename
  if file = 0 then do
    emit (.kprintf "file not found\n\r")
    freeRootDir
    throw .wildAccess
  else do
    let size ← fileSize file
    let offsetInLastCluster := size % clusterSize
    let startCluster ← fileStartClusterIndex file
    let currCluster ← lastClusterLoop walkBound startCluster
    let bytesInLastCluster := min bytes (clusterSize - offsetInLastCluster)
    let data ← readBuffer buffer 0 bytesInLastCluster
    writeMemory (clusterAddr currCluster + offsetInLastCluster) data
    setFileSize file ((size + bytesInLastCluster) % wordModulus)
    if bytes ≤ bytesInLastCluster then storeRootFolder
    else do
      let clusterNeeded := getClusterCountNeeded (bytes - bytesInLastCluster)
      let enough ← existsNFreeClusters clusterNeeded
      if enough = false then emit (.kprintf "no enough space to store the rest of the file\n\r")
      else do
        let eof ← fat currCluster
        setFat eof freeCluster
        setFileSize file ((size + bytes) % wordModulus)
        let (prevCluster, bytesStored) ←
          appendClustersLoop buffer (clusterNeeded - 1) currCluster bytesInLastCluster
        let currCluster ← getFreeCluster
        setFat prevCluster currCluster
        let data ← readBuffer buffer bytesStored (bytes - bytesStored)
        writeMemory (clusterAddr currCluster) data
        let eof ← getFreeCluster
        setFat currCluster eof
        setFat eof eofCluster
        storeRootFolder

/-- `n` steps along the FAT. -/
def followClusters : Nat → Nat → Kernel Nat
  | 0, currCluster => pure currCluster
  | left + 1, currCluster => do
    let next ← fat currCluster
    followClusters left next

/-- The tail of the file goes to the temporary buffer. The first cluster behind
the split becomes the EOF cluster, the others are set as free; the old EOF
cluster is left as it is. -/
def cutTailLoop (tmpBuff : Nat) : Nat → Bool → Nat → Nat → Kernel Nat
  | 0, _, _, _ => throw .endless
  | bound + 1, first, currCluster, tmpBuffOffset => do
    let value ← fat currCluster
    if value ≠ eofCluster then do
      memcpy (tmpBuff + tmpBuffOffset) (clusterAddr currCluster) clusterSize
      setFat currCluster (if first then eofCluster else freeCluster)
      cutTailLoop tmpBuff bound false value (tmpBuffOffset + clusterSize)
    else pure tmpBuffOffset

/-- The part of `write` for an offset inside the file. -/
def insertData (filename : CString) (file : Nat) (buffer : List UInt8) (offset : Nat) :
    Kernel Nat := do
  let originalFileSize ← fileSize file
  setFileSize file offset
  storeRootFolder
  let startClusterIndex ← fileStartClusterIndex file
  let startCluster := offset / clusterSize
  let offsetInStartCluster := offset % clusterSize
  let clustersNeeded := getClusterCountNeeded originalFileSize
  let tmpBufferSize := (clustersNeeded - startCluster) * clusterSize % wordModulus
  let tmpBuff ← kmalloc tmpBufferSize
  writeMemory tmpBuff (List.replicate tmpBufferSize 0)
  let currCluster ← followClusters startCluster startClusterIndex
  let bytesInFirstCluster := clusterSize - offsetInStartCluster
  memcpy tmpBuff (clusterAddr currCluster + offsetInStartCluster) bytesInFirstCluster
  let currCluster ← fat currCluster
  let tmpBuffOffset ← cutTailLoop tmpBuff walkBound true currCluster bytesInFirstCluster
  appendData filename (.user buffer) buffer.length
  appendData filename (.kernel tmpBuff)
    ((tmpBuffOffset + wordModulus - (clusterSize - originalFileSize % clusterSize)) % wordModulus)
  kfree tmpBuff
  pure 0

/-- `len` is the length of the buffer. -/
def write (filename : CString) (buffer : List UInt8) (offset : Nat) : Kernel Nat := do
  let filename := normalizeFilename filename
  loadRootFolder
  let file ← getFile filename
  if file = 0 then do
    emit (.kprintf "file not found\n\r")
    freeRootDir
    pure 1
  else do
    let size ← fileSize file
    if offset > size then do
      emit (.kprintf "the offset is greater than the size of the file itself\n\r")
      freeRootDir
      pure 1
    else if offset = size then do
      freeRootDir
      appendData filename (.user buffer) buffer.length
      pure 0
    else do
      let enough ← existsNFreeClusters
        (getClusterCountNeeded ((size + buffer.length) % wordModulus))
      if enough = false then do
        emit (.kprintf "not enough space to extend the file\n\r")
        freeRootDir
        pure 1
      else insertData filename file buffer offset

/-! ## Copying -/

def copyClustersLoop : Nat → Nat → Nat → Kernel Nat
  | 0, _, _ => throw .endless
  | bound + 1, srcCurrCluster, desCurrCluster => do
    let value ← fat srcCurrCluster
    if value ≠ eofCluster then do
      memcpy (clusterAddr desCurrCluster) (clusterAddr srcCurrCluster) clusterSize
      let next ← getFreeCluster
      setFat desCurrCluster next
      let srcNext ← fat srcCurrCluster
      copyClustersLoop bound srcNext next
    else pure desCurrCluster

/-- The size of the source is read through `src_file` after `rm` and `touch`
loaded the root folder again. -/
def cp (src des : CString) : Kernel Nat := do
  let src := normalizeFilename src
  let des := normalizeFilename des
  if src = des then pure 1
  else do
    loadRootFolder
    let srcFile ← getFile src
    if srcFile = 0 then do
      freeRootDir
      pure 1
    else do
      let srcCluster ← fileStartClusterIndex srcFile
      let oldDesFile ← getFile des
      freeRootDir
      doIf (oldDesFile ≠ 0) do
        let _ ← rm des
      let _ ← touch des
      let srcSize ← fileSize srcFile
      let enough ← existsNFreeClusters (getClusterCountNeeded srcSize)
      if enough = false then do
        emit (.setColor .lightRed)
        emit (.kprintf "ERR: there is not enough place to store the file\n\r")
        emit .resetColor
        pure 1
      else do
        loadRootFolder
        let desFile ← getFile des
        let desCluster ← fileStartClusterIndex desFile
        let srcSize ← fileSize srcFile
        setFileSize desFile srcSize
        storeRootFolder
        let eof ← fat desCluster
        setFat eof freeCluster
        let lastCluster ← copyClustersLoop walkBound srcCluster desCluster
        setFat lastCluster eofCluster
        pure 0

/-! ## Initialisation -/

def freeEveryCluster : Nat → Nat → Kernel Unit
  | 0, _ => pure ()
  | left + 1, i => do
    setFat i freeCluster
    freeEveryCluster left (i + 1)

def textBytes (text : String) : List UInt8 := text.toByteArray.data.toList

def readmeName : CString := ⟨textBytes "README.md", by decide⟩
def asciiName : CString := ⟨textBytes "ascii.txt", by decide⟩
def primesName : CString := ⟨textBytes "primes.dat", by decide⟩

def readmeText : List UInt8 := textBytes
  "Welcome to a pseudo-FAT12-based file system. This file system supports basic operations like cat, ls, touch, cp, etc. It was created as a part of the semestral project of the KIV/OS module in 2021.\n\r"

/-- The characters from '!' to '~'. -/
def asciiText : List UInt8 := (List.range 94).map fun i => UInt8.ofNat (33 + i)

def primesText : List UInt8 := textBytes
  "2, 3, 5, 7, 11, 13, 17, 19, 23, 29, 31, 37, 41, 43, 47, 53, 59, 61, 67, 71, 73, 79, 83, 89, 97"

def createDefaultFile (name : CString) (text : List UInt8) : Kernel Unit := do
  let _ ← touch name
  appendData name (.user text) text.length

def createDefaultFiles : Kernel Unit := do
  createDefaultFile readmeName readmeText
  createDefaultFile asciiName asciiText
  createDefaultFile primesName primesText

/-- `fs_init` behind the loop that sets every cluster as free. -/
def initRootFolder : Kernel Nat := do
  let root ← kmalloc folderSize
  setRootPointer root
  setRootFileCount 0
  setRootFiles 0
  setFat rootFirstStartCluster takenCluster
  saveRootFolder
  freeRootDir
  createDefaultFiles
  pure 0

def fsInit : Kernel Nat := do
  freeEveryCluster clusterCount 0
  initRootFolder

end Delos.Source
