import Delos.Source.VfsReading

/-!
# common.cpp: the stream of a terminal

`print_to_stream` appends to the stdout file of a process and keeps its last
`MAX_SHELL_FILE_SIZE` bytes: the file is read, deleted, created again and
written. `terminalText` is the part of `switch_to_terminal` that reads the file
back and prints it.
-/
namespace Delos.Source
open Lib (ByteMemory)

/-- `MAX_SHELL_FILE_SIZE` -/
def maxShellFileSize : Nat := 200

def newline : List UInt8 := textBytes "\r\n"

/-- The last bytes of the file go to a new file under the same name. -/
def rotateStream (stdout : CString) (fileSize : Nat) : Kernel Unit := do
  let copyBuffer ← kmalloc maxShellFileSize
  writeMemory copyBuffer (List.replicate maxShellFileSize 0)
  let (_, bytes) ← read stdout (fileSize - maxShellFileSize) maxShellFileSize
  writeMemory copyBuffer bytes
  let _ ← deleteSystemFile stdout
  let _ ← touch stdout
  let _ ← setAsSystemFile stdout
  let copied ← readMemory copyBuffer maxShellFileSize
  let _ ← write stdout copied 0
  kfree copyBuffer

def printToStream (stdout buffer : CString) (addNewline : Bool) : Kernel Unit := do
  let fileSize ← getFileSize stdout
  let _ ← write stdout buffer.bytes fileSize
  doIf addNewline do
    let _ ← write stdout newline ((fileSize + buffer.bytes.length) % wordModulus)
  let fileSize ← getFileSize stdout
  doIf (fileSize ≥ maxShellFileSize) (rotateStream stdout fileSize)

/-- The text that `switch_to_terminal` prints; the size is compared as a signed number. -/
def terminalText (stdout : CString) : Kernel Unit := do
  let fileSize ← getFileSize stdout
  let buffer ← kmalloc (maxShellFileSize + 1)
  let short := fileSize ≤ maxShellFileSize ∨ wordModulus / 2 ≤ fileSize
  let offset := if short then 0 else fileSize - maxShellFileSize
  let len := if short then fileSize else maxShellFileSize
  writeMemory buffer (List.replicate maxShellFileSize 0)
  let (_, bytes) ← read stdout offset len
  writeMemory buffer bytes
  writeMemory (buffer + len) [0]
  let text ← readMemory buffer (maxShellFileSize + 1)
  emit (.kprintfBytes (upToNul text))
  kfree buffer

end Delos.Source
