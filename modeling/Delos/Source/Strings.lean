import Mathlib.Logic.Function.Basic
import Delos.Source.Interrupts

/-!
# string.cpp and `kprintf`: strings that are built in buffers

The text of a buffer is what stands in front of its first NUL. With it go the indices
that were stored to, in the order of the stores; nothing keeps them inside the buffer.
-/
namespace Delos.Source

structure CharBuffer where
  text : List UInt8
  stores : List Nat
  deriving DecidableEq, Repr

/-- The characters of a string and its terminator, one store each. -/
def copyStores : Nat → List UInt8 → List Nat
  | i, [] => [i]
  | i, _ :: rest => i :: copyStores (i + 1) rest

/-- `strcpy`: behind the terminator that the loop has copied it stores another one. -/
def strcpyStores (src : CString) : List Nat := copyStores 0 src.bytes ++ [src.bytes.length + 1]

namespace CharBuffer

/-- `memset` with NULs. -/
def cleared (size : Nat) : CharBuffer := ⟨[], List.range size⟩

def append (c : UInt8) (b : CharBuffer) : CharBuffer :=
  ⟨upToNul (b.text ++ [c]), b.stores ++ [b.text.length, b.text.length + 1]⟩

def strcat (bytes : List UInt8) (b : CharBuffer) : CharBuffer :=
  ⟨b.text ++ bytes, b.stores ++ copyStores b.text.length bytes⟩

end CharBuffer

/-! ## itoa -/

/-- What a `char *` points to. -/
abbrev Chars := Nat → UInt8

/-- The characters of the digits from -35 to 35. -/
def digitTable : List UInt8 := textBytes "zyxwvutsrqponmlkjihgfedcba9876543210123456789abcdefghijklmnopqrstuvwxyz"

/-- The digits from the last one on, the end, and the last `tmp_value`. The base is unsigned, and so is
the arithmetic; `none` when the table is left or more than 32 digits come. -/
def itoaLoop (base : UInt32) : Nat → Chars → Nat → Int32 → Option (Chars × Nat × Int32)
  | 0, _, _, _ => none
  | left + 1, str, ptr, num =>
    let tmpValue := num
    let num := (num.toUInt32 / base).toInt32
    match digitTable[(35 + (tmpValue.toUInt32 - num.toUInt32 * base)).toNat]? with
    | none => none
    | some c =>
      if num = 0 then some (Function.update str ptr c, ptr + 1, tmpValue)
      else itoaLoop base left (Function.update str ptr c) (ptr + 1) num

/-- The characters from `ptr1` to `ptr` the other way round. -/
def swapLoop : Nat → Chars → Nat → Nat → Chars
  | 0, str, _, _ => str
  | left + 1, str, ptr1, ptr =>
    if ptr1 < ptr then
      swapLoop left (Function.update (Function.update str ptr (str ptr1)) ptr1 (str ptr)) (ptr1 + 1) (ptr - 1)
    else str

def itoa (str : Chars) (num : Int32) (base : UInt32) : Option Chars :=
  if base < 2 ∨ base > 36 then some (Function.update str 0 0)
  else
    match itoaLoop base 32 str 0 num with
    | none => none
    | some (str, ptr, tmpValue) =>
      let (str, ptr) := if tmpValue < 0 then (Function.update str ptr (UInt8.ofNat '-'.toNat), ptr + 1) else (str, ptr)
      some (swapLoop ptr (Function.update str ptr 0) 0 (ptr - 1))

/-! ## atoi -/

/-- `IS_NUMERIC_STRING` -/
def isNumericString (str : Chars) (ptr : Nat) : Prop := 48 ≤ str ptr ∧ str ptr ≤ 57

instance (str : Chars) (ptr : Nat) : Decidable (isNumericString str ptr) := inferInstanceAs (Decidable (_ ∧ _))

/-- `none` when there are digits at every address. -/
def atoiLoop (str : Chars) : Nat → Nat → UInt32 → Option UInt32
  | 0, _, _ => none
  | left + 1, ptr, result =>
    if isNumericString str ptr then atoiLoop str left (ptr + 1) (result * 10 + ((str ptr).toUInt32 - 48))
    else some result

/-- The sign is unsigned. The pointer may be NULL. -/
def atoi : Option Chars → Option UInt32
  | none => some 0
  | some str =>
    let (sign, ptr) : UInt32 × Nat := if str 0 = UInt8.ofNat '-'.toNat then (0 - 1, 1) else (1, 0)
    (atoiLoop str wordModulus ptr 0).map fun result => sign * result

/-! ## kprintf -/

/-- What stands behind the format on the stack. -/
inductive FormatArg where
  | char (c : UInt8)
  | string (s : CString)
  | number (v : Nat)

/-- The character behind a percent sign, with the arguments that are left; `none` when
the next argument is of another type. -/
def formatDirective (directive : Char) (args : List FormatArg) (b : CharBuffer) :
    Option (List FormatArg × CharBuffer) :=
  match directive, args with
  | 'c', .char c :: args => some (args, b.append c)
  | 's', .string s :: args => some (args, b.strcat s.bytes)
  | 'd', .number v :: args => some (args, b.strcat (itoaDec v))
  | 'x', .number v :: args => some (args, b.strcat (itoaHex v))
  | 'f', args => some (args, b)
  | 'c', _ | 's', _ | 'd', _ | 'x', _ => none
  | _, args => some (args, b.append (UInt8.ofNat '%'.toNat))

def kprintfLoop : List Char → List FormatArg → CharBuffer → Option CharBuffer
  | [], _, b => some b
  | '%' :: [], _, b => some b
  | '%' :: directive :: rest, args, b =>
    match formatDirective directive args b with
    | some (args, b) => kprintfLoop rest args b
    | none => none
  | c :: rest, args, b => kprintfLoop rest args (b.append (UInt8.ofNat c.toNat))

/-- `kprintf` up to `print_string`. -/
def kprintf (format : String) (args : List FormatArg) : Option CharBuffer :=
  kprintfLoop format.toList args (.cleared screenBufferSize)

/-! ## Strings of a process -/

/-- `PROCESS_NAME_LEN` -/
def processNameLen : Nat := 16

/-- The buffers that strings of a process are copied to. -/
inductive KernelBuffer where
  | screenBuffer
  /-- `filename` of `sys_call_exec` -/
  | execFilename
  /-- `name` of a PCB -/
  | processName
  /-- The block that `sys_call_open` puts on the list of open files. -/
  | openFileName
  deriving DecidableEq, Repr

def KernelBuffer.size : KernelBuffer → Nat
  | screenBuffer => screenBufferSize
  | execFilename => execBufferSize
  | processName => processNameLen
  | openFileName => fileNameLen

structure BufferStore where
  buffer : KernelBuffer
  index : Nat
  deriving DecidableEq, Repr

def storesTo (buffer : KernelBuffer) (indices : List Nat) : List BufferStore :=
  indices.map fun i => ⟨buffer, i⟩

/-- The system calls that copy a string of the caller. -/
inductive StringCall where
  | printf | exec | openFile
  deriving DecidableEq, Repr

section
variable (user : UserSpace)

/-- `kprintf("%s", ...)` for a process of the terminal in focus. -/
def printfStores (pcb : Nat) : Handler (List BufferStore) := do
  let p ← getPcb pcb
  let shown ← focused pcb
  if shown then
    match kprintf "%s" [.string (user.string p.regs.esi)] with
    | some b => pure (storesTo .screenBuffer b.stores)
    | none => pure []
  else pure []

/-- The name goes on to the PCB when there is such a program. -/
def execStores (pcb : Nat) : Handler (List BufferStore) := do
  let p ← getPcb pcb
  let filename := user.string p.regs.ebx
  let copied := storesTo .execFilename (strcpyStores filename)
  if processCount ≥ maxNumberOfProcesses then pure copied
  else
    match getProgram filename with
    | none => pure copied
    | some _ => pure (copied ++ storesTo .processName (strcpyStores filename))

/-- `sys_call_open` up to the copy of the name: the result, and the name if it is kept. -/
def openResult (filename : CString) : Kernel (Nat × Option CString) := do
  let known ← fileExists filename
  if known then do
    let result ← openFile filename
    if result = 0 then pure (result, some (normalizeFilename filename)) else pure (result, none)
  else pure (1, none)

def openStores (pcb : Nat) : Handler (List BufferStore) := do
  let p ← getPcb pcb
  let (_, kept) ← onFs (openResult (user.string p.regs.ebx))
  match kept with
  | some name => pure (storesTo .openFileName (strcpyStores name))
  | none => pure []

/-- The indices that a call stores to while it handles the string. -/
def StringCall.stores (pcb : Nat) : StringCall → Handler (List BufferStore)
  | .printf => printfStores user pcb
  | .exec => execStores user pcb
  | .openFile => openStores user pcb

end

end Delos.Source
