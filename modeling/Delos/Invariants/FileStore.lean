import Delos.Lib.KeyedLists
import Delos.Lib.Simulation
import Delos.Source.VfsReading
import Delos.Invariants.FileCreation
import Delos.Invariants.TerminalLog
import Delos.Invariants.WriteContents

/-!
# A store of files

What the file system is for: files with a name, a content and two flags, in the order in which
they were created. Clusters are only counted.
-/
namespace Delos.Invariants
open Lib Source

structure File where
  name : List UInt8
  content : List UInt8
  isOpen : Bool
  isSystem : Bool
  deriving DecidableEq

namespace File

def setOpen (v : Bool) (f : File) : File := { f with isOpen := v }

def setSystem (v : Bool) (f : File) : File := { f with isSystem := v }

/-- The bytes are put in at the offset. -/
def splice (offset : Nat) (buffer : List UInt8) (f : File) : File :=
  { f with content := f.content.take offset ++ buffer ++ f.content.drop offset }

end File

abbrev Store := Keyed File.name

/-- The data clusters of a file of that size, and its EOF cluster. -/
def fileClusters (size : Nat) : Nat := max 1 (getClusterCountNeeded size) + 1

/-- An insertion behind which the chain has no cluster more than it needs. -/
structure InsertFits (free size offset len : Nat) : Prop where
  last : offset / clusterSize = size / clusterSize
  unfilled : size % clusterSize ≠ 0
  aligned : len = 0 ∨ (offset + len) % clusterSize ≠ 0
  room : getClusterCountNeeded (size + len) ≤ free

instance (free size offset len : Nat) : Decidable (InsertFits free size offset len) :=
  decidable_of_iff (offset / clusterSize = size / clusterSize ∧ size % clusterSize ≠ 0 ∧
      (len = 0 ∨ (offset + len) % clusterSize ≠ 0) ∧ getClusterCountNeeded (size + len) ≤ free)
    ⟨fun ⟨last, unfilled, aligned, room⟩ => ⟨last, unfilled, aligned, room⟩,
      fun ⟨last, unfilled, aligned, room⟩ => ⟨last, unfilled, aligned, room⟩⟩

instance (free size offset len : Nat) : Decidable (Refuses free size offset len) :=
  inferInstanceAs (Decidable (_ ∨ _ ∧ _))

/-- An append for which neither the test of the free clusters nor the free clusters are enough. -/
def Overflows (free size len : Nat) : Prop := free + 2 < appendNeed size len

instance (free size len : Nat) : Decidable (Overflows free size len) := inferInstanceAs (Decidable (_ < _))

namespace Store
variable (σ : Store) (name : List UInt8)

/-- All clusters but those of the files and of the directory. -/
def free : Nat :=
  takenCluster - 1 - dirClusters σ.items.length - (σ.items.map fun f => fileClusters f.content.length).sum

def openIn : Bool := ((σ.find name).map File.isOpen).getD false

def setOpen (v : Bool) : Store := σ.change name (File.setOpen v) fun _ => rfl

def setSystem : Store := σ.change name (File.setSystem true) fun _ => rfl

def splice (offset : Nat) (buffer : List UInt8) : Store := σ.change name (File.splice offset buffer) fun _ => rfl

/-! ## The operations -/

def touch : Nat × Store :=
  if fresh : σ.find name = none then (0, σ.add ⟨name, [], false, false⟩ fresh) else (1, σ)

def rm : Nat × Store :=
  match σ.find name with
  | some f => if f.isSystem then (1, σ) else (0, σ.remove name)
  | none => (1, σ)

def deleteSystemFile : Nat × Store := if σ.find name = none then (1, σ) else (0, σ.remove name)

/-- Nothing is opened when the file does not exist. -/
def openFile : Nat × Store := if σ.openIn name then (1, σ) else (0, σ.setOpen name true)

def closeFile : Nat × Store := if σ.openIn name then (0, σ.setOpen name false) else (1, σ)

def setAsSystemFile : Nat × Store := if σ.openIn name then (1, σ) else (0, σ.setSystem name)

/-- An append that overflows is reported as one that was made. -/
def write (buffer : List UInt8) (offset : Nat) : Nat × Store :=
  match σ.find name with
  | some f =>
    if Refuses σ.free f.content.length offset buffer.length then (1, σ)
    else if offset = f.content.length ∧ Overflows σ.free offset buffer.length then (0, σ)
    else (0, σ.splice name offset buffer)
  | none => (1, σ)

def fileSize : Nat := ((σ.find name).map fun f => f.content.length).getD 0

def read (offset len : Nat) : List UInt8 :=
  match σ.find name with
  | some f => if f.content.length < (offset + len) % wordModulus then [] else (f.content.drop offset).take len
  | none => []

def cat : Nat × List UInt8 :=
  match σ.find name with
  | some f => (0, f.content)
  | none => (1, textBytes "file not found\n\r")

end Store

/-! ## Calls -/

inductive StoreCall where
  | touch (filename : CString)
  | rm (filename : CString)
  | deleteSystemFile (filename : CString)
  | openFile (filename : CString)
  | closeFile (filename : CString)
  | setAsSystemFile (filename : CString)
  | write (filename : CString) (buffer : List UInt8) (offset : Nat)
  | fileExists (filename : CString)
  | getFileSize (filename : CString)
  | read (filename : CString) (offset len : Nat)
  | cat (filename : CString)

/-- The text of a call of the screen. -/
def ScreenCall.text : ScreenCall → List UInt8
  | .kprintf text => textBytes text
  | .kprintfBytes bytes => bytes
  | _ => []

/-- The result of a program, and what it prints. -/
def printed (x : Kernel Nat) : Kernel (Nat × List UInt8) := do
  let before ← get
  let res ← x
  let after ← get
  pure (res, (after.screen.drop before.screen.length).flatMap ScreenCall.text)

/-- Only a result. -/
def silent (x : Kernel Nat) : Kernel (Nat × List UInt8) := do
  let res ← x
  pure (res, [])

namespace StoreCall

def run : StoreCall → Kernel (Nat × List UInt8)
  | touch filename => silent (Source.touch filename)
  | rm filename => silent (Source.rm filename)
  | deleteSystemFile filename => silent (Source.deleteSystemFile filename)
  | openFile filename => silent (Source.openFile filename)
  | closeFile filename => silent (Source.closeFile filename)
  | setAsSystemFile filename => silent (Source.setAsSystemFile filename)
  | write filename buffer offset => silent (Source.write filename buffer offset)
  | fileExists filename => do
    let known ← Source.fileExists filename
    pure (if known then 1 else 0, [])
  | getFileSize filename => silent (Source.getFileSize filename)
  | read filename offset len => do
    let (_, bytes) ← Source.read filename offset len
    pure (0, bytes)
  | cat filename => printed (Source.cat filename)

def filename : StoreCall → CString
  | touch filename | rm filename | deleteSystemFile filename | openFile filename | closeFile filename
  | setAsSystemFile filename | write filename _ _ | fileExists filename | getFileSize filename
  | read filename _ _ | cat filename => filename

/-- Under which a file is stored. -/
def key (call : StoreCall) : List UInt8 := (normalizeFilename call.filename).bytes

def answer (call : StoreCall) (σ : Store) : (Nat × List UInt8) × Store :=
  let silent (p : Nat × Store) : (Nat × List UInt8) × Store := ((p.1, []), p.2)
  match call with
  | touch _ => silent (σ.touch call.key)
  | rm _ => silent (σ.rm call.key)
  | deleteSystemFile _ => silent (σ.deleteSystemFile call.key)
  | openFile _ => silent (σ.openFile call.key)
  | closeFile _ => silent (σ.closeFile call.key)
  | setAsSystemFile _ => silent (σ.setAsSystemFile call.key)
  | write _ buffer offset => silent (σ.write call.key buffer offset)
  | fileExists _ => ((if (σ.find call.key).isSome then 1 else 0, []), σ)
  | getFileSize _ => ((σ.fileSize call.key, []), σ)
  | read _ offset len => ((0, σ.read call.key offset len), σ)
  | cat _ => (σ.cat call.key, σ)

/-- What the file system needs for an exact answer. A new file finds room; an append does not start behind
a full cluster, and is either far too long or fits; the file that is read exists. -/
def FitsFile (call : StoreCall) (free : Nat) (f : File) : Prop :=
  match call with
  | write _ buffer offset =>
    (offset = f.content.length → InCluster offset buffer.length ∧
      (appendNeed offset buffer.length ≤ free ∨ Overflows free offset buffer.length)) ∧
    (¬ Refuses free f.content.length offset buffer.length → offset < f.content.length →
      InsertFits free f.content.length offset buffer.length)
  | read _ offset len => offset + len ≤ f.content.length ∨ f.content.length < (offset + len) % wordModulus
  | cat _ => 0 ∉ f.content
  | _ => True

def FitsMissing (call : StoreCall) (σ : Store) : Prop :=
  match call with
  | touch _ => CreateRoom σ.free σ.items.length
  | read _ _ _ => False
  | _ => True

def Fits (call : StoreCall) (σ : Store) : Prop :=
  match σ.find call.key with
  | some f => call.FitsFile σ.free f
  | none => call.FitsMissing σ

instance (call : StoreCall) (free : Nat) (f : File) : Decidable (call.FitsFile free f) :=
  match call with
  | write _ _ _ => inferInstanceAs (Decidable ((_ → _ ∧ (_ ∨ _)) ∧ (_ → _ → _)))
  | read _ _ _ => inferInstanceAs (Decidable (_ ∨ _))
  | cat _ => inferInstanceAs (Decidable (_ ∉ _))
  | touch _ | rm _ | deleteSystemFile _ | openFile _ | closeFile _ | setAsSystemFile _ | fileExists _ | getFileSize _ =>
    inferInstanceAs (Decidable True)

instance (call : StoreCall) (σ : Store) : Decidable (call.FitsMissing σ) :=
  match call with
  | touch _ => inferInstanceAs (Decidable (CreateRoom _ _))
  | read _ _ _ => inferInstanceAs (Decidable False)
  | write _ _ _ | cat _ | rm _ | deleteSystemFile _ | openFile _ | closeFile _ | setAsSystemFile _ | fileExists _
  | getFileSize _ => inferInstanceAs (Decidable True)

instance (call : StoreCall) (σ : Store) : Decidable (call.Fits σ) :=
  match found : σ.find call.key with
  | some f => decidable_of_iff (call.FitsFile σ.free f) (by rw [Fits, found])
  | none => decidable_of_iff (call.FitsMissing σ) (by rw [Fits, found])

end StoreCall

def storeMachine : Machine StoreCall (Nat × List UInt8) Store where
  admits σ call := call.Fits σ
  answer call σ := call.answer σ

instance decidableAdmits : (calls : List StoreCall) → (σ : Store) → Decidable (storeMachine.Admits calls σ)
  | [], _ => inferInstanceAs (Decidable True)
  | call :: rest, σ =>
    have := decidableAdmits rest (storeMachine.answer call σ).2
    inferInstanceAs (Decidable (call.Fits σ ∧ storeMachine.Admits rest (storeMachine.answer call σ).2))

end Delos.Invariants
