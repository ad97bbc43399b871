import Mathlib.Data.Finset.Basic
import Mathlib.Data.Finset.Card
import Delos.Lib.Program

/-!
# list.cpp, and `reschedule_process`

Lists and nodes are blocks of the kernel heap, named by their addresses; address 0 is NULL.
An access to a block that is not in use, or of another type, stops the run. A loop over
`next` or `prev` that takes more steps than there are blocks has met a block twice and does
not end.
-/
namespace Delos.Source
open Lib (Program)

/-- `list_node_t` -/
structure ListNode where
  next : Nat
  prev : Nat
  data : Nat
  deriving DecidableEq, Repr

/-- `list_t` -/
structure ListHead where
  first : Nat
  last : Nat
  size : Nat
  deriving DecidableEq, Repr

inductive ListBlock where
  | node (n : ListNode)
  | list (l : ListHead)
  deriving DecidableEq, Repr

structure ListHeap where
  live : Finset Nat
  block : Nat → ListBlock

inductive ListStop where
  | wildAccess
  | endless
  deriving DecidableEq, Repr

abbrev Listing (α : Type) := Program ListHeap ListStop α

/-- `kmalloc`: NULL, or the address of a block that is not in use. -/
structure Allocator where
  pick : ListHeap → Nat
  fresh : ∀ h, pick h ≠ 0 → pick h ∉ h.live

namespace ListHeap

def store (a : Nat) (b : ListBlock) (h : ListHeap) : ListHeap := { h with block := Function.update h.block a b }

def allocate (a : Nat) (b : ListBlock) (h : ListHeap) : ListHeap :=
  { live := insert a h.live, block := Function.update h.block a b }

def next (h : ListHeap) (a : Nat) : Nat :=
  match h.block a with
  | .node n => n.next
  | .list _ => 0

def prev (h : ListHeap) (a : Nat) : Nat :=
  match h.block a with
  | .node n => n.prev
  | .list _ => 0

def data (h : ListHeap) (a : Nat) : Nat :=
  match h.block a with
  | .node n => n.data
  | .list _ => 0

/-- More steps than a loop over different blocks can take. -/
def fuel (h : ListHeap) : Nat := h.live.card + 1

end ListHeap

/-! ## Blocks -/

def readNode (a : Nat) : Listing ListNode := do
  let h ← get
  if a ∈ h.live then
    match h.block a with
    | .node n => pure n
    | .list _ => throw .wildAccess
  else throw .wildAccess

def readList (a : Nat) : Listing ListHead := do
  let h ← get
  if a ∈ h.live then
    match h.block a with
    | .list l => pure l
    | .node _ => throw .wildAccess
  else throw .wildAccess

def updateNode (a : Nat) (f : ListNode → ListNode) : Listing Unit := do
  let n ← readNode a
  modify (ListHeap.store a (.node (f n)))

def updateList (a : Nat) (f : ListHead → ListHead) : Listing Unit := do
  let l ← readList a
  modify (ListHeap.store a (.list (f l)))

/-- `kmalloc`, and the fields that are set at once when it has found a block. -/
def allocateBlock (alloc : Allocator) (b : ListBlock) : Listing Nat := do
  let h ← get
  if alloc.pick h = 0 then pure 0
  else do
    set (h.allocate (alloc.pick h) b)
    pure (alloc.pick h)

def freeBlock (a : Nat) : Listing Unit := modify fun h => { h with live := h.live.erase a }

/-! ## list.cpp -/

section
variable (alloc : Allocator)

def listCreate : Listing Nat := allocateBlock alloc (.list ⟨0, 0, 0⟩)

def listNodeCreate (data : Nat) : Listing Nat := allocateBlock alloc (.node ⟨0, 0, data⟩)

def listAddFirst (list data : Nat) : Listing Unit :=
  if list = 0 then pure ()
  else do
    let node ← listNodeCreate alloc data
    if node = 0 then pure ()
    else do
      let l ← readList list
      if l.first = 0 then do
        updateList list fun l => { l with first := node }
        updateList list fun l => { l with last := node }
        updateList list fun l => { l with size := l.size + 1 }
      else do
        updateNode node fun n => { n with next := l.first }
        updateNode l.first fun n => { n with prev := node }
        updateList list fun l => { l with first := node }
        updateList list fun l => { l with size := l.size + 1 }

def listAddLast (list data : Nat) : Listing Unit :=
  if list = 0 then pure ()
  else do
    let node ← listNodeCreate alloc data
    if node = 0 then pure ()
    else do
      let l ← readList list
      if l.first = 0 then do
        updateList list fun l => { l with first := node }
        updateList list fun l => { l with last := node }
        updateList list fun l => { l with size := l.size + 1 }
      else do
        updateNode node fun n => { n with prev := l.last }
        updateNode l.last fun n => { n with next := node }
        updateList list fun l => { l with last := node }
        updateList list fun l => { l with size := l.size + 1 }

end

def nodeAt : Nat → Nat → Listing Nat
  | 0, curr => pure curr
  | index + 1, curr => do
    let n ← readNode curr
    nodeAt index n.next

/-- The links around a node that leaves the list: `last` stays when the only node leaves. -/
def unlink (list curr : Nat) (l : ListHead) : Listing Unit := do
  if curr = l.first then do
    let n ← readNode l.first
    updateList list fun l => { l with first := n.next }
    if n.next ≠ 0 then updateNode n.next fun n => { n with prev := 0 } else pure ()
  else if curr = l.last then do
    let n ← readNode l.last
    updateList list fun l => { l with last := n.prev }
    if n.prev ≠ 0 then updateNode n.prev fun n => { n with next := 0 } else pure ()
  else do
    let n ← readNode curr
    updateNode n.prev fun p => { p with next := n.next }
    let n ← readNode curr
    updateNode n.next fun p => { p with prev := n.prev }

def listRemove (list index : Nat) : Listing Unit := do
  let l ← readList list
  if index ≥ l.size then pure ()
  else do
    let curr ← nodeAt index l.first
    unlink list curr l
    freeBlock curr
    updateList list fun l => { l with size := l.size - 1 }

/-- The index of the first node with the data. -/
def findData (data : Nat) : Nat → Nat → Nat → Listing (Option Nat)
  | 0, _, _ => throw .endless
  | fuel + 1, curr, index =>
    if curr = 0 then pure none
    else do
      let n ← readNode curr
      if n.data = data then pure (some index) else findData data fuel n.next (index + 1)

def listRemoveData (list data : Nat) : Listing Unit :=
  if list = 0 then pure ()
  else do
    let l ← readList list
    let h ← get
    match ← findData data h.fuel l.first 0 with
    | some index => listRemove list index
    | none => pure ()

def containsLoop (cmp : Nat → Nat → Bool) (data : Nat) : Nat → Nat → Listing Bool
  | 0, _ => throw .endless
  | fuel + 1, curr =>
    if curr = 0 then pure false
    else do
      let n ← readNode curr
      if cmp data n.data then pure true else containsLoop cmp data fuel n.next

def listContains (list data : Nat) (cmp : Nat → Nat → Bool) : Listing Bool := do
  let l ← readList list
  let h ← get
  containsLoop cmp data h.fuel l.first

/-- NULL when the index is negative or behind the end. -/
def listGet (list : Nat) (index : Int) : Listing Nat := do
  let l ← readList list
  if index < 0 ∨ l.size ≤ index.toNat then pure 0
  else do
    let curr ← nodeAt index.toNat l.first
    let n ← readNode curr
    pure n.data

def freeNodes : Nat → Nat → Listing Unit
  | 0, _ => throw .endless
  | fuel + 1, curr =>
    if curr = 0 then pure ()
    else do
      let n ← readNode curr
      freeBlock curr
      freeNodes fuel n.next

def listFree (list : Nat) : Listing Unit := do
  let l ← readList list
  let h ← get
  freeNodes h.fuel l.first
  freeBlock list

/-! ## reschedule_process -/

section
variable (alloc : Allocator) (shellId : Nat → Nat)

/-- The processes of the terminal, in the order of the list. -/
def collectProcesses (pid pcbs : Nat) : Nat → Nat → Listing Unit
  | 0, _ => throw .endless
  | fuel + 1, curr =>
    if curr = 0 then pure ()
    else do
      let n ← readNode curr
      if shellId n.data = pid then do
        listAddLast alloc pcbs n.data
        let n ← readNode curr
        collectProcesses pid pcbs fuel n.next
      else collectProcesses pid pcbs fuel n.next

def removeProcesses (blockedProcesses : Nat) : Nat → Nat → Listing Unit
  | 0, _ => throw .endless
  | fuel + 1, curr =>
    if curr = 0 then pure ()
    else do
      let n ← readNode curr
      listRemoveData blockedProcesses n.data
      let n ← readNode curr
      removeProcesses blockedProcesses fuel n.next

/-- From the last one to the first. -/
def returnProcesses (blockedProcesses : Nat) : Nat → Nat → Listing Unit
  | 0, _ => throw .endless
  | fuel + 1, curr =>
    if curr = 0 then pure ()
    else do
      let n ← readNode curr
      listAddFirst alloc blockedProcesses n.data
      let n ← readNode curr
      returnProcesses blockedProcesses fuel n.prev

def rescheduleList (pid blockedProcesses : Nat) : Listing Unit := do
  let pcbs ← listCreate alloc
  let l ← readList blockedProcesses
  let h ← get
  collectProcesses alloc shellId pid pcbs h.fuel l.first
  let l ← readList pcbs
  let h ← get
  removeProcesses blockedProcesses h.fuel l.first
  let l ← readList pcbs
  let h ← get
  returnProcesses alloc blockedProcesses h.fuel l.last
  listFree pcbs

end

end Delos.Source
