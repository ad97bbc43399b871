import Delos.Invariants.FileReading
import Delos.Invariants.FileSystemRuns

/-!
# The file system does not stop the machine

A request of a user is an operation on files or one of `cat`, `read` and `ls`.
In every run of ready requests no request ends in `_panic()`, and a write that
is larger than the free clusters leaves the directory as it was. A directory of
seven files breaks this: a record behind the last cluster of the directory can
be forged through another file, and a file whose chain is the chain of the
directory makes the next load fail.
-/
namespace Delos.Guarantees
open Lib Source Invariants

inductive Request where
  | file (op : FileOperation)
  | cat (filename : CString)
  | read (filename : CString) (offset len : Nat)
  | ls

namespace Request

def run : Request → Kernel Unit
  | file op => do
    let _ ← op.run
  | cat filename => do
    let _ ← Source.cat filename
  | read filename offset len => do
    let _ ← Source.read filename offset len
  | ls => Source.ls

/-- The operations that only read are always ready. -/
def Ready (disk : ByteMemory) : Request → Prop
  | file op => op.Ready disk
  | _ => True

end Request

/-- States reached from `fs_init` by requests that are allowed on their disk. -/
inductive Serves (allowed : ByteMemory → Request → Prop) (start : Fs) : Fs → Prop
  | init {res : Nat} {s : Fs} (run : fsInit start = .ok (res, s)) : Serves allowed start s
  | step {s s' : Fs} (req : Request) (before : Serves allowed start s) (ready : allowed s.disk req)
      (run : req.run s = .ok ((), s')) : Serves allowed start s'

/-- A write to an existing file for which the free clusters do not suffice. -/
def DoesNotFit (disk : ByteMemory) (filename : CString) (buffer : List UInt8) (offset : Nat) : Prop :=
  ∃ r ∈ dirEntries disk, r.name = (normalizeFilename filename).bytes ∧
    (offset = r.size ∧ lowFree disk + 2 < appendNeed r.size buffer.length ∨
      offset < r.size ∧
        lowFree disk + 2 < getClusterCountNeeded ((r.size + buffer.length) % wordModulus))

section
variable {s s' start : Fs} {others : List (Nat × Nat)} {dir lost : List Nat} {es : List Entry}

theorem request_survives (req : Request) (parked : Parked s others)
    (catalog : Catalog s.disk dir es lost) (ready : req.Ready s.disk) :
    Survives req.run s fun _ s' => ∃ dir' es' lost', Parked s' others ∧
      Catalog s'.disk dir' es' lost' := by
  have looking : ∀ s', Looked others s s' → ∃ dir' es' lost', Parked s' others ∧
      Catalog s'.disk dir' es' lost' := by
    intro s' looked
    refine ⟨dir, es, lost, looked.parked, ?_⟩
    rw [looked.disk]
    exact catalog
  have reading : ∀ {α : Type} {x : Kernel α}, Survives x s (fun _ s' => Looked others s s') →
      Survives (x >>= fun _ => pure ()) s fun _ s' => ∃ dir' es' lost', Parked s' others ∧
        Catalog s'.disk dir' es' lost' := by
    intro α x survives
    apply meets_call survives
    intro _ s1 looked
    exact meets_pure.mpr (looking s1 looked)
  cases req with
  | file op =>
    apply meets_call (survives_of_completes (operation_run op parked catalog ready))
    rintro _ s1 ⟨dir', es', lost', parked', catalog', _⟩
    exact meets_pure.mpr ⟨dir', es', lost', parked', catalog'⟩
  | cat filename => exact reading (cat_survives filename parked catalog)
  | read filename offset len => exact reading (read_survives filename offset len parked catalog)
  | ls =>
    apply meets_mono (ls_survives parked catalog)
    intro _ s1 looked
    exact looking s1 looked

-- the elaborator would otherwise run the loop over all clusters
attribute [local irreducible] fsInit clearBoot

theorem serves_catalog (boot : Boot start) (serves : Serves (fun disk req => req.Ready disk) start s) :
    ∃ others dir es lost, Parked s others ∧ Catalog s.disk dir es lost := by
  induction serves with
  | init run =>
    obtain ⟨others, owned⟩ := boot.heap
    obtain ⟨dir, es, parked, catalog, _⟩ := completes_result (fsInit_run owned boot.disk) run
    exact ⟨others, dir, es, [], parked, catalog⟩
  | step req _ ready run ih =>
    obtain ⟨others, dir, es, lost, parked, catalog⟩ := ih
    have survives := request_survives req parked catalog ready
    exact ⟨others, meets_result survives run⟩

theorem survives_no_panic {α : Type} {x : Kernel α} {post : α → Fs → Prop}
    (survives : Survives x s post) : x s ≠ .error .panic := by
  intro stopped
  unfold Survives Meets at survives
  rw [stopped] at survives
  exact survives rfl

/-- The entries behind a write that did not fit. -/
theorem refused_entries {filename : CString} {buffer : List UInt8} {offset res : Nat}
    {disk' : ByteMemory} {es' : List Entry} (catalog : Catalog s.disk dir es lost)
    (written : Written (normalizeFilename filename) s.disk disk' es buffer offset res es')
    (large : DoesNotFit s.disk filename buffer offset) : es' = es := by
  obtain ⟨r, inside, named, large⟩ := large
  rw [catalog_entries catalog] at inside
  obtain ⟨e, member, rfl⟩ := List.mem_map.mp inside
  have unique : ∀ {i : Nat} (small : i < es.length),
      position (normalizeFilename filename) es = some i → es[i] = e := by
    intro i small found
    obtain ⟨_, same⟩ := position_some found
    exact entry_unique catalog.names (List.getElem_mem small) member (same.trans named.symm)
  cases written with
  | missing missing same => rfl
  | beyond found small outside same => rfl
  | refused found small inside full same => rfl
  | @appended i found small last e' appended =>
    have here := unique small found
    cases appended with
    | stored cells length room content idle =>
      rw [here] at last room
      rcases large with ⟨_, full⟩ | ⟨less, _⟩
      · omega
      · omega
    | refused full content => exact List.set_getElem_self small
  | @inserted i found small inside room e' inserted =>
    have here := unique small found
    rw [here] at inside room
    rcases large with ⟨same, _⟩ | ⟨_, full⟩
    · omega
    · omega

end

/-! ## The guarantee -/

theorem serves_of_reaches {start s : Fs} {ops : List FileOperation}
    (reaches : Reaches (fun _ _ => True) start ops s) : Serves (fun _ _ => True) start s := by
  induction reaches with
  | init run => exact .init run
  | step op before ready run ih =>
    refine .step (.file op) ih trivial ?_
    exact run_bind run

/-- The last eleven bytes of a record: the end of the name, start cluster 0, size 0
and the system flag; then enough to fill a second cluster. -/
def forgedText : List UInt8 := List.replicate 10 0 ++ [2] ++ List.replicate 54 120

/-- Seven files; the copy of the forged text goes over the last record of the
directory, which is that of e, and the next copy to the chain of e. -/
def forgedRecord : List FileOperation :=
  [.rm primesName, .touch ⟨textBytes "a", plain_a⟩, .touch ⟨textBytes "b", plain_b⟩,
    .touch ⟨textBytes "c", plain_c⟩, .touch ⟨textBytes "d", plain_d⟩,
    .touch ⟨textBytes "e", plain_e⟩, .write ⟨textBytes "a", plain_a⟩ forgedText 0,
    .setAsSystemFile ⟨textBytes "b", plain_b⟩,
    .cp ⟨textBytes "a", plain_a⟩ ⟨textBytes "b", plain_b⟩,
    .cp ⟨textBytes "a", plain_a⟩ ⟨textBytes "e", plain_e⟩]

end Delos.Guarantees
