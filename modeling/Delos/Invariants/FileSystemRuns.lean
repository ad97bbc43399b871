import Delos.Invariants.FileFlags
import Delos.Invariants.FileSystemStart
import Delos.Invariants.DiskDecoding

/-!
# Runs of file operations

`Ready` says of a disk what an operation needs: the saved directory fits its
clusters and the clusters it takes are free below the two marker values. In a
run in which every operation is ready the disk keeps a catalog.
-/
namespace Delos.Invariants
open Lib Source

inductive FileOperation where
  | touch (filename : CString)
  | rm (filename : CString)
  | deleteSystemFile (filename : CString)
  | write (filename : CString) (buffer : List UInt8) (offset : Nat)
  | cp (src des : CString)
  | openFile (filename : CString)
  | closeFile (filename : CString)
  | setAsSystemFile (filename : CString)

namespace FileOperation

def run : FileOperation → Kernel Nat
  | touch filename => Source.touch filename
  | rm filename => Source.rm filename
  | deleteSystemFile filename => Source.deleteSystemFile filename
  | write filename buffer offset => Source.write filename buffer offset
  | cp src des => Source.cp src des
  | openFile filename => Source.openFile filename
  | closeFile filename => Source.closeFile filename
  | setAsSystemFile filename => Source.setAsSystemFile filename

/-- The file an operation is about; for `cp` it is the destination. -/
def target : FileOperation → CString
  | touch filename | rm filename | deleteSystemFile filename | write filename _ _ | cp _ filename
  | openFile filename | closeFile filename | setAsSystemFile filename => normalizeFilename filename

/-- What `cp` needs for the `count` data clusters of the source. -/
structure CopyFits (disk : ByteMemory) (count : Nat) (des : CString) : Prop where
  absent : (∀ r ∈ dirEntries disk, r.name ≠ des.bytes) →
    CreateRoom (lowFree disk) (dirEntries disk).length ∧
      count + dirClusters ((dirEntries disk).length + 1) + 1 ≤
        lowFree disk + dirClusters (dirEntries disk).length
  user : ∀ r ∈ dirEntries disk, r.name = des.bytes → r.isSystem = false →
    Fits ((dirEntries disk).length - 1) ∧
      count + 1 ≤ lowFree disk + (chainOf disk r.startCluster).length
  system : ∀ r ∈ dirEntries disk, r.name = des.bytes → r.isSystem = true → count ≤ lowFree disk + 1

def Ready (disk : ByteMemory) : FileOperation → Prop
  | touch filename => (∀ r ∈ dirEntries disk, r.name ≠ (normalizeFilename filename).bytes) →
      CreateRoom (lowFree disk) (dirEntries disk).length
  | rm filename => ∀ r ∈ dirEntries disk, r.name = (normalizeFilename filename).bytes →
      r.isSystem = false → Fits ((dirEntries disk).length - 1)
  | deleteSystemFile filename => ∀ r ∈ dirEntries disk,
      r.name = (normalizeFilename filename).bytes → Fits ((dirEntries disk).length - 1)
  | write filename buffer offset => ∀ r ∈ dirEntries disk,
      r.name = (normalizeFilename filename).bytes →
        WriteReady (lowFree disk) r.size offset buffer.length (dataClusters disk r).length
  | cp src des => ∀ r ∈ dirEntries disk, r.name = (normalizeFilename src).bytes →
      normalizeFilename src ≠ normalizeFilename des →
        CopyFits disk (dataClusters disk r).length (normalizeFilename des)
  | openFile _ | closeFile _ | setAsSystemFile _ => True

/-- No EOF cluster is left behind: a write inside a file goes to its last data
cluster, and a system file that is copied over has one data cluster. -/
def Lossless (disk : ByteMemory) : FileOperation → Prop
  | write filename buffer offset => ∀ r ∈ dirEntries disk,
      r.name = (normalizeFilename filename).bytes → offset < r.size →
        getClusterCountNeeded ((r.size + buffer.length) % wordModulus) ≤ lowFree disk + 2 →
          (dataClusters disk r).length = offset / clusterSize + 1
  | cp src des => (∃ r ∈ dirEntries disk, r.name = (normalizeFilename src).bytes) →
      normalizeFilename src ≠ normalizeFilename des →
        ∀ r ∈ dirEntries disk, r.name = (normalizeFilename des).bytes → r.isSystem = true →
          (chainOf disk r.startCluster).length = 2
  | _ => True

end FileOperation

open FileOperation

/-- The kernel when `fs_init` is called: any heap, any disk. -/
structure Boot (s : Fs) : Prop where
  heap : ∃ others, Owned s.heap others
  disk : s.disk.origin ≤ fsStartAddr

/-- States reached from `fs_init` by operations that are allowed on their disk. -/
inductive Reaches (allowed : ByteMemory → FileOperation → Prop) (start : Fs) :
    List FileOperation → Fs → Prop
  | init {res : Nat} {s : Fs} (run : fsInit start = .ok (res, s)) : Reaches allowed start [] s
  | step {ops : List FileOperation} {s s' : Fs} {res : Nat} (op : FileOperation)
      (before : Reaches allowed start ops s) (ready : allowed s.disk op)
      (run : op.run s = .ok (res, s')) : Reaches allowed start (ops ++ [op]) s'

section
variable {s start : Fs} {others : List (Nat × Nat)} {dir lost : List Nat} {es : List Entry}

theorem position_entries (filename : CString) : position filename es = none ↔
    ∀ r ∈ es.map Entry.record, r.name ≠ filename.bytes := by
  constructor
  · intro missing r inside
    obtain ⟨e, member, rfl⟩ := List.mem_map.mp inside
    exact position_none missing e member
  · intro missing
    refine List.findIdx?_eq_none_iff.mpr fun e inside => decide_eq_false ?_
    exact missing _ (List.mem_map.mpr ⟨e, inside, rfl⟩)

theorem flagChanged_undisturbed {filename : CString} {bit : Nat} {v : Bool} {disk disk' : ByteMemory}
    (same : SameOn (es.map Entry.cells).flatten disk disk') :
    Undisturbed filename.bytes disk disk' es (flagChanged filename bit v es) := by
  refine undisturbed_same (fun e inside other => ?_) same
  unfold flagChanged
  cases found : position filename es with
  | none => exact inside
  | some i =>
    obtain ⟨small, named⟩ := position_some found
    have modified : es.modify i (fun e => e.withFlag bit v) = es.set i (es[i].withFlag bit v) := by
      rw [List.modify_eq_set_getElem?, List.getElem?_eq_getElem small]
      rfl
    simp only [modified]
    refine (mem_set_entries small _).mpr (Or.inr ?_)
    rcases (mem_entries small).mp inside with here | rest
    · subst here
      exact absurd named other
    · exact rest

/-- The conditions of an operation, read from the catalog. -/
theorem copyReady_of_fits {count : Nat} {des : CString} (catalog : Catalog s.disk dir es lost)
    (fits : CopyFits s.disk count des) : CopyReady (lowFree s.disk) count es des := by
  obtain ⟨absent, user, system⟩ := fits
  rw [catalog_entries catalog] at absent user system
  rw [List.length_map] at absent user
  refine ⟨fun missing => absent ((position_entries des).mp missing), fun e inside named free => ?_,
    fun e inside named marked => system _ (List.mem_map.mpr ⟨e, inside, rfl⟩) named marked⟩
  have fits := user _ (List.mem_map.mpr ⟨e, inside, rfl⟩) named free
  rwa [catalog_file catalog inside] at fits

/-- Every operation keeps the catalog and leaves the other files alone. -/
theorem operation_run (op : FileOperation) (parked : Parked s others)
    (catalog : Catalog s.disk dir es lost) (ready : op.Ready s.disk) :
    Completes op.run s fun _ s' => ∃ dir' es' lost', Parked s' others ∧
      Catalog s'.disk dir' es' lost' ∧ Kept others s.heap s'.heap ∧
      Undisturbed op.target.bytes s.disk s'.disk es es' ∧ (op.Lossless s.disk → lost' = lost) := by
  have entries := catalog_entries catalog
  have length : (dirEntries s.disk).length = es.length := by rw [entries, List.length_map]
  have member : ∀ e ∈ es, e.record ∈ dirEntries s.disk := fun e inside => by
    rw [entries]
    exact List.mem_map.mpr ⟨e, inside, rfl⟩
  cases op with
  | touch filename =>
    refine meets_mono (touch_run filename parked catalog fun missing => ?_) ?_
    · have room := ready (by rw [entries]; exact (position_entries _).mp missing)
      rwa [length] at room
    · rintro res s' ⟨dir', es', parked', catalog', kept, same, result⟩
      refine ⟨dir', es', lost, parked', catalog', kept, undisturbed_same (fun e inside _ => ?_) same,
        fun _ => rfl⟩
      cases result with
      | present found => exact inside
      | created missing eof new => exact List.mem_append_left _ inside
  | rm filename =>
    refine meets_mono (rm_run filename parked catalog fun e inside named free => ?_) ?_
    · have fits := ready _ (member e inside) named free
      rwa [length] at fits
    · rintro res s' ⟨dir', es', parked', catalog', kept, same, _⟩
      exact ⟨dir', es', lost, parked', catalog', kept, same, fun _ => rfl⟩
  | deleteSystemFile filename =>
    refine meets_mono (deleteSystemFile_run filename parked catalog fun found => ?_) ?_
    · obtain ⟨i, here⟩ := Option.ne_none_iff_exists'.mp found
      obtain ⟨small, named⟩ := position_some here
      have fits := ready _ (member _ (List.getElem_mem small)) named
      rwa [length] at fits
    · rintro res s' ⟨dir', es', parked', catalog', kept, same, _⟩
      exact ⟨dir', es', lost, parked', catalog', kept, same, fun _ => rfl⟩
  | write filename buffer offset =>
    refine meets_mono (write_run filename buffer offset parked catalog fun e inside named => ?_) ?_
    · have room := ready _ (member e inside) named
      rwa [catalog_data catalog inside] at room
    · rintro res s' ⟨dir', es', lost', parked', catalog', kept, same, leak, _⟩
      refine ⟨dir', es', lost', parked', catalog', kept, same, fun lossless => leak ?_⟩
      intro e inside named before enough
      have all := lossless _ (member e inside) named before enough
      rwa [catalog_data catalog inside] at all
  | cp src des =>
    refine meets_mono (cp_run src des parked catalog fun e inside named different => ?_) ?_
    · have fits := ready _ (member e inside) named different
      rw [catalog_data catalog inside] at fits
      exact copyReady_of_fits catalog fits
    · rintro res s' ⟨dir', es', lost', parked', catalog', kept, same, leak, _⟩
      refine ⟨dir', es', lost', parked', catalog', kept, same, fun lossless => leak ?_⟩
      rintro ⟨e, inside, named⟩ different e' inside' named' marked
      have two := lossless ⟨_, member e inside, named⟩ different _ (member e' inside') named' marked
      rwa [catalog_file catalog inside'] at two
  | openFile filename =>
    refine meets_mono (openFile_run filename parked catalog) ?_
    rintro res s' ⟨dir', es', parked', catalog', same, kept, ⟨_, _, rfl⟩ | ⟨_, _, rfl⟩⟩
    · exact ⟨dir', _, lost, parked', catalog', kept,
        undisturbed_same (fun e inside _ => inside) same, fun _ => rfl⟩
    · exact ⟨dir', _, lost, parked', catalog', kept, flagChanged_undisturbed same, fun _ => rfl⟩
  | closeFile filename =>
    refine meets_mono (closeFile_run filename parked catalog) ?_
    rintro res s' ⟨dir', es', parked', catalog', same, kept, ⟨_, _, rfl⟩ | ⟨_, _, rfl⟩⟩
    · exact ⟨dir', _, lost, parked', catalog', kept,
        undisturbed_same (fun e inside _ => inside) same, fun _ => rfl⟩
    · exact ⟨dir', _, lost, parked', catalog', kept, flagChanged_undisturbed same, fun _ => rfl⟩
  | setAsSystemFile filename =>
    refine meets_mono (setAsSystemFile_run filename parked catalog) ?_
    rintro res s' ⟨dir', es', parked', catalog', same, kept, ⟨_, _, rfl⟩ | ⟨_, _, rfl⟩⟩
    · exact ⟨dir', _, lost, parked', catalog', kept,
        undisturbed_same (fun e inside _ => inside) same, fun _ => rfl⟩
    · exact ⟨dir', _, lost, parked', catalog', kept, flagChanged_undisturbed same, fun _ => rfl⟩

-- the elaborator would otherwise run the loop over all clusters
attribute [local irreducible] fsInit

/-- A run of ready operations keeps a catalog. -/
theorem reaches_catalog {ops : List FileOperation} (boot : Boot start)
    (reaches : Reaches (fun disk op => op.Ready disk) start ops s) :
    ∃ others dir es lost, Parked s others ∧ Catalog s.disk dir es lost := by
  induction reaches with
  | init run =>
    obtain ⟨others, owned⟩ := boot.heap
    obtain ⟨dir, es, parked, catalog, _⟩ := completes_result (fsInit_run owned boot.disk) run
    exact ⟨others, dir, es, [], parked, catalog⟩
  | step op _ ready run ih =>
    obtain ⟨others, dir, es, lost, parked, catalog⟩ := ih
    obtain ⟨dir', es', lost', parked', catalog', _⟩ :=
      completes_result (operation_run op parked catalog ready) run
    exact ⟨others, dir', es', lost', parked', catalog'⟩

/-- If no operation leaves an EOF cluster behind, none is lost. -/
theorem reaches_lossless {ops : List FileOperation} (boot : Boot start)
    (reaches : Reaches (fun disk op => op.Ready disk ∧ op.Lossless disk) start ops s) :
    ∃ others dir es, Parked s others ∧ Catalog s.disk dir es [] := by
  induction reaches with
  | init run =>
    obtain ⟨others, owned⟩ := boot.heap
    obtain ⟨dir, es, parked, catalog, _⟩ := completes_result (fsInit_run owned boot.disk) run
    exact ⟨others, dir, es, parked, catalog⟩
  | step op _ ready run ih =>
    obtain ⟨others, dir, es, parked, catalog⟩ := ih
    obtain ⟨dir', es', lost', parked', catalog', _, _, none⟩ :=
      completes_result (operation_run op parked catalog ready.1) run
    rw [none ready.2] at catalog'
    exact ⟨others, dir', es', parked', catalog'⟩

end

/-! ## Runs on a clear disk -/

/-- The kernel heap is initialised and every FAT entry is free already. -/
def clearBoot : Fs where
  page0 := ⟨0, 0⟩
  heap := (heapInit kernelHeap.addr kernelHeap.size ⟨kernelHeap.addr, 0⟩).2
  disk := ⟨fsStartAddr, freeCluster * ((2 ^ (16 * clusterCount) - 1) / (2 ^ 16 - 1))⟩
  root := 0
  screen := []

/-- Every operation runs after the one before it. -/
def runAll : List FileOperation → Fs → Except Stop Fs
  | [], s => .ok s
  | op :: rest, s => do
    let (_, s) ← op.run s
    runAll rest s

/-- The state after `fs_init` and a list of operations. -/
def clearRun (ops : List FileOperation) : Except Stop Fs := do
  let (_, s) ← initRootFolder clearBoot
  runAll ops s

/-- A test of the state a run ends in. -/
def endsWith {σ : Type} (test : σ → Bool) : Except Stop σ → Bool
  | .ok s => test s
  | .error _ => false

theorem endsWith_iff {σ : Type} {test : σ → Bool} {x : Except Stop σ} :
    endsWith test x = true ↔ ∃ s, x = .ok s ∧ test s = true := by
  cases x with
  | ok s => simp [endsWith]
  | error e => simp [endsWith]

theorem endsWith_run {α σ : Type} {x : Except Stop (α × σ)} {test : σ → Bool}
    (ends : endsWith test (x.map Prod.snd) = true) : ∃ a s, x = .ok (a, s) ∧ test s = true := by
  cases x with
  | ok p => exact ⟨p.1, p.2, rfl, ends⟩
  | error e => exact absurd ends Bool.false_ne_true

/-- The run stops for this reason. -/
def stopsWith {α : Type} (stop : Stop) : Except Stop α → Bool
  | .ok _ => false
  | .error e => decide (e = stop)

theorem stopsWith_iff {α : Type} {stop : Stop} {x : Except Stop α} : stopsWith stop x = true ↔ x = .error stop := by
  cases x with
  | ok a => simp [stopsWith]
  | error e => simp [stopsWith]

theorem boot_clear : Boot clearBoot := by
  refine ⟨⟨[], ?_⟩, ?_⟩
  · exact owned_heapInit (m := ⟨kernelHeap.addr, 0⟩) (Nat.le_refl _)
  · exact Nat.le_refl fsStartAddr

theorem clearBoot_free : ∀ i < clusterCount, fatValue clearBoot.disk i = freeCluster := by
  have rows : ∀ i < 64, ∀ j < 64, 64 * i + j < clusterCount →
      fatValue clearBoot.disk (64 * i + j) = freeCluster := by decide +kernel
  intro i small
  have count : clusterCount = 4095 := rfl
  have place : 64 * (i / 64) + i % 64 = i := Nat.div_add_mod i 64
  have here := rows (i / 64) (by omega) (i % 64) (Nat.mod_lt _ (by decide))
  rw [place] at here
  exact here small

theorem freeEveryCluster_clear {s : Fs} (left i : Nat) (whole : i + left = clusterCount)
    (free : ∀ j < clusterCount, fatValue s.disk j = freeCluster) :
    freeEveryCluster left i s = .ok ((), s) := by
  induction left generalizing i with
  | zero => rfl
  | succ left ih =>
    unfold freeEveryCluster
    rw [run_bind (setFat_run s (by omega) _), setFatValue_self (free i (by omega))]
    exact ih (i + 1) (by omega)

attribute [local irreducible] clearBoot

theorem fsInit_clear : fsInit clearBoot = initRootFolder clearBoot := by
  unfold fsInit
  generalize all : clusterCount = count
  have clear := freeEveryCluster_clear count 0 ((Nat.zero_add count).trans all.symm)
    clearBoot_free
  rw [run_bind clear]

/-! The names of the files in these runs. -/

theorem plain_a : (0 : UInt8) ∉ textBytes "a" := by decide
theorem plain_b : (0 : UInt8) ∉ textBytes "b" := by decide
theorem plain_c : (0 : UInt8) ∉ textBytes "c" := by decide
theorem plain_d : (0 : UInt8) ∉ textBytes "d" := by decide
theorem plain_e : (0 : UInt8) ∉ textBytes "e" := by decide

theorem runAll_reaches {start s s' : Fs} {before ops : List FileOperation}
    (reaches : Reaches (fun _ _ => True) start before s) (run : runAll ops s = .ok s') :
    Reaches (fun _ _ => True) start (before ++ ops) s' := by
  induction ops generalizing before s with
  | nil =>
    obtain rfl : s = s' := Except.ok.inj run
    rw [List.append_nil]
    exact reaches
  | cons op rest ih =>
    cases first : op.run s with
    | error e => simp [runAll, first, bind, Except.bind] at run
    | ok p =>
      obtain ⟨res, mid⟩ := p
      simp only [runAll, first, bind, Except.bind] at run
      have later := ih (.step op reaches trivial first) run
      rwa [List.append_assoc] at later

theorem clearRun_init {s : Fs} {allowed : ByteMemory → FileOperation → Prop} (run : clearRun [] = .ok s) :
    Reaches allowed clearBoot [] s := by
  cases first : initRootFolder clearBoot with
  | error e => simp [clearRun, first, bind, Except.bind] at run
  | ok p =>
    simp only [clearRun, first, bind, Except.bind] at run
    obtain rfl : p.2 = s := Except.ok.inj run
    exact .init (fsInit_clear.trans first)

theorem clearRun_reaches {s : Fs} {ops : List FileOperation} (run : clearRun ops = .ok s) :
    Reaches (fun _ _ => True) clearBoot ops s := by
  cases first : initRootFolder clearBoot with
  | error e => simp [clearRun, first, bind, Except.bind] at run
  | ok p =>
    obtain ⟨res, mid⟩ := p
    simp only [clearRun, first, bind, Except.bind] at run
    exact runAll_reaches (.init (fsInit_clear.trans first)) run

/-! ## What `fs_init` leaves

Closed runs start from its result, which is written down here once: the FAT, the directory, the
text of the three files and the freed blocks of the kernel heap, with what is still in them. -/

/-- A record of the directory; `flags` holds the two bits behind the size. -/
def rawRecord (name : CString) (start size flags : Nat) : List UInt8 :=
  name.bytes ++ List.replicate (16 - name.bytes.length) 0 ++ ByteMemory.leBytes 4 start ++
    ByteMemory.leBytes 4 size ++ [UInt8.ofNat flags]

/-- The header of a block in the heap; `flags` is the byte with the bit that says free. -/
def rawBlock (next flags size : Nat) : List UInt8 :=
  ByteMemory.leBytes 4 next ++ [UInt8.ofNat flags] ++ ByteMemory.leBytes 4 size

def padded (size : Nat) (bytes : List UInt8) : List UInt8 := bytes ++ List.replicate (size - bytes.length) 0

/-- The first entries of the FAT; all others are free. -/
def diskImage (entries : List Nat) (clusters : List UInt8) : Nat :=
  ByteMemory.leValue (entries.flatMap (ByteMemory.leBytes 2)) +
    freeCluster * ((2 ^ (16 * clusterCount) - 2 ^ (16 * entries.length)) / (2 ^ 16 - 1)) +
      2 ^ (16 * clusterCount) * ByteMemory.leValue clusters

/-- The text of README.md in short pieces, which are turned into bytes sooner than a long one. -/
def readmePieces : List String :=
  ["Welcome to a pseudo-FAT12-", "based file system. This file ", "system supports basic ",
    "operations like cat, ls, ", "touch, cp, etc. It was ", "created as a part of the ",
    "semestral project of the ", "KIV/OS module in 2021.\n\r"]

/-- Two records are in the first cluster and two in the next; the rest is behind the files. -/
def savedDisk (entries : List Nat) (count : Nat) (records : List UInt8) : ByteMemory :=
  ⟨fsStartAddr, diskImage entries (padded 64 (ByteMemory.leBytes 4 count ++ records.take 50) ++
    padded 64 ((records.drop 50).take 50) ++ padded 320 (readmePieces.flatMap textBytes) ++
      padded 192 asciiText ++ padded 128 primesText ++ records.drop 100)⟩

/-- The folder, its array, and what is left of an older array behind the two. -/
def savedHeap (count : Nat) (records old : List UInt8) : ByteMemory :=
  ⟨kernelHeap.addr, ByteMemory.leValue
    (rawBlock (kernelHeap.addr + 17) 1 17 ++ ByteMemory.leBytes 4 count ++ ByteMemory.leBytes 4 0 ++
      rawBlock (kernelHeap.addr + 26 + records.length) 1 (9 + records.length) ++ records ++
        rawBlock (kernelHeap.addr + 35 + records.length + old.length) 199 (9 + old.length) ++ old ++
          rawBlock 0 1 (kernelHeap.size - (35 + records.length + old.length)))⟩

def readmeRecord : List UInt8 := rawRecord readmeName 2 199 0
def asciiRecord : List UInt8 := rawRecord asciiName 7 94 0
def primesRecord (size : Nat) : List UInt8 := rawRecord primesName 10 size 0

def readyFs : Fs where
  page0 := ⟨0, 0⟩
  heap := savedHeap 3 (readmeRecord ++ asciiRecord ++ primesRecord 94) (asciiRecord ++ primesRecord 0)
  disk := savedDisk [1, 12, 3, 4, 5, 6, eofCluster, 8, 9, eofCluster, 11, 13, eofCluster, eofCluster] 3
    (readmeRecord ++ asciiRecord ++ primesRecord 94)
  root := 0
  screen := []

theorem initRootFolder_clear : initRootFolder clearBoot = .ok (0, readyFs) := by
  have same : endsWith (fun p => decide (p = (0, readyFs))) (initRootFolder clearBoot) = true := by decide +kernel
  obtain ⟨p, run, holds⟩ := endsWith_iff.mp same
  rw [run, of_decide_eq_true holds]

theorem clearRun_ready (ops : List FileOperation) : clearRun ops = runAll ops readyFs := by
  rw [clearRun, initRootFolder_clear]
  rfl

/-- The first step after `fs_init`. -/
theorem clear_step (allowed : ByteMemory → FileOperation → Prop) :
    ∃ s s' res, Reaches allowed clearBoot [] s ∧
      (FileOperation.openFile readmeName).run s = .ok (res, s') := by
  have opened : endsWith (fun _ => true) (((FileOperation.openFile readmeName).run readyFs).map Prod.snd) = true := by
    decide +kernel
  obtain ⟨res, s', step, _⟩ := endsWith_run opened
  exact ⟨readyFs, s', res, .init (fsInit_clear.trans initRootFolder_clear), step⟩

end Delos.Invariants
