import Delos.Invariants.FileSystemRuns

/-!
# Every cluster in use belongs to one chain

The account is taken from the disk: a FAT entry that is not free lies on the
chain of the directory or on that of one file. A write in the middle of a file
leaves the old EOF cluster behind unless the write goes to the last data cluster.
-/
namespace Delos.Guarantees
open Lib Source Invariants

/-- The chain of the directory and the chains of the files. -/
def chainsOn (disk : ByteMemory) : List (List Nat) :=
  chainOf disk 0 :: (dirEntries disk).map fun r => chainOf disk r.startCluster

structure ClusterAccounting (disk : ByteMemory) : Prop where
  once : ∀ c < clusterCount, fatValue disk c ≠ freeCluster →
    (chainsOn disk).countP (fun cells => decide (c ∈ cells)) = 1
  emptied : dirEntries disk = [] →
    ∀ c < clusterCount, c ∉ chainOf disk 0 → fatValue disk c = freeCluster

section
variable {disk : ByteMemory} {dir lost : List Nat} {es : List Entry}

theorem countP_flatten {chains : List (List Nat)} {c : Nat} (apart : chains.flatten.Nodup)
    (member : c ∈ chains.flatten) : chains.countP (fun cells => decide (c ∈ cells)) = 1 := by
  induction chains with
  | nil => exact absurd member List.not_mem_nil
  | cons cells rest ih =>
    rw [List.flatten_cons] at apart member
    obtain ⟨_, later, disjoint⟩ := List.nodup_append.mp apart
    by_cases here : c ∈ cells
    · have none : rest.countP (fun cells => decide (c ∈ cells)) = 0 := by
        refine List.countP_eq_zero.mpr fun other inside => ?_
        intro found
        exact disjoint c here c (List.mem_flatten.mpr ⟨other, inside, of_decide_eq_true found⟩) rfl
      rw [List.countP_cons, none]
      simp [here]
    · have inside : c ∈ rest.flatten := (List.mem_append.mp member).resolve_left here
      rw [List.countP_cons, ih later inside]
      simp [here]

theorem chainsOn_catalog (catalog : Catalog disk dir es lost) :
    chainsOn disk = (0 :: dir) :: es.map Entry.cells := by
  unfold chainsOn
  rw [catalog_directory catalog, catalog_entries catalog, List.map_map]
  congr 1
  exact List.map_congr_left fun e inside => catalog_file catalog inside

theorem accounting_of_catalog (catalog : Catalog disk dir es []) : ClusterAccounting disk := by
  have ledger := catalog.volume.ledger
  have apart := ledger.apart
  have free := ledger.free
  rw [List.append_nil, ← chainsOn_catalog catalog] at apart free
  constructor
  · intro c small used
    apply countP_flatten apart
    by_contra outside
    exact used ((free c small).mpr outside)
  · intro empty c small outside
    apply (free c small).mpr
    rw [chainsOn, empty, List.map_nil, List.flatten_cons, List.flatten_nil, List.append_nil]
    exact outside

end

/-! ## The guarantee -/

/-- In every run of ready operations that leave no EOF cluster behind. -/
theorem cluster_accounting {start s : Fs} {ops : List FileOperation} (boot : Boot start)
    (run : Reaches (fun disk op => op.Ready disk ∧ op.Lossless disk) start ops s) :
    ClusterAccounting s.disk := by
  obtain ⟨others, dir, es, _, catalog⟩ := reaches_lossless boot run
  exact accounting_of_catalog catalog

/-- Opening README.md right after `fs_init`. -/
theorem cluster_accounting_open : ∃ s,
    Reaches (fun disk op => op.Ready disk ∧ op.Lossless disk) clearBoot [.openFile readmeName] s ∧
      ClusterAccounting s.disk := by
  obtain ⟨s, s', res, before, step⟩ := clear_step fun disk op => op.Ready disk ∧ op.Lossless disk
  have run := Reaches.step (.openFile readmeName) before ⟨trivial, trivial⟩ step
  exact ⟨s', run, cluster_accounting boot_clear run⟩

/-- One byte written at the start of README.md. -/
def frontWrite : List FileOperation := [.write readmeName (textBytes "x") 0]

/-- Cluster 6, the EOF cluster of the file before the write, stays in use. -/
theorem cluster_accounting_front_write : ¬ ∀ start s ops, Boot start →
    Reaches (fun _ _ => True) start ops s → ClusterAccounting s.disk := by
  intro claim
  have broken : endsWith (fun s => decide (fatValue s.disk 6 ≠ freeCluster ∧
      (chainsOn s.disk).countP (fun cells => decide (6 ∈ cells)) = 0)) (clearRun frontWrite) = true := by
    rw [clearRun_ready]
    decide +kernel
  obtain ⟨s, run, found⟩ := endsWith_iff.mp broken
  obtain ⟨used, none⟩ := of_decide_eq_true found
  have once := (claim clearBoot s frontWrite boot_clear (clearRun_reaches run)).once 6 (by decide) used
  rw [none] at once
  exact absurd once (by decide)

end Delos.Guarantees
