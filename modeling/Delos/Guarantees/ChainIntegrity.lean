import Delos.Invariants.FileSystemRuns

/-!
# The chains of the FAT over every run

`ChainIntegrity` is read off the disk alone: the chains are found by following
the FAT from cluster 0 and from the start cluster of every record. It holds in
every run whose operations are ready. A directory of seven files is not: its
last record does not fit the last cluster and runs into the cluster behind it.
-/
namespace Delos.Guarantees
open Lib Source Invariants

/-- A chain found on the disk: it starts at `first`, meets no cluster twice and
ends in an EOF cluster; no link in it has a marker value. -/
structure FatChain (disk : ByteMemory) (first : Nat) (cells : List Nat) : Prop where
  head : cells.head? = some first
  acyclic : cells.Nodup
  low : ∀ c ∈ cells, c < clusterCount
  linked : cells.IsChain fun a b => fatValue disk a = b
  ends : ∃ marker, cells.getLast? = some marker ∧ fatValue disk marker = eofCluster
  inner : ∀ c ∈ cells.dropLast, fatValue disk c ≠ eofCluster
  unmarked : ∀ c ∈ cells, fatValue disk c ≠ freeCluster ∧ fatValue disk c ≠ takenCluster

structure ChainIntegrity (disk : ByteMemory) : Prop where
  directory : FatChain disk 0 (chainOf disk 0)
  files : ∀ r ∈ dirEntries disk, FatChain disk r.startCluster (chainOf disk r.startCluster)
  apart : (chainOf disk 0 :: (dirEntries disk).map fun r => chainOf disk r.startCluster).Pairwise
    List.Disjoint
  names : ((dirEntries disk).map Record.name).Nodup

section
variable {disk : ByteMemory} {cells dir lost : List Nat} {es : List Entry} {first c : Nat}
  {chains : List (List Nat)}

/-- The value of every cluster but the last one is the next cluster. -/
theorem linked_inner {table : Nat → Nat} (linked : Linked table cells) (member : c ∈ cells.dropLast) :
    table c ∈ cells := by
  induction cells with
  | nil => exact absurd member List.not_mem_nil
  | cons a rest ih =>
    cases rest with
    | nil => exact absurd member List.not_mem_nil
    | cons b rest =>
      obtain ⟨step, later⟩ := List.isChain_cons_cons.mp linked
      rw [List.dropLast_cons_cons, List.mem_cons] at member
      cases member with
      | inl here =>
        rw [here, step]
        exact List.mem_cons_of_mem _ List.mem_cons_self
      | inr rest => exact List.mem_cons_of_mem _ (ih later rest)

theorem fatChain_of_volume (volume : Volume disk chains lost) (inside : cells ∈ chains)
    (head : cells.head? = some first) (ends : Ends disk cells) : FatChain disk first cells := by
  obtain ⟨front, marker, shape, _, eof⟩ := ends
  have low : ∀ c ∈ cells, c < takenCluster := fun c member => volume_low volume inside member
  have linked := volume.ledger.linked _ inside
  have count : takenCluster < clusterCount := by decide
  have marks : takenCluster < freeCluster ∧ freeCluster < eofCluster := by decide
  have last : cells.dropLast = front := by rw [shape, List.dropLast_concat]
  have next : ∀ c ∈ front, fatValue disk c < takenCluster := fun c member =>
    low _ (linked_inner linked (last ▸ member))
  constructor
  · exact head
  · exact (List.nodup_flatten.mp (List.nodup_append.mp volume.ledger.apart).1).1 cells inside
  · exact fun c member => Nat.lt_trans (low c member) count
  · exact linked
  · exact ⟨marker, by rw [shape, List.getLast?_concat], eof⟩
  · intro c member
    have := next c (last ▸ member)
    omega
  · intro c member
    rw [shape] at member
    cases List.mem_append.mp member with
    | inl front =>
      have := next c front
      omega
    | inr here =>
      rw [List.mem_singleton.mp here, eof]
      decide

theorem integrity_of_catalog (catalog : Catalog disk dir es lost) : ChainIntegrity disk := by
  have directory := catalog_directory catalog
  have entries := catalog_entries catalog
  have chains : (dirEntries disk).map (fun r => chainOf disk r.startCluster) = es.map Entry.cells := by
    rw [entries, List.map_map]
    exact List.map_congr_left fun e inside => catalog_file catalog inside
  constructor
  · rw [directory]
    exact fatChain_of_volume catalog.volume List.mem_cons_self rfl catalog.directory.ends
  · intro r inside
    rw [entries] at inside
    obtain ⟨e, member, rfl⟩ := List.mem_map.mp inside
    have placed := catalog.files e member
    rw [catalog_file catalog member]
    exact fatChain_of_volume catalog.volume
      (List.mem_cons_of_mem _ (List.mem_map.mpr ⟨e, member, rfl⟩)) placed.head placed.ends
  · rw [chains, directory]
    exact (List.nodup_flatten.mp (List.nodup_append.mp catalog.volume.ledger.apart).1).2
  · rw [entries, List.map_map]
    exact catalog.names

end

/-! ## The guarantee -/

/-- In every run of ready operations the chains are intact. -/
theorem chain_integrity {start s : Fs} {ops : List FileOperation} (boot : Boot start)
    (run : Reaches (fun disk op => op.Ready disk) start ops s) : ChainIntegrity s.disk := by
  obtain ⟨others, dir, es, lost, _, catalog⟩ := reaches_catalog boot run
  exact integrity_of_catalog catalog

/-- Opening README.md right after `fs_init`. -/
theorem chain_integrity_open : ∃ s, Reaches (fun disk op => op.Ready disk) clearBoot
    [.openFile readmeName] s ∧ ChainIntegrity s.disk := by
  obtain ⟨s, s', res, before, step⟩ := clear_step fun disk op => op.Ready disk
  have run := Reaches.step (.openFile readmeName) before trivial step
  exact ⟨s', run, chain_integrity boot_clear run⟩

/-- `fs_init`, then a directory of seven files. The system file b is not replaced,
and the copy of README.md goes to its first cluster, where the last record of the
directory ends. -/
def sevenFiles : List FileOperation :=
  [.rm primesName, .touch ⟨textBytes "a", plain_a⟩, .touch ⟨textBytes "b", plain_b⟩,
    .touch ⟨textBytes "c", plain_c⟩, .touch ⟨textBytes "d", plain_d⟩,
    .touch ⟨textBytes "e", plain_e⟩, .setAsSystemFile ⟨textBytes "b", plain_b⟩,
    .cp readmeName ⟨textBytes "b", plain_b⟩]

/-- Afterwards a start cluster is made of four bytes of README.md. -/
theorem chain_integrity_seven_files : ¬ ∀ start s ops, Boot start →
    Reaches (fun _ _ => True) start ops s → ChainIntegrity s.disk := by
  intro claim
  have broken : endsWith (fun s => (dirEntries s.disk).any fun r => clusterCount ≤ r.startCluster)
      (clearRun sevenFiles) = true := by
    rw [clearRun_ready]
    decide +kernel
  obtain ⟨s, run, found⟩ := endsWith_iff.mp broken
  obtain ⟨r, inside, high⟩ := List.any_eq_true.mp found
  have chain := (claim clearBoot s sevenFiles boot_clear (clearRun_reaches run)).files r inside
  have low := chain.low r.startCluster (List.mem_of_mem_head? chain.head)
  exact absurd low (Nat.not_lt.mpr (of_decide_eq_true high))

end Delos.Guarantees
