import Delos.Invariants.FileSystemRuns
import Delos.Invariants.WriteContents

/-!
# What a write leaves in the file

A write at the end of a file appends and a write inside it inserts, as long as the file
ends in its last data cluster and does not fill it. When the size has come to a multiple
of 64 the next append overwrites the last cluster; an append for which there is no room
is reported as a success.
-/
namespace Delos.Guarantees
open Lib Source Invariants

section
variable {start s : Fs} {ops : List FileOperation} {filename : CString} {buffer : List UInt8}
  {offset : Nat} {r : Record}

theorem record_unique (catalogNames : ((dirEntries s.disk).map Record.name).Nodup) {r' : Record}
    (inside : r ∈ dirEntries s.disk) (inside' : r' ∈ dirEntries s.disk) (same : r.name = r'.name) : r = r' :=
  List.inj_on_of_nodup_map catalogNames inside inside' same

theorem reaches_names (boot : Boot start) (run : Reaches (fun disk op => op.Ready disk) start ops s) :
    ((dirEntries s.disk).map Record.name).Nodup := by
  obtain ⟨_, _, _, _, _, catalog⟩ := reaches_catalog boot run
  rw [catalog_entries catalog, List.map_map]
  exact catalog.names

/-- A write to one file that is not refused. -/
theorem write_once (boot : Boot start) (run : Reaches (fun disk op => op.Ready disk) start ops s)
    (inside : r ∈ dirEntries s.disk) (named : r.name = (normalizeFilename filename).bytes)
    (fits : WriteFits (lowFree s.disk) r.size offset buffer.length (dataClusters s.disk r).length)
    (accepted : ¬ Refuses (lowFree s.disk) r.size offset buffer.length) :
    Completes (write filename buffer offset) s fun res s' => res = 0 ∧
      ∃ r' ∈ dirEntries s'.disk, Lands s.disk s'.disk r r' buffer offset := by
  have names := reaches_names boot run
  obtain ⟨others, dir, es, lost, parked, catalog⟩ := reaches_catalog boot run
  apply meets_mono (write_lands filename buffer offset parked catalog ?_)
  · rintro res s' (⟨_, _, refused⟩ | ⟨zero, r0, inside0, named0, _, lands⟩)
    · exact absurd (refused r inside named) accepted
    · rw [record_unique names inside inside0 (named.trans named0.symm)]
      exact ⟨zero, lands⟩
  · intro r0 inside0 named0
    rw [record_unique names inside0 inside (named0.trans named.symm)]
    exact fits

/-! ## Appending -/

theorem append_exact (boot : Boot start) (run : Reaches (fun disk op => op.Ready disk) start ops s)
    (inside : r ∈ dirEntries s.disk) (named : r.name = (normalizeFilename filename).bytes)
    (room : appendNeed r.size buffer.length ≤ lowFree s.disk)
    (ends : buffer = [] ∨ (dataClusters s.disk r).length = r.size / clusterSize + 1) :
    Completes (write filename buffer r.size) s fun res s' => res = 0 ∧
      ∃ r' ∈ dirEntries s'.disk, r'.name = r.name ∧ r'.size = r.size + buffer.length ∧
        contents s'.disk r' = contents s.disk r ++ buffer := by
  have fits : WriteFits (lowFree s.disk) r.size r.size buffer.length (dataClusters s.disk r).length :=
    ⟨fun _ => ⟨room, ends.imp List.length_eq_zero_iff.mpr id⟩, fun less => absurd less (Nat.lt_irrefl _)⟩
  have accepted : ¬ Refuses (lowFree s.disk) r.size r.size buffer.length := by
    rintro (less | less)
    · exact absurd less (Nat.lt_irrefl _)
    · exact absurd less.1 (Nat.lt_irrefl _)
  apply meets_mono (write_once boot run inside named fits accepted)
  rintro res s' ⟨zero, r', inside', name, size, content⟩
  refine ⟨zero, r', inside', name, size, ?_⟩
  have short : (contents s.disk r).length ≤ r.size := List.length_take_le _ _
  rw [content, List.take_of_length_le short, List.drop_of_length_le short, List.append_nil]

/-! ## Inserting -/

theorem insert_exact (boot : Boot start) (run : Reaches (fun disk op => op.Ready disk) start ops s)
    (inside : r ∈ dirEntries s.disk) (named : r.name = (normalizeFilename filename).bytes)
    (insertable : Insertable (lowFree s.disk) r.size offset buffer.length (dataClusters s.disk r).length) :
    tailLength r.size offset (dataClusters s.disk r).length = r.size - offset ∧
      Completes (write filename buffer offset) s fun res s' => res = 0 ∧
        ∃ r' ∈ dirEntries s'.disk, r'.name = r.name ∧ r'.size = r.size + buffer.length ∧
          contents s'.disk r' =
            (contents s.disk r).take offset ++ buffer ++ (contents s.disk r).drop offset := by
  obtain ⟨_, _, _, _, _, catalog⟩ := reaches_catalog boot run
  have whole := lowFree_eq catalog.volume
  have word := insertable.word (by omega)
  have before := insertable.inside
  have fits : WriteFits (lowFree s.disk) r.size offset buffer.length (dataClusters s.disk r).length :=
    ⟨fun last => absurd last (Nat.ne_of_lt before), fun _ _ => insertable⟩
  have accepted : ¬ Refuses (lowFree s.disk) r.size offset buffer.length := by
    have room := insertable.room
    rintro (less | ⟨_, full⟩)
    · omega
    · rw [Nat.mod_eq_of_lt (by omega)] at full
      omega
  exact ⟨insertable.tail (by omega), write_once boot run inside named fits accepted⟩

/-! ## The result -/

/-- The result 0 is for bytes that are in the file, any other one for an unchanged disk. -/
def Truthful (s : Fs) (filename : CString) (buffer : List UInt8) (offset res : Nat) (s' : Fs) : Prop :=
  (res = 0 → ∃ r ∈ dirEntries s.disk, r.name = (normalizeFilename filename).bytes ∧
    ∃ r' ∈ dirEntries s'.disk, r'.name = r.name ∧ r'.size = r.size + buffer.length ∧
      ((contents s'.disk r').drop offset).take buffer.length = buffer) ∧
    (res ≠ 0 → s'.disk = s.disk)

theorem write_truthful (boot : Boot start) (run : Reaches (fun disk op => op.Ready disk) start ops s)
    (fits : ∀ r ∈ dirEntries s.disk, r.name = (normalizeFilename filename).bytes →
      WriteFits (lowFree s.disk) r.size offset buffer.length (dataClusters s.disk r).length) :
    Completes (write filename buffer offset) s fun res s' => Truthful s filename buffer offset res s' := by
  obtain ⟨others, dir, es, lost, parked, catalog⟩ := reaches_catalog boot run
  apply meets_mono (write_lands filename buffer offset parked catalog fits)
  rintro res s' (⟨one, same, _⟩ | ⟨zero, r, inside, named, accepted, r', inside', name, size, content⟩)
  · exact ⟨fun zero => absurd (one.symm.trans zero) (by decide), fun _ => same⟩
  · refine ⟨fun _ => ⟨r, inside, named, r', inside', name, size, ?_⟩, fun other => absurd zero other⟩
    cases buffer with
    | nil => rfl
    | cons byte rest =>
      obtain ⟨append, insert⟩ := fits r inside named
      have ends : (dataClusters s.disk r).length = r.size / clusterSize + 1 := by
        by_cases last : offset = r.size
        · exact (append last).2.resolve_left (Nat.succ_ne_zero _)
        · have before : offset < r.size := by
            unfold Refuses at accepted
            omega
          apply (insert before _).ends
          unfold Refuses at accepted
          omega
      have before : offset ≤ (contents s.disk r).length := by
        rw [length_contents ends]
        unfold Refuses at accepted
        omega
      have length : ((contents s.disk r).take offset).length = offset := List.length_take_of_le before
      rw [content, List.append_assoc, List.drop_left' length, List.take_left]

end

/-! ## Runs -/

/-- README.md right after `fs_init`. -/
theorem readme_ready : ∃ s r, Reaches (fun disk op => op.Ready disk) clearBoot [] s ∧
    r ∈ dirEntries s.disk ∧ r.name = (normalizeFilename readmeName).bytes ∧
      appendNeed r.size 1 ≤ lowFree s.disk ∧
        Insertable (lowFree s.disk) r.size 0 1 (dataClusters s.disk r).length := by
  have holds : endsWith (fun s => (dirEntries s.disk).any fun r =>
      decide (r.name = (normalizeFilename readmeName).bytes ∧ r.size = 199 ∧
        (dataClusters s.disk r).length = 4 ∧ 4 ≤ lowFree s.disk)) (clearRun []) = true := by
    rw [clearRun_ready]
    decide +kernel
  obtain ⟨s, run, found⟩ := endsWith_iff.mp holds
  obtain ⟨r, inside, found⟩ := List.any_eq_true.mp found
  obtain ⟨named, size, count, room⟩ := of_decide_eq_true found
  refine ⟨s, r, clearRun_init run, inside, named, ?_, ?_⟩
  · rw [size]
    exact Nat.le_trans (by decide) room
  · rw [size, count]
    exact ⟨by decide, by decide, by decide, .inr (by decide), room⟩

theorem append_exact_readme : ∃ s r, r ∈ dirEntries s.disk ∧
    Completes (write readmeName [120] r.size) s fun res s' => res = 0 ∧
      ∃ r' ∈ dirEntries s'.disk, r'.name = r.name ∧ r'.size = r.size + 1 ∧
        contents s'.disk r' = contents s.disk r ++ [120] := by
  obtain ⟨s, r, run, inside, named, room, insertable⟩ := readme_ready
  exact ⟨s, r, inside, append_exact boot_clear run inside named room (.inr insertable.ends)⟩

theorem insert_exact_readme : ∃ s r, r ∈ dirEntries s.disk ∧
    tailLength r.size 0 (dataClusters s.disk r).length = r.size - 0 ∧
      Completes (write readmeName [120] 0) s fun res s' => res = 0 ∧
        ∃ r' ∈ dirEntries s'.disk, r'.name = r.name ∧ r'.size = r.size + 1 ∧
          contents s'.disk r' = (contents s.disk r).take 0 ++ [120] ++ (contents s.disk r).drop 0 := by
  obtain ⟨s, r, run, inside, named, room, insertable⟩ := readme_ready
  exact ⟨s, r, inside, insert_exact boot_clear run inside named insertable⟩

theorem write_truthful_readme : ∃ s, Completes (write readmeName [120] 0) s fun res s' =>
    Truthful s readmeName [120] 0 res s' := by
  obtain ⟨s, r, run, inside, named, room, insertable⟩ := readme_ready
  have names := reaches_names boot_clear run
  refine ⟨s, write_truthful boot_clear run fun r0 inside0 named0 => ?_⟩
  rw [record_unique names inside0 inside (named0.trans named.symm)]
  exact ⟨fun last => absurd last (Nat.ne_of_lt insertable.inside), fun _ _ => insertable⟩

def fileA : CString := ⟨textBytes "a", plain_a⟩

/-- A file of exactly one cluster. -/
def oneCluster : List FileOperation := [.touch fileA, .write fileA (List.replicate 64 120) 0]

/-- The byte behind the cluster is lost, and the one in front of it leaves the size as it is. -/
def losesByte (s : Fs) : Bool :=
  (dirEntries s.disk).any fun r => decide (r.name = (normalizeFilename fileA).bytes ∧ r.size = 64 ∧
    appendNeed r.size 1 ≤ lowFree s.disk) &&
      endsWith (fun s' : Fs => decide (s'.disk ≠ s.disk ∧ ∀ r' ∈ dirEntries s'.disk, r'.name = r.name →
        contents s'.disk r' ≠ contents s.disk r ++ [121] ∧ ((contents s'.disk r').drop 64).take 1 ≠ [121]))
          ((write fileA [121] 64 s).map Prod.snd) &&
      endsWith (fun s' : Fs => decide (∀ r' ∈ dirEntries s'.disk, r'.name = r.name → r'.size ≠ 65))
        ((write fileA [121] 0 s).map Prod.snd)

/-- Writes of one byte at both ends of that file. -/
theorem oneCluster_writes : ∃ s r, Reaches (fun _ _ => True) clearBoot oneCluster s ∧ r ∈ dirEntries s.disk ∧
    r.name = (normalizeFilename fileA).bytes ∧ r.size = 64 ∧ appendNeed r.size 1 ≤ lowFree s.disk ∧
    (∃ res s', write fileA [121] 64 s = .ok (res, s') ∧ s'.disk ≠ s.disk ∧ ∀ r' ∈ dirEntries s'.disk, r'.name = r.name →
      contents s'.disk r' ≠ contents s.disk r ++ [121] ∧ ((contents s'.disk r').drop 64).take 1 ≠ [121]) ∧
    ∃ res s', write fileA [121] 0 s = .ok (res, s') ∧ ∀ r' ∈ dirEntries s'.disk, r'.name = r.name → r'.size ≠ 65 := by
  have holds : endsWith losesByte (clearRun oneCluster) = true := by
    rw [clearRun_ready]
    decide +kernel
  obtain ⟨s, run, found⟩ := endsWith_iff.mp holds
  obtain ⟨r, inside, found⟩ := List.any_eq_true.mp found
  obtain ⟨found, front⟩ := Bool.and_eq_true_iff.mp found
  obtain ⟨here, back⟩ := Bool.and_eq_true_iff.mp found
  obtain ⟨named, size, room⟩ := of_decide_eq_true here
  obtain ⟨res, s', step, back⟩ := endsWith_run back
  obtain ⟨res0, s0, step0, front⟩ := endsWith_run front
  exact ⟨s, r, clearRun_reaches run, inside, named, size, room, ⟨res, s', step, of_decide_eq_true back⟩,
    res0, s0, step0, of_decide_eq_true front⟩

/-- The next byte is written over the first one. -/
theorem append_exact_full_cluster : ¬ ∀ start s ops filename buffer r res s', Boot start →
    Reaches (fun _ _ => True) start ops s → r ∈ dirEntries s.disk →
      r.name = (normalizeFilename filename).bytes → appendNeed r.size buffer.length ≤ lowFree s.disk →
        write filename buffer r.size s = .ok (res, s') →
          ∃ r' ∈ dirEntries s'.disk, r'.name = r.name ∧ r'.size = r.size + buffer.length ∧
            contents s'.disk r' = contents s.disk r ++ buffer := by
  intro claim
  obtain ⟨s, r, run, inside, named, size, room, ⟨res, s', step, _, differs⟩, _⟩ := oneCluster_writes
  rw [← size] at step
  obtain ⟨r', inside', name, _, content⟩ :=
    claim clearBoot s oneCluster fileA [121] r res s' boot_clear run inside named room step
  exact (differs r' inside' name).1 content

/-- A byte written in front of the others takes their place. -/
theorem insert_exact_full_cluster : ¬ ∀ start s ops filename buffer offset r res s', Boot start →
    Reaches (fun _ _ => True) start ops s → r ∈ dirEntries s.disk →
      r.name = (normalizeFilename filename).bytes → offset < r.size →
        getClusterCountNeeded ((r.size + buffer.length) % wordModulus) ≤ lowFree s.disk + 2 →
          write filename buffer offset s = .ok (res, s') →
            ∃ r' ∈ dirEntries s'.disk, r'.name = r.name ∧ r'.size = r.size + buffer.length ∧
              contents s'.disk r' =
                (contents s.disk r).take offset ++ buffer ++ (contents s.disk r).drop offset := by
  intro claim
  obtain ⟨s, r, run, inside, named, size, _, _, res, s', step, differs⟩ := oneCluster_writes
  have enough : getClusterCountNeeded ((r.size + [(121 : UInt8)].length) % wordModulus) ≤ lowFree s.disk + 2 := by
    rw [size]
    exact Nat.le_add_left 2 _
  obtain ⟨r', inside', name, size', _⟩ := claim clearBoot s oneCluster fileA [121] 0 r res s' boot_clear run
    inside named (by rw [size]; decide) enough step
  rw [size] at size'
  exact differs r' inside' name size'

/-- The write at the end of the full cluster returns 0. -/
theorem write_truthful_full_cluster : ¬ ∀ start s ops filename buffer offset res s', Boot start →
    Reaches (fun _ _ => True) start ops s → write filename buffer offset s = .ok (res, s') →
      Truthful s filename buffer offset res s' := by
  intro claim
  obtain ⟨s, r, run, _, named, _, _, ⟨res, s', step, changed, differs⟩, _⟩ := oneCluster_writes
  obtain ⟨done, failed⟩ := claim clearBoot s oneCluster fileA [121] 64 res s' boot_clear run step
  by_cases zero : res = 0
  · obtain ⟨r0, _, named0, r', inside', name, _, content⟩ := done zero
    exact (differs r' inside' (name.trans (named0.trans named.symm))).2 content
  · exact changed (failed zero)

end Delos.Guarantees
