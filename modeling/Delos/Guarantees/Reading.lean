import Delos.Invariants.FileSystemRuns
import Delos.Invariants.StoredFiles

/-!
# What is read and printed

A read inside a file delivers its bytes and uses nothing but its data clusters, and `cat`
prints the whole file in pieces that fit the buffer. The result code of a read is 0 only
if it goes on to a second cluster, and the test of its bounds lets a sum that wraps pass.
-/
namespace Delos.Guarantees
open Lib Source Invariants

section
variable {s : Fs} {others : List (Nat × Nat)} {filename : CString} {r : Record} {offset len : Nat}

/-- A read beyond the end stores nothing, follows no link behind the data clusters and
returns an error; any other one returns 0. -/
structure SoundRead (s : Fs) (filename : CString) (r : Record) (offset len : Nat)
    (p : Nat × List UInt8) : Prop where
  beyond : r.size < offset + len → p.2 = [] ∧ p.1 ≠ 0 ∧
    readGuarded (within (dataClusters s.disk r)) noTest filename offset len s =
      Source.read filename offset len s
  inside : offset + len ≤ r.size → p.1 = 0

/-- The sum of a read beyond the end does not wrap to one inside, and a read inside does
not end in its first cluster. -/
structure SoundBounds (size offset len : Nat) : Prop where
  beyond : size < offset + len → size < (offset + len) % wordModulus
  inside : offset + len ≤ size → clusterSize - offset % clusterSize < len

theorem read_sound (parked : Parked s others) (stored : StoredFile s.disk filename r)
    (word : offset < wordModulus) (word' : len < wordModulus) :
    Meets (fun e => e = .outOfMemory ∨ e = .endless ∧ ¬ SoundBounds r.size offset len)
      (Source.read filename offset len) s
      fun p _ => SoundRead s filename r offset len p ↔ SoundBounds r.size offset len := by
  by_cases inside : offset + len ≤ r.size
  · apply meets_mono (meets_allow (readStored_run parked stored inside) fun _ full => .inl full)
    rintro p _ ⟨_, _, _, code, _⟩
    constructor
    · intro sound
      refine ⟨fun beyond => absurd inside (Nat.not_le_of_lt beyond), fun _ => ?_⟩
      by_contra short
      rw [if_pos (Nat.le_of_not_lt short)] at code
      exact absurd (code.symm.trans (sound.inside inside)) Nat.one_ne_zero
    · intro bounds
      refine ⟨fun beyond => absurd inside (Nat.not_le_of_lt beyond), fun _ => ?_⟩
      rw [code, if_neg (Nat.not_le_of_lt (bounds.inside inside))]
  · have beyond := Nat.lt_of_not_le inside
    by_cases refused : r.size < (offset + len) % wordModulus
    · obtain ⟨stops, agree⟩ := readStored_refused parked stored refused
      apply meets_mono (meets_allow stops fun _ full => .inl full)
      rintro p _ rfl
      constructor
      · intro _
        exact ⟨fun _ => refused, fun here => absurd here inside⟩
      · intro _
        exact ⟨fun _ => ⟨rfl, Nat.one_ne_zero, agree _⟩, fun here => absurd here inside⟩
    · have unsound : ¬ SoundBounds r.size offset len := fun bounds => refused (bounds.beyond beyond)
      have passes := readStored_passed parked stored (Nat.le_of_not_lt refused)
      apply meets_mono (meets_allow passes fun _ stop => stop.imp_right fun endless => ⟨endless, unsound⟩)
      intro p _ copied
      refine ⟨fun sound => ?_, fun bounds => absurd bounds unsound⟩
      have part : offset % clusterSize < clusterSize := Nat.mod_lt _ (by decide)
      rw [(sound.beyond beyond).1, List.length_nil] at copied
      have wraps : offset + len ≠ (offset + len) % wordModulus := fun same => refused (same ▸ beyond)
      have : 0 < len := by
        by_contra none
        obtain rfl : len = 0 := by omega
        exact wraps (Nat.mod_eq_of_lt word).symm
      omega

/-! ## Printing -/

end

/-- README.md right after `fs_init`, and a read of its first byte. -/
theorem readme_read : ∃ s others r p s', Parked s others ∧ StoredFile s.disk readmeName r ∧ r.size = 199 ∧
    0 ∉ contents s.disk r ∧ Source.read readmeName 0 1 s = .ok (p, s') ∧ p.1 = 1 := by
  have holds : endsWith (fun s => (dirEntries s.disk).any (fun r =>
      decide (r.name = (normalizeFilename readmeName).bytes ∧ r.size = 199 ∧
        (dataClusters s.disk r).length = 4 ∧ 0 ∉ contents s.disk r)) &&
      match Source.read readmeName 0 1 s with
      | .ok (p, _) => decide (p.1 = 1)
      | .error _ => false) (clearRun []) = true := by
    rw [clearRun_ready]
    decide +kernel
  obtain ⟨s, run, found⟩ := endsWith_iff.mp holds
  obtain ⟨found, reads⟩ := (Bool.and_eq_true _ _).mp found
  obtain ⟨r, inside, found⟩ := List.any_eq_true.mp found
  obtain ⟨named, size, count, noNul⟩ := of_decide_eq_true found
  obtain ⟨others, dir, es, lost, parked, catalog⟩ :=
    reaches_catalog (s := s) boot_clear (clearRun_init run)
  rw [catalog_entries catalog] at inside
  obtain ⟨e, member, rfl⟩ := List.mem_map.mp inside
  rw [catalog_data catalog member] at count
  have stored := catalog_stored catalog member named (by rw [size, count]; decide)
  split at reads
  next p s' step => exact ⟨s, others, e.record, p, s', parked, stored, size, noNul, step, of_decide_eq_true reads⟩
  next => exact absurd reads Bool.false_ne_true

theorem read_sound_readme : ∃ (s : Fs) (r : Record), r.size = 199 ∧
    Meets (fun e => e = .outOfMemory ∨ e = .endless ∧ ¬ SoundBounds r.size 60 100)
      (Source.read readmeName 60 100) s
      fun p _ => SoundRead s readmeName r 60 100 p ↔ SoundBounds r.size 60 100 := by
  obtain ⟨s, others, r, _, _, parked, stored, size, _⟩ := readme_read
  exact ⟨s, r, size, read_sound parked stored (by decide) (by decide)⟩

/-- The first byte is delivered with the result of an error. -/
theorem read_sound_first_cluster : ¬ ∀ s others filename r offset len p s', Parked s others →
    StoredFile s.disk filename r → offset < wordModulus → len < wordModulus →
      Source.read filename offset len s = .ok (p, s') → SoundRead s filename r offset len p := by
  intro claim
  obtain ⟨s, others, r, p, s', parked, stored, size, _, step, code⟩ := readme_read
  have sound := claim s others readmeName r 0 1 p s' parked stored (by decide) (by decide) step
  exact absurd (code.symm.trans (sound.inside (by rw [size]; decide))) Nat.one_ne_zero

end Delos.Guarantees
