import Delos.Invariants.FileInsert

/-!
# `write`

An offset at the end of the file appends, an offset inside it inserts. The free
clusters are tested before an insertion, with the sum of both sizes in 32 bits.
-/
namespace Delos.Invariants
open Lib Source

/-- What a call of `write` needs of the free clusters; `count` clusters hold data. -/
structure WriteReady (free size offset len count : Nat) : Prop where
  append : offset = size → AppendReady free size len
  insert : offset < size → getClusterCountNeeded ((size + len) % wordModulus) ≤ free + 2 →
    InsertReady free size offset len count

/-- The result of `write`. -/
inductive Written (filename : CString) (disk disk' : ByteMemory) (es : List Entry)
    (buffer : List UInt8) (offset : Nat) : Nat → List Entry → Prop
  | missing (missing : position filename es = none) (same : disk' = disk) :
      Written filename disk disk' es buffer offset 1 es
  | beyond {i : Nat} (found : position filename es = some i) (small : i < es.length)
      (outside : es[i].record.size < offset) (same : disk' = disk) :
      Written filename disk disk' es buffer offset 1 es
  | refused {i : Nat} (found : position filename es = some i) (small : i < es.length)
      (inside : offset < es[i].record.size)
      (full : lowFree disk + 2 <
        getClusterCountNeeded ((es[i].record.size + buffer.length) % wordModulus))
      (same : disk' = disk) : Written filename disk disk' es buffer offset 1 es
  | appended {i : Nat} (found : position filename es = some i) (small : i < es.length)
      (last : offset = es[i].record.size) {e' : Entry}
      (appended : Appended disk disk' es[i] buffer buffer.length e') :
      Written filename disk disk' es buffer offset 0 (es.set i e')
  | inserted {i : Nat} (found : position filename es = some i) (small : i < es.length)
      (inside : offset < es[i].record.size)
      (room : getClusterCountNeeded ((es[i].record.size + buffer.length) % wordModulus) ≤
        lowFree disk + 2) {e' : Entry}
      (inserted : Inserted disk disk' es[i] buffer offset e') :
      Written filename disk disk' es buffer offset 0 (es.set i e')

section
variable {s : Fs} {others : List (Nat × Nat)} {dir lost : List Nat} {es : List Entry}

theorem write_run (filename : CString) (buffer : List UInt8) (offset : Nat) (parked : Parked s others)
    (catalog : Catalog s.disk dir es lost)
    (ready : ∀ e ∈ es, e.record.name = (normalizeFilename filename).bytes →
      WriteReady (lowFree s.disk) e.record.size offset buffer.length e.data.length) :
    Completes (write filename buffer offset) s fun res s' => ∃ dir' es' lost', Parked s' others ∧
      Catalog s'.disk dir' es' lost' ∧ Kept others s.heap s'.heap ∧
      Undisturbed (normalizeFilename filename).bytes s.disk s'.disk es es' ∧
      ((∀ e ∈ es, e.record.name = (normalizeFilename filename).bytes → offset < e.record.size →
        getClusterCountNeeded ((e.record.size + buffer.length) % wordModulus) ≤ lowFree s.disk + 2 →
        e.data.length = offset / clusterSize + 1) → lost' = lost) ∧
      Written (normalizeFilename filename) s.disk s'.disk es buffer offset res es' := by
  have short := normalizeFilename_short filename
  unfold write
  refine meets_call (loadCatalog_run parked catalog) ?_
  rintro _ _ ⟨heap, root, files, rfl, loaded, kept⟩
  obtain ⟨freed, discard, owned, keptFreed, _⟩ := freeRootDir_loaded loaded
  rw [meets_next (getFile_run loaded.folder short), findIdx_record]
  cases found : position (normalizeFilename filename) es with
  | none =>
    obtain ⟨freed, discard, owned, keptFreed, _⟩ := freeRootDir_loaded
      (s := { s with heap := heap, root := root, screen := s.screen ++ [.kprintf "file not found\n\r"] })
      ⟨loaded.owned, loaded.count, loaded.pointer, loaded.holds⟩
    rw [filePointer, if_pos rfl]
    refine (meets_next (show emit _ _ = .ok ((), _) from rfl)).mpr ?_
    rw [meets_next discard]
    exact meets_pure.mpr ⟨dir, es, lost, .empty rfl owned, catalog, kept_trans kept keptFreed,
      undisturbed_refl, fun _ => rfl, .missing found rfl⟩
  | some i =>
    obtain ⟨small, named⟩ := position_some found
    have nonzero := filePointer_nonzero loaded.records i
    obtain ⟨append, insert⟩ := ready _ (List.getElem_mem small) named
    have size := fileSize_run loaded.records (i := i) (by rwa [List.length_map])
    rw [List.getElem_map] at size
    rw [if_neg nonzero, show filePointer files (some i) = fileAt files i from rfl, meets_next size]
    by_cases beyond : offset > es[i].record.size
    · obtain ⟨freed, discard, owned, keptFreed, _⟩ := freeRootDir_loaded
        (s := { s with heap := heap, root := root, screen := s.screen ++
          [.kprintf "the offset is greater than the size of the file itself\n\r"] })
        ⟨loaded.owned, loaded.count, loaded.pointer, loaded.holds⟩
      rw [if_pos beyond]
      refine (meets_next (show emit _ _ = .ok ((), _) from rfl)).mpr ?_
      rw [meets_next discard]
      exact meets_pure.mpr ⟨dir, es, lost, .empty rfl owned, catalog, kept_trans kept keptFreed,
        undisturbed_refl, fun _ => rfl, .beyond found small beyond rfl⟩
    · rw [if_neg beyond]
      by_cases last : offset = es[i].record.size
      · rw [if_pos last, meets_next discard]
        refine meets_call (appendData_run buffer (.user buffer)
          (s := { s with heap := freed, root := 0 }) (.empty rfl owned) catalog short found small
          buffer.length rfl (Nat.min_le_left _ _) (fun _ => Nat.le_refl _) (append last)) ?_
        rintro _ s' ⟨dir', e', parked', catalog', kept', same, appended⟩
        exact meets_pure.mpr ⟨dir', _, lost, parked', catalog',
          kept_trans kept (kept_trans keptFreed kept'), undisturbed_set small named same e',
          fun _ => rfl, .appended found small last appended⟩
      · rw [if_neg last]
        have inside : offset < es[i].record.size := by omega
        have asked : existsNFreeClusters (getClusterCountNeeded
            ((es[i].record.size + buffer.length) % wordModulus)) { s with heap := heap, root := root } =
            .ok (decide (getClusterCountNeeded ((es[i].record.size + buffer.length) % wordModulus) ≤
              lowFree s.disk + 2), { s with heap := heap, root := root }) := by
          have iff := existsNFreeClusters_iff catalog.volume
            (getClusterCountNeeded ((es[i].record.size + buffer.length) % wordModulus))
          show Except.ok (existsNFreeClustersLoop s.disk _ clusterCount 0 0, _) = _
          rw [Bool.eq_iff_iff.mpr (iff.trans decide_eq_true_iff.symm)]
        rw [meets_next asked]
        by_cases enough : getClusterCountNeeded ((es[i].record.size + buffer.length) % wordModulus) ≤
            lowFree s.disk + 2
        · rw [if_neg (by rw [decide_eq_true enough]; decide)]
          refine meets_mono (insertData_run (s := { s with heap := heap, root := root }) loaded catalog
            short found small buffer offset inside (insert inside enough)) ?_
          rintro res s' ⟨dir', e', lost', parked', catalog', kept', same, rfl, name, leak, inserted⟩
          exact ⟨dir', _, lost', parked', catalog', kept_trans kept kept',
            undisturbed_set small named same e',
            fun all => leak (all _ (List.getElem_mem small) named inside enough),
            .inserted found small inside enough inserted⟩
        · obtain ⟨freed, discard, owned, keptFreed, _⟩ := freeRootDir_loaded
            (s := { s with heap := heap, root := root, screen := s.screen ++
              [.kprintf "not enough space to extend the file\n\r"] })
            ⟨loaded.owned, loaded.count, loaded.pointer, loaded.holds⟩
          rw [if_pos (by rw [decide_eq_false enough])]
          refine (meets_next (show emit _ _ = .ok ((), _) from rfl)).mpr ?_
          rw [meets_next discard]
          exact meets_pure.mpr ⟨dir, es, lost, .empty rfl owned, catalog, kept_trans kept keptFreed,
            undisturbed_refl, fun _ => rfl, .refused found small inside (by omega) rfl⟩

end

end Delos.Invariants
