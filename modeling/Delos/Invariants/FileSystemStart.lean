import Delos.Invariants.FileWrite
import Delos.Invariants.FileCopy

/-!
# `fs_init`

Every cluster is set as free, the empty directory is saved and three text files
are created. Nothing is assumed of the old contents of the disk.
-/
namespace Delos.Invariants
open Lib Source

section
variable {s : Fs} {disk : ByteMemory} {others : List (Nat × Nat)} {dir lost : List Nat}
  {es : List Entry}

theorem freeEveryCluster_run (left i : Nat) (whole : i + left = clusterCount)
    (mapped : s.disk.origin ≤ fsStartAddr)
    (before : ∀ j < i, fatValue s.disk j = freeCluster) :
    ∃ disk, freeEveryCluster left i s = .ok ((), { s with disk := disk }) ∧
      disk.origin ≤ fsStartAddr ∧ ∀ j < clusterCount, fatValue disk j = freeCluster := by
  induction left generalizing s i with
  | zero => exact ⟨s.disk, rfl, mapped, fun j small => before j (by omega)⟩
  | succ left ih =>
    have small : i < clusterCount := by omega
    obtain ⟨disk, run, rest⟩ := ih (s := { s with disk := setFatValue s.disk i freeCluster }) (i + 1)
      (by omega) ((origin_setFatValue _ _ _).trans_le mapped) fun j less => by
        by_cases here : j = i
        · rw [here]
          exact fatValue_setFatValue_same mapped (by decide)
        · rw [fatValue_setFatValue_other here]
          exact before j (by omega)
    refine ⟨disk, ?_, rest⟩
    unfold freeEveryCluster
    rw [run_bind (setFat_run s small _)]
    exact run

/-- No cluster is in use. -/
theorem volume_empty (mapped : disk.origin ≤ fsStartAddr)
    (free : ∀ j < clusterCount, fatValue disk j = freeCluster) : Volume disk [] [] := by
  refine ⟨mapped, fun _ inside => absurd inside (List.not_mem_nil), List.nodup_nil,
    fun _ inside => absurd inside (List.not_mem_nil), fun j small => ?_⟩
  exact ⟨fun _ => List.not_mem_nil, fun _ => free j small⟩

/-- The folder that `fs_init` builds by hand has no array. -/
theorem emptyFolder_run (owned : Owned s.heap ((s.root, folderSize) :: others)) :
    ∃ counted heap, setRootFileCount 0 s = .ok ((), { s with heap := counted }) ∧
      setRootFiles 0 { s with heap := counted } = .ok ((), { s with heap := heap }) ∧
      Owned heap ((s.root, folderSize) :: others) ∧ Kept others s.heap heap ∧
      Folder { s with heap := heap } 0 [] := by
  have bounds := owned_bounds owned List.mem_cons_self
  obtain ⟨counted, write, owned', same, count, _⟩ := writeRootWord_run 0 0 (by decide) owned
  obtain ⟨heap, write', owned'', same', pointer, other⟩ :=
    writeRootWord_run (s := { s with heap := counted }) 4 0 (by decide) owned'
  exact ⟨counted, heap, write, write', owned'', kept_beyond owned (sameBeyond_trans same same'), bounds.1,
    bounds.2,
    (other 0 (Or.inl (Nat.le_refl _))).trans count, pointer, Or.inl ⟨rfl, rfl⟩⟩

theorem freeEmptyFolder_run (owned : Owned s.heap ((s.root, folderSize) :: others))
    (folder : Folder s 0 []) :
    ∃ heap, freeRootDir s = .ok ((), { s with heap := heap, root := 0 }) ∧ Owned heap others ∧
      Kept others s.heap heap := by
  obtain ⟨owned', kept⟩ := owned_kfree owned
  refine ⟨heapFree kernelHeap s.root s.heap, ?_, owned', kept_tail kept⟩
  unfold freeRootDir
  rw [run_bind (show rootPointer s = .ok (s.root, s) from rfl),
    if_neg (owned_nonzero owned List.mem_cons_self), run_bind (rootFiles_run folder)]
  rfl

/-! ## The default files -/

/-- A directory of at most `n` small files. -/
structure FewFiles (es : List Entry) (n : Nat) : Prop where
  count : es.length = n
  small : (es.map Entry.cells).flatten.length ≤ 8 * n

theorem createDefaultFile_run {n : Nat} (name : CString) (text : List UInt8)
    (short : name.bytes.length < fileNameLen) (brief : text.length ≤ 256) (less : n < 6)
    (parked : Parked s others) (catalog : Catalog s.disk dir es []) (few : FewFiles es n)
    (missing : position name es = none) :
    Completes (createDefaultFile name text) s fun _ s' => ∃ dir' es', Parked s' others ∧
      Catalog s'.disk dir' es' [] ∧ Kept others s.heap s'.heap ∧ FewFiles es' (n + 1) ∧
      (es'.map fun e => e.record.name) = (es.map fun e => e.record.name) ++ [name.bytes] := by
  obtain ⟨count, size⟩ := few
  have normal := normalizeFilename_of_short short
  have room := catalog_room catalog
  have fits : Fits (n + 1) := (fits_iff _).mpr (by omega)
  have clusters := dirClusters_eq fits
  have clusters' := dirClusters_eq ((fits_iff n).mpr (by omega))
  rw [count, List.length_nil] at room
  unfold takenCluster at room
  have touched := touch_run name parked catalog fun _ => by
    rw [count]
    exact ⟨by omega, by omega, fits⟩
  rw [normal] at touched
  unfold createDefaultFile
  refine meets_call touched ?_
  rintro _ s1 ⟨dir1, es1, parked1, catalog1, kept1, same1, result⟩
  cases result with
  | present found => exact absurd missing found
  | @created _ start eof r new =>
    have small : es.length < (es ++ [Entry.mk r [start, eof]]).length := by
      rw [List.length_append, List.length_singleton]
      exact Nat.lt_succ_self _
    have last : (es ++ [Entry.mk r [start, eof]])[es.length] = Entry.mk r [start, eof] := by
      rw [List.getElem_append_right (Nat.le_refl _)]
      simp
    have room1 := catalog_room catalog1
    have length : (es ++ [Entry.mk r [start, eof]]).length = n + 1 := by
      rw [List.length_append, List.length_singleton, count]
    have total : ((es ++ [Entry.mk r [start, eof]]).map Entry.cells).flatten.length =
        (es.map Entry.cells).flatten.length + 2 := by
      simp
    rw [length, total, List.length_nil] at room1
    unfold takenCluster at room1
    have need : appendNeed r.size text.length ≤ 3 := by
      rw [new.size]
      unfold appendNeed bytesInLast getClusterCountNeeded clusterSize
      split <;> omega
    refine meets_mono (appendData_run text (.user text) parked1 catalog1 short
      (position_append missing new.name) small text.length rfl (Nat.min_le_left _ _)
      (fun _ => Nat.le_refl _) (Or.inl (by
        rw [last]
        show appendNeed r.size text.length ≤ _
        omega))) ?_
    rintro _ s2 ⟨dir2, e', parked2, catalog2, kept2, same2, appended⟩
    rw [last] at appended
    have named := appended_name appended
    have grown : e'.cells.length ≤ 5 := by
      cases appended with
      | stored cells length room content =>
        simp only [List.length_cons, List.length_nil] at length ⊢
        omega
      | refused full content => simp
    refine ⟨dir2, _, parked2, catalog2, kept_trans kept1 kept2, ⟨?_, ?_⟩, ?_⟩
    · rw [List.length_set, length]
    · have perm := (entries_set_perm small e').flatten.length_eq
      have perm' := (entries_perm small).flatten.length_eq
      rw [List.flatten_cons, List.length_append] at perm perm'
      rw [last, total] at perm'
      simp only [List.length_cons, List.length_nil] at perm'
      omega
    · have renamed : e'.record.name = (es ++ [Entry.mk r [start, eof]])[es.length].record.name := by
        rw [last]
        exact named
      rw [names_set small renamed, List.map_append, List.map_singleton, new.name]

theorem position_names {filename : CString} {names : List (List UInt8)}
    (known : (es.map fun e => e.record.name) = names) (fresh : filename.bytes ∉ names) :
    position filename es = none := by
  refine List.findIdx?_eq_none_iff.mpr fun e inside => decide_eq_false fun same => ?_
  rw [← known, ← same] at fresh
  exact fresh (List.mem_map.mpr ⟨e, inside, rfl⟩)

theorem createDefaultFiles_run (parked : Parked s others) (catalog : Catalog s.disk dir [] []) :
    Completes createDefaultFiles s fun _ s' => ∃ dir' es, Parked s' others ∧
      Catalog s'.disk dir' es [] ∧ Kept others s.heap s'.heap ∧ FewFiles es 3 ∧
      (es.map fun e => e.record.name) = [readmeName.bytes, asciiName.bytes, primesName.bytes] := by
  unfold createDefaultFiles
  refine meets_call (createDefaultFile_run readmeName readmeText (by decide) (by decide +kernel)
    (show 0 < 6 by decide) parked catalog ⟨rfl, Nat.le_refl _⟩ rfl) ?_
  rintro _ s1 ⟨dir1, es1, parked1, catalog1, kept1, few1, names1⟩
  refine meets_call (createDefaultFile_run asciiName asciiText (by decide) (by decide +kernel)
    (show 1 < 6 by decide) parked1 catalog1 few1 (position_names names1 (by decide +kernel))) ?_
  rintro _ s2 ⟨dir2, es2, parked2, catalog2, kept2, few2, names2⟩
  rw [names1] at names2
  refine meets_mono (createDefaultFile_run primesName primesText (by decide) (by decide +kernel)
    (show 2 < 6 by decide) parked2 catalog2 few2 (position_names names2 (by decide +kernel))) ?_
  rintro _ s3 ⟨dir3, es3, parked3, catalog3, kept3, few3, names3⟩
  rw [names2] at names3
  exact ⟨dir3, es3, parked3, catalog3, kept_trans kept1 (kept_trans kept2 kept3), few3, names3⟩

/-- The default files are created on an empty volume. The call is a variable where this is used, so that
nothing evaluates it. -/
theorem fsInit_empty {call : Kernel Nat} {post : Fs → Prop} (init : call = fsInit) (owned : Owned s.heap others) (mapped : s.disk.origin ≤ fsStartAddr)
    (rest : ∀ s' dir, Parked s' others → Catalog s'.disk dir [] [] → Kept others s.heap s'.heap →
      Completes createDefaultFiles s' fun _ s'' => post s'') : Completes call s fun res s' => res = 0 ∧ post s' := by
  rw [init]
  unfold fsInit
  unfold Completes
  -- the number of clusters stays a variable, so that the loop is not unfolded
  generalize all : clusterCount = count
  obtain ⟨disk, clear, mapped', free⟩ := freeEveryCluster_run count 0
    ((Nat.zero_add count).trans all.symm) mapped fun j h => absurd h (Nat.not_lt_zero j)
  have volume := volume_empty mapped' free
  have taken := volume_take volume (i := 0) (by decide) (free 0 (by decide))
  rw [meets_next clear]
  unfold initRootFolder
  refine meets_call (completes_kmalloc (s := { s with disk := disk }) owned (by decide)) ?_
  rintro root _ ⟨heap, rfl, ownedRoot, kept⟩
  obtain ⟨counted, linked, count, link, ownedFolder, keptFolder, folder⟩ :=
    emptyFolder_run (s := { s with disk := disk, heap := heap, root := root }) ownedRoot
  rw [meets_next (show setRootPointer root { s with disk := disk, heap := heap } =
    .ok ((), { s with disk := disk, heap := heap, root := root }) from rfl),
    meets_next count, meets_next link, meets_next (setFat_run _ (by decide) _)]
  have room := lowFree_eq taken
  simp only [List.flatten_cons, List.flatten_nil, List.length_append, List.length_cons,
    List.length_nil] at room
  obtain ⟨cells, saved, save, volume', ends, length, stored, _, _⟩ := saveRootFolder_run
    (s := { s with disk := setFatValue disk 0 takenCluster, heap := linked, root := root })
    (folder.onDisk _) (by decide) taken (by
      have one : dirClusters ([] : List Record).length = 1 := by decide
      have limit : takenCluster = 4093 := rfl
      simp only [one]
      omega)
  obtain ⟨discarded, discard, ownedLast, keptLast⟩ :=
    freeEmptyFolder_run (s := { s with disk := saved, heap := linked, root := root }) ownedFolder
      (folder.onDisk _)
  refine (meets_next save).mpr ?_
  rw [meets_next discard]
  have empty : Catalog saved cells [] [] :=
    ⟨volume', ⟨ends, length, stored, by decide⟩, fun e inside => absurd inside List.not_mem_nil, List.nodup_nil⟩
  refine meets_call (rest { s with disk := saved, heap := discarded, root := 0 } cells (.empty rfl ownedLast) empty
    (kept_trans kept (kept_trans keptFolder keptLast))) ?_
  intro _ s' here
  exact meets_pure.mpr ⟨rfl, here⟩

theorem fsInit_run (owned : Owned s.heap others) (mapped : s.disk.origin ≤ fsStartAddr) :
    Completes fsInit s fun res s' => ∃ dir es, Parked s' others ∧ Catalog s'.disk dir es [] ∧
      Kept others s.heap s'.heap ∧ FewFiles es 3 ∧ res = 0 := by
  generalize init : fsInit = call
  have started : ∀ s' dir, Parked s' others → Catalog s'.disk dir [] [] → Kept others s.heap s'.heap →
      Completes createDefaultFiles s' fun _ s'' => ∃ dir es, Parked s'' others ∧ Catalog s''.disk dir es [] ∧
        Kept others s.heap s''.heap ∧ FewFiles es 3 := by
    intro s' dir parked catalog kept
    apply meets_mono (createDefaultFiles_run parked catalog)
    rintro _ s'' ⟨dir', es, parked', catalog', kept', few, _⟩
    exact ⟨dir', es, parked', catalog', kept_trans kept kept', few⟩
  apply meets_mono (fsInit_empty init.symm owned mapped started)
  rintro res s' ⟨zero, dir, es, parked, catalog, kept, few⟩
  exact ⟨dir, es, parked, catalog, kept, few, zero⟩

end

end Delos.Invariants
