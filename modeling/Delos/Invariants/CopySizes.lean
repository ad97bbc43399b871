import Delos.Invariants.DiskDecoding
import Delos.Invariants.FileCopy
import Delos.Invariants.FolderPlacement

/-!
# The size that a copy gets

`cp` keeps a pointer into the array of the folder it loaded first. When the free memory of
the heap is in one piece, the array is loaded to the same place again, so the pointer finds
the record that then stands at the old position. It is the one of the source if no file in
front of it was removed.
-/
namespace Delos.Invariants
open Lib Source

section
variable {s : Fs} {others : List (Nat × Nat)} {dir lost : List Nat} {es : List Entry} {b n m i size : Nat}
  {pre : List Block} {sizes : List Nat} {src des : CString}

/-! ## Room in the heap -/

theorem arrayBlock_mono (less : m ≤ n) : arrayBlock m ≤ arrayBlock n := by
  unfold arrayBlock
  exact Nat.add_le_add_right (Nat.mul_le_mul_right fileRecordSize less) _

theorem header_small : blockHeaderSize < folderBlock := by decide

/-- The blocks of a folder that was freed are enough for a folder of either length. -/
theorem folderFits_again (positive : 0 < n) (rest : List Nat) :
    FolderFits (folderBlock :: arrayBlock n :: arrayBlock m :: rest) m := by
  have large := arrayBlock_large positive
  have small := header_small
  constructor
  · simp only [List.take_succ_cons, List.take_zero, List.sum_cons, List.sum_nil]
    omega
  · simp only [List.take_succ_cons, List.take_zero, List.sum_cons, List.sum_nil]
    omega

theorem arraysFit_less {k : Nat} (fits : ArraysFit sizes n m) (less : k ≤ m) : ArraysFit sizes n k := by
  have shorter := arrayBlock_mono less
  have both := fits.both
  exact ⟨fits.toFolderFits, by omega⟩

/-- After the folder was loaded and freed there is room as before. -/
theorem arraysFit_discarded (fits : ArraysFit sizes n m) (positive : 0 < n) :
    ArraysFit (folderBlock :: arrayBlock n :: ((sizes.take 3).sum - folderBlock - arrayBlock n) :: sizes.drop 3)
      n m := by
  obtain ⟨⟨_, array⟩, both⟩ := fits
  have large := arrayBlock_large positive
  have small := header_small
  have split : sizes.take 4 = sizes.take 3 ++ (sizes.drop 3).take 1 := List.take_add (i := 3) (j := 1)
  rw [split, List.sum_append] at both
  refine ⟨⟨?_, ?_⟩, ?_⟩
  · simp only [List.take_succ_cons, List.take_zero, List.sum_cons, List.sum_nil]
    omega
  · simp only [List.take_succ_cons, List.take_zero, List.sum_cons, List.sum_nil]
    omega
  · simp only [List.take_succ_cons, List.sum_cons]
    omega

/-- After an array was replaced by a shorter one there is room for both the other way round. -/
theorem arraysFit_replaced {k : Nat} (fits : ArraysFit sizes n k) (more : n ≤ k) (less : m ≤ n)
    (positive : 0 < n) (positive' : 0 < m) :
    ArraysFit (folderBlock :: arrayBlock n :: arrayBlock m ::
      ((sizes.take 4).sum - folderBlock - arrayBlock n - arrayBlock m) :: sizes.drop 4) m n := by
  have shorter := arrayBlock_mono less
  have longer := arrayBlock_mono more
  have both := fits.both
  refine ⟨folderFits_again positive _, ?_⟩
  simp only [List.take_succ_cons, List.take_zero, List.sum_cons, List.sum_nil]
  omega

/-! ## `rm` and `touch` of the destination -/

/-- The source is still at its position, and the folder goes to the same place. -/
structure SourceKept (b : Nat) (pre : List Block) (i : Nat) (es : List Entry) (lost : List Nat) (s : Fs) :
    Prop where
  root : s.root = 0
  catalog : ∃ dir' es' sizes, Catalog s.disk dir' es' lost ∧ es'[i]? = es[i]? ∧
    FreeFrom b pre sizes s.heap ∧ FolderFits sizes es'.length

theorem fits_small (catalog : Catalog s.disk dir es lost) : es.length < 2 ^ 16 := by
  have fits := catalog.directory.fits
  rw [List.length_map] at fits
  have count := (fits_iff _).mp fits
  omega

theorem create_placed (short : des.bytes.length < fileNameLen) (parked : Parked s others)
    (catalog : Catalog s.disk dir es lost) (missing : position des es = none)
    (ready : CreateRoom (lowFree s.disk) es.length) (unloaded : s.root = 0) (free : FreeFrom b pre sizes s.heap)
    (fits : ArraysFit sizes es.length (es.length + 1)) (small : i < es.length) :
    Completes (touch des) s fun _ s' => SourceKept b pre i es lost s' := by
  have few := fits_small catalog
  have touched := touch_placed des parked catalog fun _ => ready
  rw [normalizeFilename_of_short short] at touched
  apply meets_mono touched
  rintro res s' ⟨dir', es', parked', catalog', _, _, result, placed, _⟩
  cases result with
  | present found => exact absurd missing found
  | created missing eof new =>
    obtain ⟨rooted, replaced⟩ := placed rfl
    have whole : (es.map Entry.record).length = es.length := List.length_map _
    have freed := replaced_free free (by rwa [whole]) (by omega) (Nat.succ_pos _) (by omega) (by omega)
      (discarded_none unloaded) replaced
    rw [whole] at freed
    refine ⟨rooted, dir', _, _, catalog', List.getElem?_append_left small, freed, ?_⟩
    rw [List.length_append, List.length_singleton]
    exact folderFits_again (by omega) _

theorem remove_placed {j : Nat} (short : des.bytes.length < fileNameLen) (parked : Parked s others)
    (catalog : Catalog s.disk dir es lost) (fits : Fits (es.length - 1)) (inside : j < es.length)
    (found : position des es = some j) (user : es[j].record.isSystem = false) :
    Completes (do let _ ← rm des) s fun _ s' => ∃ dir', Parked s' others ∧
      Catalog s'.disk dir' (es.eraseIdx j) lost ∧ s'.root = 0 ∧
        FolderReplaced s others (es.map Entry.record) (es.length - 1) s'.heap := by
  have removed := rm_placed des parked catalog fun _ _ _ _ => fits
  rw [normalizeFilename_of_short short] at removed
  apply meets_call removed
  rintro res s' ⟨dir', es', parked', catalog', _, _, result, placed⟩
  apply meets_pure.mpr
  cases result with
  | missing missing => exact absurd (found.symm.trans missing) (Option.some_ne_none j)
  | systemFile found' inside' system =>
    obtain rfl : j = _ := Option.some.inj (found.symm.trans found')
    exact absurd (user.symm.trans system) Bool.false_ne_true
  | removed found' inside' _ =>
    obtain rfl : j = _ := Option.some.inj (found.symm.trans found')
    obtain ⟨rooted, replaced⟩ := placed rfl
    exact ⟨dir', parked', catalog', rooted, replaced⟩

theorem prepare_placed {count : Nat} (short : des.bytes.length < fileNameLen) (parked : Parked s others)
    (catalog : Catalog s.disk dir es lost) (ready : CopyReady (lowFree s.disk) count es des)
    (unloaded : s.root = 0) (free : FreeFrom b pre sizes s.heap)
    (fits : ArraysFit sizes es.length (es.length + 1)) (small : i < es.length)
    (behind : ∀ j (_ : j < es.length), position des es = some j → i < j ∧ es[j].record.isSystem = false) :
    Completes (do
      doIf (position des es ≠ none) do
        let _ ← rm des
      touch des) s fun _ s' => SourceKept b pre i es lost s' := by
  have few := fits_small catalog
  cases found : position des es with
  | none =>
    obtain ⟨create, _⟩ := ready.absent found
    have skipped : doIf ((none : Option Nat) ≠ none) (do let _ ← rm des) s = .ok ((), s) := by
      rw [doIf, if_neg fun some => some rfl]
      rfl
    apply (meets_next skipped).mpr
    exact create_placed short parked catalog found create unloaded free fits small
  | some j =>
    obtain ⟨inside, named⟩ := position_some found
    obtain ⟨before, user⟩ := behind j inside found
    have fits' := (ready.user _ (List.getElem_mem inside) named user).1
    have prepared := removeDestination_run (Iff.refl _) short parked catalog ready
    rw [found, doIf, if_pos (Option.some_ne_none j)] at prepared
    rw [doIf, if_pos (Option.some_ne_none j)]
    apply meets_call (meets_and prepared (remove_placed short parked catalog fits' inside found user))
    rintro _ s1 ⟨⟨_, es1, _, catalog1, _, _, result⟩, dir', parked', catalog', rooted, replaced⟩
    have entries : es1.map Entry.record = (es.eraseIdx j).map Entry.record :=
      (catalog_entries catalog1).symm.trans (catalog_entries catalog')
    have length : es1.length = (es.eraseIdx j).length := by
      have lengths := congrArg List.length entries
      rwa [List.length_map, List.length_map] at lengths
    have shorter : (es.eraseIdx j).length = es.length - 1 := List.length_eraseIdx_of_lt inside
    rcases result with ⟨_, create, _⟩ | ⟨⟨k, small', found', _, system⟩, _⟩
    · rw [length] at create
      have whole : (es.map Entry.record).length = es.length := List.length_map _
      have less := arraysFit_less fits (show es.length - 1 ≤ es.length + 1 by omega)
      have freed := replaced_free free (by rwa [whole]) (by omega) (by omega) (by omega) (by omega)
        (discarded_none unloaded) replaced
      rw [whole] at freed
      have room := arraysFit_replaced fits (Nat.le_succ _) (Nat.sub_le _ 1) (by omega) (by omega)
      have again : es.length - 1 + 1 = es.length := by omega
      have created := create_placed (i := i) short parked' catalog' (position_eraseIdx catalog inside named)
        create rooted freed (by rw [shorter, again]; exact room) (by omega)
      apply meets_mono created
      rintro _ s' ⟨root, dir'', es'', sizes', catalog'', source, free', fits''⟩
      refine ⟨root, dir'', es'', sizes', catalog'', ?_, free', fits''⟩
      rw [source, List.getElem?_eraseIdx_of_lt before]
    · obtain rfl : j = k := Option.some.inj found'
      exact absurd (user.symm.trans system) Bool.false_ne_true

/-! ## The word at the old place -/

/-- The size is that of the source. -/
theorem source_size {count : Nat} {heap : ByteMemory} (short : des.bytes.length < fileNameLen)
    (catalog : Catalog s.disk dir es lost) (ready : CopyReady (lowFree s.disk) count es des)
    (discarded : Discarded s heap) (free : FreeFrom b pre sizes heap)
    (fits : ArraysFit sizes es.length (es.length + 1)) (small : i < es.length) (found : position src es = some i)
    (behind : ∀ j (_ : j < es.length), position des es = some j → i < j ∧ es[j].record.isSystem = false)
    (traced : SizeSource s others src des es size) : size = es[i].record.size := by
  have few := fits_small catalog
  obtain ⟨k, root, files, loadedHeap, res, s1, dir1, es1, lost1, found', loaded, parked, prepare, catalog1,
    root', files', heap', loaded', folder', read⟩ := traced
  obtain rfl : i = k := Option.some.inj (found.symm.trans found')
  obtain ⟨rfl, rfl, first⟩ := loaded_first free fits.toFolderFits (by omega) (by omega) discarded loaded
  have prepared := prepare_placed (s := { s with heap := discardedHeap (filesAt b) (rootAt b) loadedHeap, root := 0 })
    short parked catalog ready rfl (folder_discarded first) (arraysFit_discarded fits (by omega)) small behind
  obtain ⟨unloaded, dir'', es'', sizes', catalog'', source, free', fits'⟩ := completes_result prepared prepare
  have entries : es1.map Entry.record = es''.map Entry.record :=
    (catalog_entries catalog1).symm.trans (catalog_entries catalog'')
  rw [entries] at folder' loaded'
  rw [List.length_map] at loaded'
  have inside : i < es''.length := by
    rw [List.getElem?_eq_getElem small] at source
    exact (List.getElem?_eq_some_iff.mp source).1
  have few' := fits_small catalog''
  obtain ⟨rfl, rfl, _⟩ := loaded_first free' fits' (by omega) (by omega) (discarded_none unloaded) loaded'
  have word := fileSize_run folder'.records (i := i) (by rwa [List.length_map])
  have same : es''[i] = es[i] := by
    rw [List.getElem?_eq_getElem inside, List.getElem?_eq_getElem small] at source
    exact Option.some.inj source
  rw [List.getElem_map, same] at word
  exact congrArg Prod.fst (Except.ok.inj (read.symm.trans word))

end

end Delos.Invariants
