import Delos.Source.VfsReading
import Delos.Invariants.FileCatalog

/-!
# Reading operations

Behind the load of the root folder `read`, `cat` and `ls` only read memory and
write to the screen. `Survives` is the judgment for them: a run may stop for any
reason but `_panic()`.
-/
namespace Delos.Invariants
open Lib Source

abbrev Survives {α : Type} (x : Kernel α) (s : Fs) (post : α → Fs → Prop) : Prop :=
  Meets (· ≠ Stop.panic) x s post

/-- Nothing but the screen is different. -/
def Shown (s s' : Fs) : Prop := ∃ screen, s' = { s with screen := screen }

section
variable {α : Type} {x : Kernel α} {s s' s'' : Fs} {post : α → Fs → Prop} {others : List (Nat × Nat)}
  {dir lost : List Nat} {es : List Entry}

theorem survives_of_completes (completes : Completes x s post) : Survives x s post := by
  unfold Survives
  unfold Completes at completes
  unfold Meets at completes ⊢
  split
  next a s' run =>
    rw [run] at completes
    exact completes
  next e run =>
    rw [run] at completes
    rw [completes]
    decide

theorem shown_refl : Shown s s := ⟨s.screen, rfl⟩

theorem shown_trans (first : Shown s s') (second : Shown s' s'') : Shown s s'' := by
  obtain ⟨_, rfl⟩ := first
  obtain ⟨screen, rfl⟩ := second
  exact ⟨screen, rfl⟩

theorem Parked.shown (parked : Parked s others) (shown : Shown s s') : Parked s' others := by
  obtain ⟨screen, rfl⟩ := shown
  exact parked.onScreen screen

/-! ## Steps that only read -/

/-- From every state the step survives and changes nothing but the screen. -/
def Calm (x : Kernel α) : Prop := ∀ s, Survives x s fun _ s' => Shown s s'

theorem calm_pure (a : α) : Calm (pure a : Kernel α) := fun _ => meets_pure.mpr shown_refl

theorem calm_bind {β : Type} {f : α → Kernel β} (first : Calm x) (rest : ∀ a, Calm (f a)) :
    Calm (x >>= f) := by
  intro s
  apply meets_call (first s)
  intro a s1 shown1
  apply meets_mono (rest a s1)
  intro _ s2 shown2
  exact shown_trans shown1 shown2

theorem calm_ite {p : Prop} [Decidable p] {y : Kernel α} (yes : Calm x) (no : Calm y) :
    Calm (if p then x else y) := by
  split
  · exact yes
  · exact no

theorem calm_throw {e : Stop} (other : e ≠ .panic) : Calm (throw e : Kernel α) :=
  fun _ => meets_throw.mpr other

theorem readMemory_calm (a n : Nat) : Calm (readMemory a n) := by
  intro s
  unfold readMemory
  refine meets_bind.mpr (meets_get.mpr ?_)
  split
  · exact calm_pure _ s
  · split
    · exact calm_pure _ s
    · split
      · exact calm_pure _ s
      · exact calm_throw (by decide) s

theorem readWord_calm (a : Nat) : Calm (readWord a) :=
  calm_bind (readMemory_calm a 4) fun _ => calm_pure _

theorem fileFlag_calm (bit file : Nat) : Calm (fileFlag bit file) :=
  calm_bind (readMemory_calm (file + 24) 1) fun _ => calm_pure _

theorem fat_calm (i : Nat) : Calm (fat i) :=
  calm_bind (readMemory_calm (fatAddr i) 2) fun _ => calm_pure _

theorem emit_calm (call : ScreenCall) : Calm (emit call) := fun _ => meets_modify.mpr ⟨_, rfl⟩

theorem followClusters_calm (n c : Nat) : Calm (followClusters n c) := by
  induction n generalizing c with
  | zero => exact calm_pure c
  | succ n ih => exact calm_bind (fat_calm c) ih

theorem readLoop_calm (len bound c bytesRead : Nat) : Calm (readLoop len bound c bytesRead) := by
  induction bound generalizing c bytesRead with
  | zero => exact calm_throw (by decide)
  | succ bound ih =>
    unfold readLoop
    apply calm_ite (calm_pure [])
    apply calm_bind (fat_calm c)
    intro next
    apply calm_bind (readMemory_calm _ _)
    intro bytes
    exact calm_bind (ih next _) fun _ => calm_pure _

theorem catLoop_calm (size bound c readBytes : Nat) (buffer : List UInt8) :
    Calm (catLoop size bound c readBytes buffer) := by
  induction bound generalizing c readBytes buffer with
  | zero => exact calm_throw (by decide)
  | succ bound ih =>
    unfold catLoop
    apply calm_bind (fat_calm c)
    intro value
    apply calm_ite
    · apply calm_bind (calm_ite (emit_calm _) (calm_pure ()))
      intro _
      exact calm_bind (readMemory_calm _ _) fun bytes => ih value _ _
    · exact calm_pure buffer

theorem readString_calm (bound a : Nat) : Calm (readString bound a) := by
  induction bound generalizing a with
  | zero => exact calm_throw (by decide)
  | succ bound ih =>
    unfold readString
    apply calm_bind (readMemory_calm a 1)
    intro c
    apply calm_ite (calm_pure [])
    exact calm_bind (ih (a + 1)) fun _ => calm_pure _

theorem lsField_calm (label : String) (value : List UInt8) : Calm (lsField label value) :=
  calm_bind (emit_calm _) fun _ => calm_bind (emit_calm _) fun _ =>
    calm_bind (emit_calm _) fun _ => emit_calm _

theorem lsLoop_calm (files left i : Nat) : Calm (lsLoop files left i) := by
  induction left generalizing i with
  | zero => exact calm_pure ()
  | succ left ih =>
    unfold lsLoop
    apply calm_bind (readString_calm _ _)
    intro name
    apply calm_bind (lsField_calm _ _)
    intro _
    apply calm_bind (readWord_calm _)
    intro size
    apply calm_bind (lsField_calm _ _)
    intro _
    apply calm_bind (readWord_calm _)
    intro start
    apply calm_bind (lsField_calm _ _)
    intro _
    apply calm_bind (fileFlag_calm 1 _)
    intro system
    apply calm_bind (lsField_calm _ _)
    intro _
    apply calm_bind (fileFlag_calm 0 _)
    intro opened
    apply calm_bind (lsField_calm _ _)
    intro _
    exact ih (i + 1)

/-! ## The operations -/

/-- `file_exists` changes only the heap. -/
theorem fileExists_run (filename : CString) (parked : Parked s others)
    (catalog : Catalog s.disk dir es lost) :
    Completes (fileExists filename) s fun known s' => ∃ heap, s' = { s with heap := heap, root := 0 } ∧
      Owned heap others ∧ Kept others s.heap heap ∧
        known = (position (normalizeFilename filename) es).isSome := by
  unfold fileExists
  apply meets_call (loadCatalog_run parked catalog)
  rintro _ _ ⟨heap, root, files, rfl, loaded, kept⟩
  obtain ⟨freed, discard, owned, keptFreed, records⟩ := freeRootDir_loaded loaded
  rw [meets_next (getFile_run loaded.folder (normalizeFilename_short filename)), findIdx_record,
    meets_next discard]
  refine meets_pure.mpr ⟨freed, rfl, owned, kept_trans kept keptFreed, ?_⟩
  cases position (normalizeFilename filename) es with
  | none => simp [filePointer]
  | some i =>
    have nonzero : fileAt files i ≠ 0 := filePointer_nonzero records i
    simp [filePointer, nonzero]

/-- Besides the screen only free memory of the heap is different. -/
structure Looked (others : List (Nat × Nat)) (s s' : Fs) : Prop where
  parked : Parked s' others
  disk : s'.disk = s.disk
  kept : Kept others s.heap s'.heap

theorem Looked.from (looked : Looked others s' s'') (disk : s'.disk = s.disk)
    (kept : Kept others s.heap s'.heap) : Looked others s s'' :=
  ⟨looked.parked, looked.disk.trans disk, kept_trans kept looked.kept⟩

theorem survives_calm (calm : Calm x) (parked : Parked s others) :
    Survives x s fun _ s' => Looked others s s' := by
  apply meets_mono (calm s)
  intro a s' shown
  have parked' := parked.shown shown
  obtain ⟨screen, rfl⟩ := shown
  exact ⟨parked', rfl, kept_refl⟩

/-- Behind the folder that has been freed. -/
theorem discard_survives (calm : Calm x) (looked : Looked others s s') :
    Survives (freeRootDir >>= fun _ => x) s' fun _ s'' => Looked others s s'' := by
  obtain ⟨heap, discard, owned, kept⟩ := freeRootDir_parked looked.parked
  refine (meets_next discard).mpr ?_
  apply meets_mono (survives_calm calm (.empty rfl owned))
  intro _ s'' behind
  exact behind.from looked.disk (kept_trans looked.kept kept)

/-- What every reading operation starts with. -/
theorem reading_survives {f : Nat → Kernel α} {filename : CString} (parked : Parked s others)
    (catalog : Catalog s.disk dir es lost) (short : filename.bytes.length < fileNameLen)
    (rest : ∀ s1 files, Loaded s1 others files (es.map Entry.record) →
      Survives (f (filePointer files (position filename es))) s1 fun _ s' => Looked others s1 s') :
    Survives (loadRootFolder >>= fun _ => getFile filename >>= f) s fun _ s' => Looked others s s' := by
  apply meets_call (survives_of_completes (loadCatalog_run parked catalog))
  rintro _ _ ⟨heap, root, files, rfl, loaded, kept⟩
  rw [meets_next (getFile_run loaded.folder short), findIdx_record]
  apply meets_mono (rest _ files loaded)
  intro _ s' looked
  exact looked.from rfl kept

theorem read_survives (filename : CString) (offset len : Nat) (parked : Parked s others)
    (catalog : Catalog s.disk dir es lost) :
    Survives (Source.read filename offset len) s fun _ s' => Looked others s s' := by
  unfold Source.read
  apply reading_survives parked catalog (normalizeFilename_short filename)
  intro s1 files loaded
  apply discard_survives ?_ ⟨loaded.parked, rfl, kept_refl⟩
  apply calm_bind (readWord_calm _)
  intro start
  apply calm_bind (readWord_calm _)
  intro size
  apply calm_ite (calm_bind (emit_calm _) fun _ => calm_pure _)
  apply calm_bind (followClusters_calm _ _)
  intro c
  apply calm_bind (readMemory_calm _ _)
  intro bytes
  exact calm_ite (calm_pure _) (calm_bind (readLoop_calm _ _ _ _) fun _ => calm_pure _)

theorem cat_survives (filename : CString) (parked : Parked s others)
    (catalog : Catalog s.disk dir es lost) :
    Survives (cat filename) s fun _ s' => Looked others s s' := by
  unfold cat
  apply reading_survives parked catalog (normalizeFilename_short filename)
  intro s1 files loaded
  split
  · apply meets_call (emit_calm _ s1)
    rintro _ _ ⟨screen, rfl⟩
    exact discard_survives (calm_pure _) ⟨loaded.parked.onScreen screen, rfl, kept_refl⟩
  · apply meets_call (readWord_calm _ s1)
    rintro start _ ⟨screen1, rfl⟩
    apply meets_call (readWord_calm _ _)
    rintro size _ ⟨screen2, rfl⟩
    have parked' := (loaded.parked.onScreen screen1).onScreen screen2
    have looked : Looked others s1 { s1 with screen := screen2 } := ⟨parked', rfl, kept_refl⟩
    apply discard_survives ?_ looked
    exact calm_bind (catLoop_calm _ _ _ _ _) fun _ => calm_bind (emit_calm _) fun _ => calm_pure _

theorem ls_survives (parked : Parked s others) (catalog : Catalog s.disk dir es lost) :
    Survives ls s fun _ s' => Looked others s s' := by
  unfold ls
  apply meets_call (survives_of_completes (loadCatalog_run parked catalog))
  rintro _ _ ⟨heap, root, files, rfl, loaded, kept⟩
  have loop : ∀ count files, Calm (lsLoop files count 0) := fun count files => lsLoop_calm files count 0
  rw [meets_next (rootFileCount_run loaded.folder), meets_next (rootFiles_run loaded.folder)]
  apply meets_call (loop _ _ _)
  rintro _ _ ⟨screen, rfl⟩
  obtain ⟨freed, discard, owned, keptFreed⟩ := freeRootDir_parked (loaded.parked.onScreen screen)
  rw [← bind_pure freeRootDir, meets_next discard]
  exact meets_pure.mpr ⟨.empty rfl owned, rfl, kept_trans kept keptFreed⟩

end

end Delos.Invariants
