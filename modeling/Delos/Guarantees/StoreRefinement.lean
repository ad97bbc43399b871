import Delos.Invariants.StoreCalls

/-!
# The file system is a store

Behind `fs_init`, whatever memory and the disk held before, the calls of the file system answer as
those of a list of named files do, and the disk shows that list. What the machine admits
leaves out the writes that lose bytes or clusters and the directories that do not fit.
-/
namespace Delos.Guarantees
open Lib Source Invariants

/-- The calls that are made from the start of the kernel on. Only its equation unfolds it, and nothing evaluates
`fs_init`. -/
@[irreducible] def session (calls : List StoreCall) : Kernel (List (Nat × List UInt8)) := do
  let _ ← fsInit
  runCalls StoreCall.run calls

/-- The files on a disk in the order of the directory. -/
def filesOn (disk : ByteMemory) : List File :=
  (dirEntries disk).map fun r => ⟨r.name, contents disk r, r.isOpen, r.isSystem⟩

/-- The files and the number of free clusters are those of the store. -/
def DiskShows (disk : ByteMemory) (σ : Store) : Prop := filesOn disk = σ.items ∧ lowFree disk = σ.free

section
variable {start s : Fs} {others : List (Nat × Nat)} {σ : Store} {calls more : List StoreCall} {f : File} {name : CString}

theorem diskShows_shows (shows : Shows others s σ) : DiskShows s.disk σ := by
  obtain @⟨dir, es, parked, catalog, catalogued⟩ := shows
  refine ⟨?_, catalogued_free catalog catalogued⟩
  rw [filesOn, catalog_entries catalog, catalogued.files, List.map_map]
  apply List.map_congr_left
  intro e inside
  simp only [Function.comp_apply, catalog_contents catalog inside]
  rfl

/-- The run lemma: the store of every session. The first call is a variable, so that nothing evaluates it. -/
theorem session_run (boot : Boot start) (admitted : storeMachine.Admits calls defaultStore) {call : Kernel Nat}
    (init : call = fsInit) : Completes (call >>= fun _ => runCalls StoreCall.run calls) start fun answers s =>
      answers = (storeMachine.answers calls defaultStore).1 ∧ DiskShows s.disk (storeMachine.answers calls defaultStore).2 := by
  obtain ⟨others, owned⟩ := boot.heap
  apply meets_call (shows_fsInit init owned boot.disk)
  intro _ s shows
  apply meets_mono (simulates_calls store_simulates shows admitted)
  rintro answers s' ⟨same, shows'⟩
  exact ⟨same, diskShows_shows shows'⟩

/-- Every call of every session answers as the store does, and the disk shows the store. -/
theorem store_refinement (boot : Boot start) (admitted : storeMachine.Admits calls defaultStore) :
    Completes (session calls) start fun answers s => answers = (storeMachine.answers calls defaultStore).1 ∧
      DiskShows s.disk (storeMachine.answers calls defaultStore).2 := by
  unfold session
  generalize init : fsInit = call
  exact session_run boot admitted init.symm

end

def noteName : CString := ⟨textBytes "note", by decide⟩

/-- A new file is written in two parts, protected and deleted. -/
def noteCalls : List StoreCall := [.touch noteName, .write noteName (textBytes "abc") 0, .write noteName (textBytes "-") 1,
  .read noteName 0 4, .setAsSystemFile noteName, .rm noteName, .cat noteName, .deleteSystemFile noteName, .fileExists noteName]

theorem store_refinement_note : Completes (session noteCalls) clearBoot fun answers s =>
    answers = [(0, []), (0, []), (0, []), (0, textBytes "a-bc"), (0, []), (1, []), (0, textBytes "a-bc"), (0, []), (0, [])] ∧
      DiskShows s.disk defaultStore := by
  have admitted : storeMachine.Admits noteCalls defaultStore := by decide +kernel
  have answers : (storeMachine.answers noteCalls defaultStore).1 = [(0, []), (0, []), (0, []), (0, textBytes "a-bc"), (0, []),
      (1, []), (0, textBytes "a-bc"), (0, []), (0, [])] := by decide +kernel
  have same : (storeMachine.answers noteCalls defaultStore).2 = defaultStore := Keyed.ext (by decide +kernel)
  have meets := store_refinement boot_clear admitted
  rwa [answers, same] at meets

section
variable {start : Fs} {σ : Store} {calls more : List StoreCall}

/-! ## Protected files -/

/-- Neither written nor deleted as a system file. -/
def Leaves (name : List UInt8) : StoreCall → Prop
  | .deleteSystemFile filename | .write filename _ _ => (normalizeFilename filename).bytes ≠ name
  | _ => True

/-- A system file with this content. -/
def Protects (name content : List UInt8) (σ : Store) : Prop :=
  ∃ f, σ.find name = some f ∧ f.isSystem = true ∧ f.content = content

theorem protects_change {name content key : List UInt8} (g : File → File) (same : ∀ v, (g v).name = v.name)
    (protects : Protects name content σ) (keeps : ∀ f : File, f.isSystem = true → f.name = name → f.content = content →
      name = key → (g f).isSystem = true ∧ (g f).content = content) :
    Protects name content (Keyed.change σ key g same) := by
  obtain ⟨f, found, system, whole⟩ := protects
  refine ⟨_, Keyed.find_change found, ?_⟩
  split
  next here => exact keeps f system (Keyed.find_some found).2 whole here
  next => exact ⟨system, whole⟩

/-- The step lemma: no call but two touches a system file. -/
theorem protects_call {content name : List UInt8} (protects : Protects name content σ) (call : StoreCall)
    (leaves : Leaves name call) : Protects name content (storeMachine.answer call σ).2 := by
  obtain ⟨f, found, system, whole⟩ := protects
  have protects : Protects name content σ := ⟨f, found, system, whole⟩
  cases call with
  | touch filename =>
    show Protects name content (Store.touch σ _).2
    unfold Store.touch
    split
    next fresh => exact ⟨f, Keyed.find_add_other fresh found, system, whole⟩
    next => exact protects
  | rm filename =>
    show Protects name content (Store.rm σ _).2
    unfold Store.rm
    split
    next g there =>
      split
      next => exact protects
      next user =>
        refine ⟨f, Keyed.find_remove_other ?_ found, system, whole⟩
        rintro rfl
        obtain rfl := Option.some.inj (found.symm.trans there)
        exact user system
    next => exact protects
  | deleteSystemFile filename =>
    show Protects name content (Store.deleteSystemFile σ _).2
    unfold Store.deleteSystemFile
    split
    next => exact protects
    next => exact ⟨f, Keyed.find_remove_other leaves.symm found, system, whole⟩
  | openFile filename =>
    show Protects name content (Store.openFile σ _).2
    unfold Store.openFile
    split
    next => exact protects
    next => exact protects_change (File.setOpen true) (fun _ => rfl) protects fun f system _ whole _ => ⟨system, whole⟩
  | closeFile filename =>
    show Protects name content (Store.closeFile σ _).2
    unfold Store.closeFile
    split
    next => exact protects_change (File.setOpen false) (fun _ => rfl) protects fun f system _ whole _ => ⟨system, whole⟩
    next => exact protects
  | setAsSystemFile filename =>
    show Protects name content (Store.setAsSystemFile σ _).2
    unfold Store.setAsSystemFile
    split
    next => exact protects
    next => exact protects_change (File.setSystem true) (fun _ => rfl) protects fun f _ _ whole _ => ⟨rfl, whole⟩
  | write filename buffer offset =>
    show Protects name content (Store.write σ _ buffer offset).2
    unfold Store.write
    split
    next =>
      split
      next => exact protects
      next =>
        split
        next => exact protects
        next => exact protects_change (File.splice offset buffer) (fun _ => rfl) protects fun f _ _ _ here => absurd here.symm leaves
    next => exact protects
  | fileExists | getFileSize | read | cat => exact protects

/-- A system file outlives every call that is not about writing or deleting it. -/
theorem system_file_survives {content name : List UInt8} (boot : Boot start)
    (admitted : storeMachine.Admits (calls ++ more) defaultStore)
    (protects : Protects name content (storeMachine.answers calls defaultStore).2) (leaves : ∀ call ∈ more, Leaves name call) :
    Completes (session (calls ++ more)) start fun _ s =>
      ∃ f ∈ filesOn s.disk, f.name = name ∧ f.isSystem = true ∧ f.content = content := by
  apply meets_mono (store_refinement boot admitted)
  rintro _ s ⟨_, files, _⟩
  rw [files, storeMachine.answers_append]
  have kept : Protects name content (storeMachine.answers more (storeMachine.answers calls defaultStore).2).2 :=
    storeMachine.answers_keep (fun _ call here => protects_call here call) protects leaves
  obtain ⟨f, found, system, whole⟩ := kept
  obtain ⟨inside, named⟩ := Keyed.find_some found
  exact ⟨f, inside, named, system, whole⟩

end

/-- The file is protected first, and `rm` and the opening leave it alone. -/
theorem system_file_survives_note : Completes (session (noteCalls.take 5 ++ [.rm noteName, .openFile noteName, .touch noteName]))
    clearBoot fun _ s => ∃ f ∈ filesOn s.disk, f.name = textBytes "note" ∧ f.isSystem = true ∧ f.content = textBytes "a-bc" := by
  have protects : Protects (textBytes "note") (textBytes "a-bc") (storeMachine.answers (noteCalls.take 5) defaultStore).2 :=
    ⟨⟨textBytes "note", textBytes "a-bc", false, true⟩, by decide +kernel, rfl, rfl⟩
  apply system_file_survives boot_clear (by decide +kernel) protects
  intro call inside
  simp only [List.mem_cons, List.not_mem_nil, or_false] at inside
  rcases inside with rfl | rfl | rfl <;> trivial

section
variable {start : Fs} {σ : Store} {calls : List StoreCall} {filename : CString} {buffer : List UInt8}

/-! ## The life of a file -/

/-- A user's file that nobody has opened. -/
def userFile (filename : CString) (content : List UInt8) : File := ⟨(normalizeFilename filename).bytes, content, false, false⟩

/-- A file is created, written, read and deleted again. -/
def lifeOf (filename : CString) (buffer : List UInt8) : List StoreCall :=
  [.touch filename, .write filename buffer 0, .read filename 0 buffer.length, .rm filename]

theorem find_userFile (fresh : σ.find (userFile filename []).name = none) (content : List UInt8) :
    Keyed.find (σ.add (userFile filename content) fresh) (userFile filename []).name = some (userFile filename content) :=
  Keyed.find_add (v := userFile filename content) fresh

theorem answer_touch (fresh : σ.find (userFile filename []).name = none) :
    storeMachine.answer (.touch filename) σ = ((0, []), σ.add (userFile filename []) fresh) := by
  have touched : Store.touch σ (userFile filename []).name = (0, σ.add (userFile filename []) fresh) := dif_pos fresh
  show (((Store.touch σ (userFile filename []).name).1, []), (Store.touch σ (userFile filename []).name).2) = _
  rw [touched]

/-- Nothing is refused at the end of an empty file. -/
theorem answer_write (fresh : σ.find (userFile filename []).name = none)
    (room : appendNeed 0 buffer.length ≤ Store.free (σ.add (userFile filename []) fresh)) :
    storeMachine.answer (.write filename buffer 0) (σ.add (userFile filename []) fresh) =
      ((0, []), σ.add (userFile filename buffer) fresh) := by
  have accepted : ¬ Refuses (Store.free (σ.add (userFile filename []) fresh)) 0 0 buffer.length := by
    rintro (beyond | inside)
    · exact Nat.not_lt_zero _ beyond
    · exact Nat.not_lt_zero _ inside.1
  have fits : ¬ Overflows (Store.free (σ.add (userFile filename []) fresh)) 0 buffer.length :=
    Nat.not_lt.mpr (Nat.le_add_right_of_le room)
  have spliced : Store.splice (σ.add (userFile filename []) fresh) (userFile filename []).name 0 buffer =
      σ.add (userFile filename buffer) fresh := by
    refine (Keyed.change_add fresh).trans (Keyed.ext ?_)
    simp [File.splice, userFile]
  have written : Store.write (σ.add (userFile filename []) fresh) (userFile filename []).name buffer 0 =
      (0, σ.add (userFile filename buffer) fresh) := by
    unfold Store.write
    simp only [find_userFile]
    rw [show (userFile filename []).content.length = 0 from rfl, if_neg accepted, if_neg fun both => fits both.2, spliced]
  show (((Store.write _ (userFile filename []).name buffer 0).1, []), (Store.write _ (userFile filename []).name buffer 0).2) = _
  rw [written]

theorem answer_read (fresh : σ.find (userFile filename []).name = none) (word : buffer.length < wordModulus) :
    storeMachine.answer (.read filename 0 buffer.length) (σ.add (userFile filename buffer) fresh) =
      ((0, buffer), σ.add (userFile filename buffer) fresh) := by
  have bytes : Store.read (σ.add (userFile filename buffer) fresh) (userFile filename []).name 0 buffer.length = buffer := by
    unfold Store.read
    simp only [find_userFile]
    rw [show (userFile filename buffer).content = buffer from rfl, Nat.zero_add, Nat.mod_eq_of_lt word, if_neg (Nat.lt_irrefl _), List.drop_zero, List.take_length]
  show ((0, Store.read _ (userFile filename []).name 0 buffer.length), _) = _
  rw [bytes]

theorem answer_rm (fresh : σ.find (userFile filename []).name = none) :
    storeMachine.answer (.rm filename) (σ.add (userFile filename buffer) fresh) = ((0, []), σ) := by
  have removed : Store.rm (σ.add (userFile filename buffer) fresh) (userFile filename []).name = (0, σ) := by
    unfold Store.rm
    simp only [find_userFile]
    rw [if_neg (show ¬ (userFile filename buffer).isSystem = true from Bool.false_ne_true)]
    exact congrArg (Prod.mk 0) (Keyed.remove_add (v := userFile filename buffer) fresh)
  show (((Store.rm _ (userFile filename []).name).1, []), (Store.rm _ (userFile filename []).name).2) = _
  rw [removed]

/-- The free clusters are those of the FAT at most. -/
theorem room_word {n : Nat} (room : appendNeed 0 n ≤ σ.free) : n < wordModulus := by
  have limit : σ.free ≤ takenCluster := by
    unfold Store.free
    omega
  have bound := appendNeed_bound (Nat.le_trans room limit)
  unfold wordModulus
  omega

theorem answers_life (fresh : σ.find (userFile filename []).name = none)
    (room : appendNeed 0 buffer.length ≤ Store.free (σ.add (userFile filename []) fresh)) :
    storeMachine.answers (lifeOf filename buffer) σ = ([(0, []), (0, []), (0, buffer), (0, [])], σ) := by
  simp only [lifeOf, Machine.answers, answer_touch fresh, answer_write fresh room,
    answer_read fresh (room_word room), answer_rm fresh]

theorem admits_life (fresh : σ.find (userFile filename []).name = none) (create : CreateRoom σ.free σ.items.length)
    (room : appendNeed 0 buffer.length ≤ Store.free (σ.add (userFile filename []) fresh)) :
    storeMachine.Admits (lifeOf filename buffer) σ := by
  refine ⟨?_, ?_, ?_, ?_, trivial⟩
  · show StoreCall.Fits (.touch filename) σ
    unfold StoreCall.Fits
    rw [show (StoreCall.touch filename).key = (userFile filename []).name from rfl, fresh]
    exact create
  · rw [answer_touch fresh]
    show StoreCall.Fits (.write filename buffer 0) (σ.add (userFile filename []) fresh)
    unfold StoreCall.Fits
    rw [show (StoreCall.write filename buffer 0).key = (userFile filename []).name from rfl, find_userFile]
    exact ⟨fun _ => ⟨.inr (.inl rfl), .inl room⟩, fun _ before => absurd before (Nat.not_lt_zero 0)⟩
  · rw [answer_touch fresh, answer_write fresh room]
    show StoreCall.Fits (.read filename 0 buffer.length) (σ.add (userFile filename buffer) fresh)
    unfold StoreCall.Fits
    rw [show (StoreCall.read filename 0 buffer.length).key = (userFile filename []).name from rfl, find_userFile]
    exact .inl (Nat.le_of_eq (Nat.zero_add _))
  · rw [answer_touch fresh, answer_write fresh room]
    show StoreCall.Fits (.rm filename) (storeMachine.answer (.read filename 0 buffer.length) (σ.add (userFile filename buffer) fresh)).2
    unfold StoreCall.Fits
    split <;> trivial

/-- A file for which there is room is read back as it was written, and when it is deleted the disk shows the
files and the free clusters of before. -/
theorem file_life (boot : Boot start) (admitted : storeMachine.Admits calls defaultStore)
    (fresh : (storeMachine.answers calls defaultStore).2.find (userFile filename []).name = none)
    (create : CreateRoom (storeMachine.answers calls defaultStore).2.free (storeMachine.answers calls defaultStore).2.items.length)
    (room : appendNeed 0 buffer.length ≤ Store.free ((storeMachine.answers calls defaultStore).2.add (userFile filename []) fresh)) :
    Completes (session (calls ++ lifeOf filename buffer)) start fun answers s =>
      answers = (storeMachine.answers calls defaultStore).1 ++ [(0, []), (0, []), (0, buffer), (0, [])] ∧
        DiskShows s.disk (storeMachine.answers calls defaultStore).2 := by
  have life := (storeMachine.admits_append calls (lifeOf filename buffer) defaultStore).mpr
    ⟨admitted, admits_life fresh create room⟩
  have meets := store_refinement boot life
  rwa [storeMachine.answers_append, answers_life fresh room] at meets

end

theorem file_life_note : Completes (session (noteCalls ++ lifeOf noteName (textBytes "again"))) clearBoot fun answers s =>
    answers = (storeMachine.answers noteCalls defaultStore).1 ++ [(0, []), (0, []), (0, textBytes "again"), (0, [])] ∧
      DiskShows s.disk (storeMachine.answers noteCalls defaultStore).2 :=
  file_life boot_clear (by decide +kernel) (by decide +kernel) (by decide +kernel) (by decide +kernel)

end Delos.Guarantees
