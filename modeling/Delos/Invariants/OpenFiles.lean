import Delos.Invariants.TerminalLog
import Delos.Invariants.FileReading
import Delos.Invariants.FileSystemRuns
import Delos.Invariants.WriteContents
import Delos.Lib.Frames

/-!
# Files that stay open

The open flag is in the saved directory. `Sparing` says of two states of the file system
that live blocks keep their bytes and that a file which is open and no target stays open.
-/
namespace Delos.Invariants
open Lib Source

/-- Marked as open in the saved directory. -/
def OpenOn (disk : ByteMemory) (name : List UInt8) : Prop :=
  ∃ r ∈ dirEntries disk, r.name = name ∧ r.isOpen = true

/-- The blocks are live, and the disk keeps a catalog. -/
def Sound (others : List (Nat × Nat)) (s : Fs) : Prop :=
  ∃ dir es lost, Parked s others ∧ Catalog s.disk dir es lost

structure Sparing (others : List (Nat × Nat)) (target : List UInt8 → Prop) (s s' : Fs) : Prop where
  sound : Sound others s'
  kept : Kept others s.heap s'.heap
  opened : ∀ name, ¬ target name → OpenOn s.disk name → OpenOn s'.disk name

def NoFile (_ : List UInt8) : Prop := False

/-- What an operation does to a sound state. -/
def Spares (others : List (Nat × Nat)) (target : List UInt8 → Prop) (s s' : Fs) : Prop :=
  Sound others s → Sparing others target s s'

section
variable {s s' s'' : Fs} {others : List (Nat × Nat)} {target target' : List UInt8 → Prop} {dir lost : List Nat}
  {es es' : List Entry} {filename : CString} {res : Nat}

theorem Sparing.trans (first : Sparing others target s s') (second : Sparing others target s' s'') :
    Sparing others target s s'' :=
  ⟨second.sound, kept_trans first.kept second.kept,
    fun name other opened => second.opened name other (first.opened name other opened)⟩

theorem Sparing.mono (sparing : Sparing others target s s') (more : ∀ name, target name → target' name) :
    Sparing others target' s s' :=
  ⟨sparing.sound, sparing.kept, fun name other => sparing.opened name fun inside => other (more name inside)⟩

instance (others : List (Nat × Nat)) (target : List UInt8 → Prop) : IsPreorder Fs (Spares others target) where
  refl _ := fun sound => ⟨sound, kept_refl, fun _ _ opened => opened⟩
  trans _ _ _ first second := fun sound => (first sound).trans (second (first sound).sound)

theorem openOn_iff (catalog : Catalog s.disk dir es lost) : OpenOn s.disk filename.bytes ↔ OpenIn filename es := by
  unfold OpenOn OpenIn
  rw [catalog_entries catalog]
  simp

/-! ## Operations that only read -/

theorem sparing_looked (sound : Sound others s) (looked : Looked others s s') : Sparing others target s s' := by
  obtain ⟨dir, es, lost, _, catalog⟩ := sound
  have disk := looked.disk
  refine ⟨⟨dir, es, lost, looked.parked, ?_⟩, looked.kept, fun name _ opened => ?_⟩
  · rwa [disk]
  · rwa [disk]

/-- What an operation that only reads does to a sound state. -/
def Looks (others : List (Nat × Nat)) (s s' : Fs) : Prop := Sound others s → Looked others s s'

instance (others : List (Nat × Nat)) : IsPreorder Fs (Looks others) where
  refl _ := by
    rintro ⟨_, _, _, parked, _⟩
    exact ⟨parked, rfl, kept_refl⟩
  trans _ _ _ first second := by
    intro sound
    have looked := first sound
    have sparing : Sparing others NoFile _ _ := sparing_looked sound looked
    exact (second sparing.sound).from looked.disk looked.kept

theorem spares_looks (looks : Looks others s s') : Spares others target s s' := fun sound =>
  sparing_looked sound (looks sound)

theorem along_survives {α : Type} {x : Kernel α}
    (survives : ∀ {s : Fs} {dir es lost}, Parked s others → Catalog s.disk dir es lost →
      Survives x s fun _ s' => Looked others s s') : Along (Looks others) x := by
  rintro s a s' run ⟨dir, es, lost, parked, catalog⟩
  have looked := meets_result (survives parked catalog) run
  exact looked

theorem along_read (filename : CString) (offset len : Nat) :
    Along (Looks others) (Source.read filename offset len) :=
  along_survives (read_survives filename offset len)

theorem along_cat (filename : CString) : Along (Looks others) (cat filename) :=
  along_survives (cat_survives filename)

theorem along_ls : Along (Looks others) ls := along_survives ls_survives

theorem fileExists_iff {known : Bool} (sound : Sound others s) (run : fileExists filename s = .ok (known, s')) :
    known = true ↔ ∃ r ∈ dirEntries s.disk, r.name = (normalizeFilename filename).bytes := by
  obtain ⟨dir, es, lost, parked, catalog⟩ := sound
  obtain ⟨heap, _, _, _, rfl⟩ := completes_result (fileExists_run filename parked catalog) run
  have missing := @position_entries es (normalizeFilename filename)
  rw [← catalog_entries catalog] at missing
  rw [Option.isSome_iff_ne_none, ne_eq, missing]
  simp

theorem along_fileExists (filename : CString) : Along (Looks others) (fileExists filename) := by
  apply along_survives
  intro s dir es lost parked catalog
  apply meets_mono (survives_of_completes (fileExists_run filename parked catalog))
  rintro known s' ⟨heap, rfl, owned, kept, _⟩
  exact ⟨.empty rfl owned, rfl, kept⟩

/-- Without the file the folder stays loaded. -/
theorem along_getFileSize (filename : CString) : Along (Looks others) (getFileSize filename) := by
  apply along_survives
  intro s dir es lost parked catalog
  unfold getFileSize
  apply reading_survives parked catalog (normalizeFilename_short filename)
  intro s1 files loaded
  split
  · exact meets_pure.mpr ⟨loaded.parked, rfl, kept_refl⟩
  · apply meets_call (readWord_calm _ s1)
    rintro size _ ⟨screen, rfl⟩
    have looked : Looked others s1 { s1 with screen := screen } := ⟨loaded.parked.onScreen screen, rfl, kept_refl⟩
    exact discard_survives (calm_pure size) looked

theorem along_calm {α : Type} {x : Kernel α} (calm : Calm x) : Along (Looks others) x :=
  along_survives fun parked _ => survives_calm calm parked

theorem along_emit (call : ScreenCall) : Along (Looks others) (emit call) := along_calm (emit_calm call)

/-! ## Operations that change the disk -/

/-- An open file has an entry in both catalogs. -/
theorem sparing_entries {dir' lost' : List Nat} (catalog : Catalog s.disk dir es lost) (parked' : Parked s' others)
    (catalog' : Catalog s'.disk dir' es' lost') (kept : Kept others s.heap s'.heap)
    (stays : ∀ e ∈ es, ¬ target e.record.name → e.record.isOpen = true →
      ∃ e' ∈ es', e'.record.name = e.record.name ∧ e'.record.isOpen = true) : Sparing others target s s' := by
  refine ⟨⟨dir', es', lost', parked', catalog'⟩, kept, ?_⟩
  rintro name other ⟨r, inside, rfl, opened⟩
  rw [catalog_entries catalog] at inside
  obtain ⟨e, member, rfl⟩ := List.mem_map.mp inside
  obtain ⟨e', member', named, opened'⟩ := stays e member other opened
  refine ⟨e'.record, ?_, named, opened'⟩
  rw [catalog_entries catalog']
  exact List.mem_map.mpr ⟨e', member', rfl⟩

/-- The target of a ready operation may be closed. -/
theorem sparing_operation (op : FileOperation) (ready : op.Ready s.disk) (run : op.run s = .ok (res, s')) :
    Spares others (· = op.target.bytes) s s' := by
  rintro ⟨dir, es, lost, parked, catalog⟩
  obtain ⟨dir', es', lost', parked', catalog', kept, undisturbed, _⟩ :=
    completes_result (operation_run op parked catalog ready) run
  refine sparing_entries catalog parked' catalog' kept fun e inside other opened => ?_
  exact ⟨e, (undisturbed e inside other).1, rfl, opened⟩

theorem along_closeFile (filename : CString) :
    Along (Spares others (· = (normalizeFilename filename).bytes)) (closeFile filename) :=
  fun _ _ _ run => sparing_operation (.closeFile filename) trivial run

/-- The entry that is replaced keeps its name and its flags. -/
theorem stays_set {i : Nat} {e' : Entry} (small : i < es.length) (named : e'.record.name = es[i].record.name)
    (opened : es[i].record.isOpen = true → e'.record.isOpen = true) : ∀ e ∈ es, e.record.isOpen = true →
      ∃ d ∈ es.set i e', d.record.name = e.record.name ∧ d.record.isOpen = true := by
  intro e inside opened'
  rcases (mem_entries small).mp inside with rfl | rest
  · exact ⟨e', (mem_set_entries small e').mpr (Or.inl rfl), named, opened opened'⟩
  · exact ⟨e, (mem_set_entries small e').mpr (Or.inr rest), rfl, opened'⟩

theorem appended_flags {disk disk' : ByteMemory} {e e' : Entry} {data : List UInt8} {bytes : Nat}
    (appended : Appended disk disk' e data bytes e') : e'.record.flags = e.record.flags := by
  cases appended with
  | stored => exact Record.flags_setSize _ _
  | refused => rfl

theorem inserted_flags {disk disk' : ByteMemory} {e e' : Entry} {buffer : List UInt8} {offset : Nat}
    (inserted : Inserted disk disk' e buffer offset e') : e'.record.flags = e.record.flags := by
  obtain ⟨cut, e1, cutDisk, midDisk, kept, record, _, _, _, _, _, first, second⟩ := inserted.steps
  rw [appended_flags second, appended_flags first, record]
  exact Record.flags_setSize _ _

/-- A write opens and closes no file. -/
theorem sparing_write {buffer : List UInt8} {offset : Nat}
    (ready : FileOperation.Ready s.disk (.write filename buffer offset))
    (run : write filename buffer offset s = .ok (res, s')) : Spares others target s s' := by
  rintro ⟨dir, es, lost, parked, catalog⟩
  have room : ∀ e ∈ es, e.record.name = (normalizeFilename filename).bytes →
      WriteReady (lowFree s.disk) e.record.size offset buffer.length e.data.length := by
    intro e inside named
    have member : e.record ∈ dirEntries s.disk := by
      rw [catalog_entries catalog]
      exact List.mem_map.mpr ⟨e, inside, rfl⟩
    have room := ready _ member named
    rwa [catalog_data catalog inside] at room
  obtain ⟨dir', es', lost', parked', catalog', kept, _, _, written⟩ :=
    completes_result (write_run filename buffer offset parked catalog room) run
  refine sparing_entries catalog parked' catalog' kept fun e inside _ opened => ?_
  have same : ∀ {i e'} (small : i < es.length), e'.record.name = es[i].record.name →
      e'.record.flags = es[i].record.flags →
      ∃ d ∈ es.set i e', d.record.name = e.record.name ∧ d.record.isOpen = true := by
    intro i e' small named flags
    refine stays_set small named ?_ e inside opened
    unfold Record.isOpen
    rw [flags]
    exact id
  cases written with
  | missing | beyond | refused => exact ⟨e, inside, rfl, opened⟩
  | appended found small last appended => exact same small (appended_name appended) (appended_flags appended)
  | inserted found small before room inserted => exact same small (inserted_name inserted) (inserted_flags inserted)

theorem sparing_touch (ready : FileOperation.Ready s.disk (.touch filename))
    (run : touch filename s = .ok (res, s')) : Spares others target s s' := by
  rintro ⟨dir, es, lost, parked, catalog⟩
  have room : position (normalizeFilename filename) es = none → CreateRoom (lowFree s.disk) es.length := by
    intro missing
    have room := ready (by rw [catalog_entries catalog]; exact (position_entries _).mp missing)
    rwa [catalog_files catalog] at room
  obtain ⟨dir', es', parked', catalog', kept, _, touched⟩ :=
    completes_result (touch_run filename parked catalog room) run
  refine sparing_entries catalog parked' catalog' kept fun e inside _ opened => ?_
  cases touched with
  | present => exact ⟨e, inside, rfl, opened⟩
  | created => exact ⟨e, List.mem_append_left _ inside, rfl, opened⟩

theorem isOpen_withFlag {e : Entry} {v : Bool} : (e.withFlag 0 v).record.isOpen = v := by
  show (e.record.setFlag 0 v).isOpen = v
  rw [Record.isOpen, Record.flags_setFlag, Record.flagBit_same (by decide)]

theorem flagChanged_found {i : Nat} {v : Bool} (found : position filename es = some i) : ∃ small : i < es.length,
    (es[i].withFlag 0 v).record.name = filename.bytes ∧
      flagChanged filename 0 v es = es.set i (es[i].withFlag 0 v) := by
  obtain ⟨small, named⟩ := position_some found
  refine ⟨small, (Record.name_setFlag _ _ _).trans named, ?_⟩
  simp only [flagChanged, found]
  rw [List.modify_eq_set_getElem?, List.getElem?_eq_getElem small]
  rfl

/-- The flag of the named file is set; without the file nothing is. -/
theorem flagChanged_opens : (∀ e ∈ es, e.record.isOpen = true → ∃ d ∈ flagChanged filename 0 true es,
      d.record.name = e.record.name ∧ d.record.isOpen = true) ∧
    (position filename es ≠ none → OpenIn filename (flagChanged filename 0 true es)) := by
  cases found : position filename es with
  | none =>
    simp only [flagChanged, found]
    exact ⟨fun e inside opened => ⟨e, inside, rfl, opened⟩, fun missing => absurd rfl missing⟩
  | some i =>
    obtain ⟨small, named, changed⟩ := flagChanged_found (v := true) found
    rw [changed]
    constructor
    · exact stays_set small (Record.name_setFlag _ _ _) fun _ => isOpen_withFlag
    · intro _
      exact ⟨_, (mem_set_entries small _).mpr (Or.inl rfl), named, isOpen_withFlag⟩

/-- No file is closed, and the file is open if the call returns 0. -/
theorem openFile_opens (run : openFile filename s = .ok (res, s')) (sound : Sound others s) :
    Sparing others target s s' ∧
      (res = 0 → (∃ r ∈ dirEntries s.disk, r.name = (normalizeFilename filename).bytes) →
        OpenOn s'.disk (normalizeFilename filename).bytes) := by
  obtain ⟨dir, es, lost, parked, catalog⟩ := sound
  obtain ⟨dir', es', parked', catalog', _, kept, result⟩ := completes_result (openFile_run filename parked catalog) run
  obtain ⟨stays, opens⟩ := @flagChanged_opens es (normalizeFilename filename)
  rcases result with ⟨_, refused, rfl⟩ | ⟨_, zero, rfl⟩
  · refine ⟨sparing_entries catalog parked' catalog' kept fun e inside _ opened => ⟨e, inside, rfl, opened⟩, ?_⟩
    intro zero
    omega
  · refine ⟨sparing_entries catalog parked' catalog' kept fun e inside _ opened => stays e inside opened, ?_⟩
    rintro - ⟨r, inside, named⟩
    refine (openOn_iff catalog').mpr (opens fun missing => ?_)
    rw [catalog_entries catalog] at inside
    exact (position_entries _).mp missing r inside named

/-- An open file is closed. -/
theorem closeFile_closes (run : closeFile filename s = .ok (res, s')) (sound : Sound others s)
    (opened : OpenOn s.disk (normalizeFilename filename).bytes) :
    res = 0 ∧ ¬ OpenOn s'.disk (normalizeFilename filename).bytes := by
  obtain ⟨dir, es, lost, parked, catalog⟩ := sound
  obtain ⟨dir', es', _, catalog', _, _, result⟩ := completes_result (closeFile_run filename parked catalog) run
  have opened := (openOn_iff catalog).mp opened
  rcases result with ⟨shut, _, _⟩ | ⟨_, zero, rfl⟩
  · exact absurd opened shut
  · refine ⟨zero, fun still => ?_⟩
    obtain ⟨e, inside, named, flag⟩ := (openOn_iff catalog').mp still
    obtain ⟨d, there, same, _⟩ := opened
    obtain ⟨i, found⟩ := Option.ne_none_iff_exists'.mp fun missing => (position_entries _).mp missing d.record
      (List.mem_map.mpr ⟨d, there, rfl⟩) same
    obtain ⟨small, here, changed⟩ := flagChanged_found (v := false) found
    have cleared : es[i].withFlag 0 false ∈ flagChanged (normalizeFilename filename) 0 false es := by
      rw [changed]
      exact (mem_set_entries small _).mpr (Or.inl rfl)
    obtain rfl : e = es[i].withFlag 0 false := entry_unique catalog'.names inside cleared (named.trans here.symm)
    rw [isOpen_withFlag] at flag
    cases flag

/-! ## The stdout files -/

/-- A system file that is no longer than the log, with the clusters that its size needs. -/
structure LogFile (disk : ByteMemory) (stdout : CString) (r : Record) : Prop where
  saved : r ∈ dirEntries disk
  named : r.name = (normalizeFilename stdout).bytes
  system : r.isSystem = true
  short : r.size ≤ maxShellFileSize
  clusters : (chainOf disk r.startCluster).length = max 1 (getClusterCountNeeded r.size) + 1

/-- The print does not start behind a full cluster, and there is room for it. -/
def PrintSafe (disk : ByteMemory) (stdout buffer : CString) (addNewline : Bool) : Prop :=
  ∃ r, LogFile disk stdout r ∧ PrintReady disk r.size buffer.bytes.length (lineEnd addNewline).length

theorem logFile_logged {stdout : CString} {r : Record} (parked : Parked s others)
    (catalog : Catalog s.disk dir es lost) (file : LogFile s.disk stdout r) :
    ∃ text, Logged s others stdout text ∧ text.length = r.size := by
  obtain ⟨saved, named, system, short, clusters⟩ := file
  rw [catalog_entries catalog] at saved
  obtain ⟨e, member, rfl⟩ := List.mem_map.mp saved
  obtain ⟨i, found⟩ := Option.ne_none_iff_exists'.mp fun missing =>
    (position_entries (normalizeFilename stdout)).mp missing e.record saved named
  obtain ⟨small, here⟩ := position_some found
  obtain rfl : es[i] = e := entry_unique catalog.names (List.getElem_mem small) member (here.trans named.symm)
  rw [catalog_file catalog member] at clusters
  have length : ((dataBytes s.disk es[i].data).take es[i].record.size).length = es[i].record.size := by
    have size64 : clusterSize = 64 := rfl
    rw [List.length_take, length_dataBytes, Entry.data, List.length_dropLast, clusters, size64]
    unfold getClusterCountNeeded
    rw [size64]
    split <;> omega
  refine ⟨_, .mk parked catalog found small ⟨?_, ?_, ?_⟩ system, length⟩
  · rw [length]
    exact clusters
  · exact length.symm
  · rw [length]

theorem sparing_logged {stdout : CString} {text : List UInt8} (logged : Logged s' others stdout text)
    (beside : Beside others stdout s s') : Sparing others (· = (normalizeFilename stdout).bytes) s s' := by
  obtain ⟨parked', catalog', _⟩ := logged
  refine ⟨⟨_, _, _, parked', catalog'⟩, beside.kept, ?_⟩
  rintro name other ⟨r, inside, rfl, opened⟩
  exact ⟨r, beside.records r inside other, rfl, opened⟩

/-- The file may be rotated. -/
theorem sparing_print {stdout buffer : CString} {addNewline : Bool}
    (safe : PrintSafe s.disk stdout buffer addNewline)
    (run : printToStream stdout buffer addNewline s = .ok ((), s')) :
    Spares others (· = (normalizeFilename stdout).bytes) s s' := by
  rintro ⟨dir, es, lost, parked, catalog⟩
  obtain ⟨r, file, ready⟩ := safe
  obtain ⟨text, logged, length⟩ := logFile_logged parked catalog file
  rw [← length] at ready
  have short := file.short
  rw [← length] at short
  obtain ⟨logged', beside⟩ := completes_result (printToStream_run logged short ready) run
  exact sparing_logged logged' beside

theorem sparing_terminalText {stdout : CString} {r : Record} (file : LogFile s.disk stdout r)
    (run : terminalText stdout s = .ok ((), s')) : Spares others target s s' := by
  intro sound
  have here := sound
  obtain ⟨dir, es, lost, parked, catalog⟩ := here
  obtain ⟨text, logged, length⟩ := logFile_logged parked catalog file
  have short := file.short
  rw [← length] at short
  obtain ⟨_, ⟨parked', _⟩, disk, kept⟩ := completes_result (terminalText_run logged short) run
  exact sparing_looked sound ⟨parked', disk, kept⟩

end

end Delos.Invariants
