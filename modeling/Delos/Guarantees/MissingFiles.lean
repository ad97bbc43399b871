import Delos.Guarantees.Copying
import Delos.Invariants.FileCalls

/-!
# Files that do not exist

`get_file` returns NULL for a missing file. Only `rm` uses that pointer before it looks for
the file; the others test it, or find the file first. A call that names a missing file fails
and leaves the files as they are, or creates it.
-/
namespace Delos.Guarantees
open Lib Source Invariants

/-- The files are the same, with the same bytes. -/
def Unchanged (disk disk' : ByteMemory) : Prop :=
  dirEntries disk' = dirEntries disk ∧ ∀ r ∈ dirEntries disk, contents disk' r = contents disk r

/-- One of the names is that of a missing file. -/
def NamesMissing (disk : ByteMemory) : FileCall → Prop
  | .openFile filename | .closeFile filename _ | .read filename _ _ _ | .write filename _ _ _
  | .touch filename | .cat filename | .rm filename | .fileAppend filename _ => Missing disk filename
  | .cp src des => Missing disk src ∨ Missing disk des

/-- The call fails and changes nothing; a file that is to be created may exist instead. -/
def Answers (disk disk' : ByteMemory) (res : Nat) : FileCall → Prop
  | .touch filename | .fileAppend filename _ => ¬ Missing disk' filename ∨ res ≠ 0 ∧ Unchanged disk disk'
  | .cp src des => ¬ Missing disk src ∧ ¬ Missing disk' des ∨ res ≠ 0 ∧ Unchanged disk disk'
  | _ => res ≠ 0 ∧ Unchanged disk disk'

/-- `rm` is called for an existing file; the free clusters suffice for what is created. -/
def SafeCall (disk : ByteMemory) : FileCall → Prop
  | .openFile _ | .closeFile _ _ | .read _ _ _ _ | .cat _ => True
  | .write filename buffer offset _ => FileOperation.Ready disk (.write filename buffer offset)
  | .touch filename => FileOperation.Ready disk (.touch filename)
  | .cp src des => FileOperation.Ready disk (.cp src des)
  | .rm filename => ¬ Missing disk filename ∧ FileOperation.Ready disk (.rm filename)
  | .fileAppend filename buffer =>
    (Missing disk filename → AppendRoom disk (dirEntries disk).length buffer.length) ∧
      ∀ r ∈ dirEntries disk, r.name = (normalizeFilename filename).bytes →
        AppendReady (lowFree disk) r.size buffer.length

/-- No pointer that is used is NULL, and a missing file is answered for. -/
structure Guarded (call : FileCall) (s : Fs) : Prop where
  same : call.tested s = call.run s
  tested : call.tested s ≠ .error .wildAccess
  answers : NamesMissing s.disk call → Completes call.run s fun res s' => Answers s.disk s'.disk res call

section
variable {start s : Fs} {ops : List FileOperation} {others : List (Nat × Nat)} {dir lost : List Nat}
  {es : List Entry} {filename : CString} {disk' : ByteMemory}

theorem guarded_of_tame (call : FileCall) (same : call.tested s = call.run s) (tame : Tame call.run s)
    (answers : NamesMissing s.disk call → Completes call.run s fun res s' => Answers s.disk s'.disk res call) :
    Guarded call s := by
  refine ⟨same, ?_, answers⟩
  rw [same]
  exact tame_access tame

theorem missing_position (catalog : Catalog s.disk dir es lost) :
    Missing s.disk filename ↔ position (normalizeFilename filename) es = none := by
  unfold Missing
  rw [catalog_entries catalog]
  exact (position_entries _).symm

theorem unchanged_same (same : disk' = s.disk) : Unchanged s.disk disk' := by
  rw [same]
  exact ⟨rfl, fun _ _ => rfl⟩

/-- The same entries with the same clusters. -/
theorem unchanged_catalog {dir' lost' : List Nat} (catalog : Catalog s.disk dir es lost)
    (catalog' : Catalog disk' dir' es lost') (same : SameOn (es.map Entry.cells).flatten s.disk disk') :
    Unchanged s.disk disk' := by
  have entries := catalog_entries catalog
  constructor
  · rw [entries, catalog_entries catalog']
  · intro r inside
    rw [entries] at inside
    obtain ⟨e, member, rfl⟩ := List.mem_map.mp inside
    rw [catalog_contents catalog member, catalog_contents catalog' member]
    congr 1
    exact dataBytes_congr fun c inner => same.bytes c (cells_subset member (List.dropLast_subset _ inner))

theorem whenKnown_guarded {call : FileCall} {x y : Kernel Nat} (listed : Bool)
    (catalog : Catalog s.disk dir es lost) (parked : Parked s others)
    (run : call.run = whenKnown filename listed y) (tested : call.tested = whenKnown filename listed x)
    (names : NamesMissing s.disk call ↔ Missing s.disk filename)
    (answer : ∀ disk' res, Answers s.disk disk' res call ↔ res ≠ 0 ∧ Unchanged s.disk disk')
    (same : position (normalizeFilename filename) es ≠ none → ∀ heap, Owned heap others →
      x { s with heap := heap, root := 0 } = y { s with heap := heap, root := 0 })
    (tame : position (normalizeFilename filename) es ≠ none → ∀ heap, Owned heap others →
      Tame y { s with heap := heap, root := 0 }) : Guarded call s := by
  apply guarded_of_tame call
  · rw [run, tested]
    exact whenKnown_agree listed parked catalog same
  · rw [run]
    exact whenKnown_tame parked catalog tame
  · intro missing
    rw [run]
    apply meets_mono (whenKnown_missing parked catalog ((missing_position catalog).mp (names.mp missing)))
    rintro res s' ⟨rfl, disk⟩
    exact (answer _ _).mpr ⟨Nat.one_ne_zero, unchanged_same disk⟩

theorem guarded_close {listed : Bool} (parked : Parked s others) (catalog : Catalog s.disk dir es lost) :
    Guarded (.closeFile filename listed) s := by
  cases listed with
  | false =>
    apply guarded_of_tame (.closeFile filename false) rfl (tame_pure 1)
    intro _
    exact meets_pure.mpr ⟨Nat.one_ne_zero, unchanged_same rfl⟩
  | true =>
    have closed := closeFile_run filename parked catalog
    apply guarded_of_tame (.closeFile filename true) (closeFile_agree parked catalog) (tame_of_completes closed)
    intro missing
    have absent := (missing_position catalog).mp missing
    apply meets_mono closed
    rintro res s' ⟨dir', es', _, catalog', same, _, ⟨_, rfl, rfl⟩ | ⟨⟨e, inside, named, _⟩, _⟩⟩
    · exact ⟨Nat.one_ne_zero, unchanged_catalog catalog catalog' same⟩
    · exact absurd named (position_none absent e inside)

theorem guarded_touch (parked : Parked s others) (catalog : Catalog s.disk dir es lost)
    (ready : FileOperation.Ready s.disk (.touch filename)) : Guarded (.touch filename) s := by
  have touched := touch_run filename parked catalog fun absent => by
    have room := ready ((missing_position catalog).mpr absent)
    rwa [catalog_entries catalog, List.length_map] at room
  apply guarded_of_tame (.touch filename) rfl (tame_of_completes touched)
  intro missing
  apply meets_mono touched
  rintro res s' ⟨dir', es', _, catalog', _, _, result⟩
  cases result with
  | present found => exact absurd ((missing_position catalog).mp missing) found
  | created absent eof new =>
    refine .inl fun gone => ?_
    exact position_none ((missing_position catalog').mp gone) _ (List.mem_append_right _ List.mem_cons_self) new.name

theorem guarded_rm (parked : Parked s others) (catalog : Catalog s.disk dir es lost)
    (present : ¬ Missing s.disk filename) (ready : FileOperation.Ready s.disk (.rm filename)) :
    Guarded (.rm filename) s := by
  have found : position (normalizeFilename filename) es ≠ none := fun absent =>
    present ((missing_position catalog).mpr absent)
  have removed := rm_run filename parked catalog fun e inside named free => by
    have fits := ready e.record (by
      rw [catalog_entries catalog]
      exact List.mem_map.mpr ⟨e, inside, rfl⟩) named free
    rwa [catalog_entries catalog, List.length_map] at fits
  apply guarded_of_tame (.rm filename) (rm_agree parked catalog found) (tame_of_completes removed)
  intro missing
  exact absurd missing present

theorem guarded_cp {src des : CString} (parked : Parked s others) (catalog : Catalog s.disk dir es lost)
    (ready : FileOperation.Ready s.disk (.cp src des)) : Guarded (.cp src des) s := by
  have fits : ∀ e ∈ es, e.record.name = (normalizeFilename src).bytes →
      normalizeFilename src ≠ normalizeFilename des →
        CopyReady (lowFree s.disk) e.data.length es (normalizeFilename des) := by
    intro e inside named different
    have fits := ready e.record (by
      rw [catalog_entries catalog]
      exact List.mem_map.mpr ⟨e, inside, rfl⟩) named different
    rw [catalog_data catalog inside] at fits
    exact copyReady_of_fits catalog fits
  have copied := cp_traced src des parked catalog fits
  apply guarded_of_tame (.cp src des) (cp_agree parked catalog fits) (tame_of_completes copied)
  intro missing
  by_cases gone : Missing s.disk src
  · apply meets_mono (cp_missing parked catalog ((missing_position catalog).mp gone))
    rintro res s' ⟨rfl, disk⟩
    exact .inr ⟨Nat.one_ne_zero, unchanged_same disk⟩
  · by_cases equal : normalizeFilename src = normalizeFilename des
    · apply meets_run (cp_same equal)
      exact .inr ⟨Nat.one_ne_zero, unchanged_same rfl⟩
    · apply meets_mono copied
      rintro res s' ⟨dir', es', lost', _, catalog', _, _, _, created, _⟩
      refine .inl ⟨gone, fun absent => ?_⟩
      obtain ⟨e', inside', named'⟩ := created
        (position_present.mp fun none => gone ((missing_position catalog).mpr none)) equal
      exact position_none ((missing_position catalog').mp absent) e' inside' named'

theorem guarded_fileAppend {buffer : List UInt8} (parked : Parked s others) (catalog : Catalog s.disk dir es lost)
    (ready : SafeCall s.disk (.fileAppend filename buffer)) : Guarded (.fileAppend filename buffer) s := by
  obtain ⟨room, fits⟩ := ready
  have entries := catalog_entries catalog
  rw [entries, List.length_map] at room
  cases here : position (normalizeFilename filename) es with
  | none =>
    have appended := fileAppend_missing buffer parked catalog here (room ((missing_position catalog).mpr here))
    apply guarded_of_tame (.fileAppend filename buffer) rfl (tame_of_completes appended)
    intro _
    apply meets_mono appended
    rintro res s' ⟨dir', es', lost', catalog', created | ⟨failed, rfl, same⟩⟩
    · exact .inl fun absent => created ((missing_position catalog').mp absent)
    · exact .inr ⟨failed, unchanged_catalog catalog catalog' same⟩
  | some i =>
    have found : position (normalizeFilename filename) es ≠ none := by
      rw [here]
      exact Option.some_ne_none i
    have appended := fileAppend_present buffer parked catalog found fun e inside named =>
      fits e.record (by
        rw [entries]
        exact List.mem_map.mpr ⟨e, inside, rfl⟩) named
    apply guarded_of_tame (.fileAppend filename buffer) rfl (tame_of_completes appended)
    intro missing
    exact absurd ((missing_position catalog).mp missing) found

/-! ## The guarantee -/

theorem missing_guarded (boot : Boot start) (run : Reaches (fun disk op => op.Ready disk) start ops s)
    (call : FileCall) (safe : SafeCall s.disk call) : Guarded call s := by
  obtain ⟨others, dir, es, lost, parked, catalog⟩ := reaches_catalog boot run
  have unloaded : ∀ {heap}, Owned heap others → Parked { s with heap := heap, root := 0 } others := fun owned =>
    .empty rfl owned
  cases call with
  | openFile filename =>
    apply whenKnown_guarded true catalog parked rfl rfl Iff.rfl fun _ _ => Iff.rfl
    · intro found heap owned
      exact openFile_agree (s := { s with heap := heap, root := 0 }) (unloaded owned) catalog found
    · intro _ heap owned
      exact tame_of_completes (openFile_run (s := { s with heap := heap, root := 0 }) filename (unloaded owned) catalog)
  | closeFile filename listed => exact guarded_close parked catalog
  | read filename offset len listed =>
    apply whenKnown_guarded listed catalog parked rfl rfl Iff.rfl fun _ _ => Iff.rfl
    · intro found heap owned
      apply bind_same
      exact read_agree (s := { s with heap := heap, root := 0 }) (unloaded owned) catalog found
    · intro found heap owned
      apply meets_call (read_tame (s := { s with heap := heap, root := 0 }) offset len (unloaded owned) catalog found)
      intro _ _ _
      exact tame_pure _
  | write filename buffer offset listed =>
    apply whenKnown_guarded listed catalog parked rfl rfl Iff.rfl fun _ _ => Iff.rfl
    · intro _ _ _
      rfl
    · intro _ heap owned
      apply tame_of_completes (write_run (s := { s with heap := heap, root := 0 }) filename buffer offset
        (unloaded owned) catalog ?_)
      intro e inside named
      have fits := safe e.record (by
        rw [catalog_entries catalog]
        exact List.mem_map.mpr ⟨e, inside, rfl⟩) named
      rwa [catalog_data catalog inside] at fits
  | touch filename => exact guarded_touch parked catalog safe
  | cat filename =>
    apply guarded_of_tame (.cat filename) rfl (cat_tame parked catalog)
    intro missing
    apply meets_mono (cat_missing parked catalog ((missing_position catalog).mp missing))
    rintro res s' ⟨rfl, disk⟩
    exact ⟨Nat.one_ne_zero, unchanged_same disk⟩
  | cp src des => exact guarded_cp parked catalog safe
  | rm filename => exact guarded_rm parked catalog safe.1 safe.2
  | fileAppend filename buffer => exact guarded_fileAppend parked catalog safe

end

/-- README.md is opened. -/
theorem missing_guarded_open : ∃ s, Guarded (.openFile readmeName) s := by
  obtain ⟨s, _, _, run, _⟩ := clear_step fun disk op => op.Ready disk
  exact ⟨s, missing_guarded boot_clear run (.openFile readmeName) trivial⟩

/-- The system flag of a file that does not exist is read. -/
theorem missing_guarded_rm : ¬ ∀ start s ops call, Boot start → Reaches (fun _ _ => True) start ops s →
    Guarded call s := by
  intro claim
  have holds : endsWith (fun s => stopsWith .wildAccess ((FileCall.rm copyName).tested s)) (clearRun []) = true := by
    rw [clearRun_ready]
    decide +kernel
  obtain ⟨s, run, stops⟩ := endsWith_iff.mp holds
  have guarded := claim clearBoot s [] (.rm copyName) boot_clear (clearRun_init run)
  exact guarded.tested (stopsWith_iff.mp stops)

end Delos.Guarantees
