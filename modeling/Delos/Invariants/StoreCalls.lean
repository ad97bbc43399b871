import Delos.Invariants.StoreSteps

/-!
# Calls of the store

The calls that only read leave the store as it is. With the operations they are a simulation of
the machine, which starts behind `fs_init` with the default files.
-/
namespace Delos.Invariants
open Lib Source

section
variable {α : Type} {s s' : Fs} {others : List (Nat × Nat)} {dir lost : List Nat} {es : List Entry} {e : Entry} {σ : Store}
  {filename : CString} {offset len : Nat} {x : Kernel Nat}

/-! ## Reading -/

theorem shows_looked (shows : Shows others s σ) (looked : Looked others s s') : Shows others s' σ := by
  obtain @⟨dir, es, parked, catalog, catalogued⟩ := shows
  have disk := looked.disk
  exact ⟨looked.parked, by rwa [disk], by rwa [disk]⟩

theorem shows_reads {x : Kernel α} {post : α → Fs → Prop} (shows : Shows others s σ) (looks : Along (Looks others) x)
    (value : Completes x s post) : Completes x s fun a s' => post a s' ∧ Shows others s' σ := by
  apply meets_mono (meets_traced value)
  rintro a s' ⟨run, here⟩
  have sound : Sound others s := by
    obtain @⟨dir, es, parked, catalog, _⟩ := shows
    exact ⟨dir, es, [], parked, catalog⟩
  exact ⟨here, shows_looked shows (looks s a s' run sound)⟩

variable (filename) in
theorem shows_fileExists (shows : Shows others s σ) :
    Completes (Source.fileExists filename) s fun known s' =>
      known = (σ.find (normalizeFilename filename).bytes).isSome ∧ Shows others s' σ := by
  apply shows_reads shows (along_fileExists filename)
  obtain @⟨dir, es, parked, catalog, catalogued⟩ := shows
  apply meets_mono (fileExists_run filename parked catalog)
  rintro known s' ⟨_, _, _, _, rfl⟩
  cases found : position (normalizeFilename filename) es with
  | none =>
    rw [catalogued_missing catalogued found]
    rfl
  | some i =>
    obtain ⟨small, _⟩ := position_some found
    rw [catalogued_find catalogued found small]
    rfl

variable (filename) in
theorem shows_getFileSize (shows : Shows others s σ) :
    Completes (Source.getFileSize filename) s fun size s' =>
      size = Store.fileSize σ (normalizeFilename filename).bytes ∧ Shows others s' σ := by
  apply shows_reads shows (along_getFileSize filename)
  obtain @⟨dir, es, parked, catalog, catalogued⟩ := shows
  unfold Store.fileSize
  cases found : position (normalizeFilename filename) es with
  | none =>
    apply meets_mono (getFileSize_missing parked catalog found)
    rintro size s' ⟨rfl, _⟩
    rw [catalogued_missing catalogued found]
    rfl
  | some i =>
    obtain ⟨small, _⟩ := position_some found
    apply meets_mono (getFileSize_run filename parked catalog found small)
    rintro size s' ⟨_, _, _, _, rfl⟩
    rw [catalogued_find catalogued found small]
    exact (length_content (catalogued.tight _ (List.getElem_mem small))).symm

/-- A file of the store can be read whatever the rest of the disk is like. -/
theorem catalogued_stored (catalog : Catalog s.disk dir es lost) (catalogued : Catalogued s.disk es σ) (inside : e ∈ es)
    (named : e.record.name = (normalizeFilename filename).bytes) : StoredFile s.disk filename e.record := by
  apply catalog_stored catalog inside named
  rw [length_data, catalogued.tight e inside]
  exact Nat.le_max_right _ _

variable (filename offset len) in
theorem shows_read {f : File} (shows : Shows others s σ) (found : σ.find (normalizeFilename filename).bytes = some f)
    (fits : (StoreCall.read filename offset len).FitsFile σ.free f) :
    Completes (Source.read filename offset len) s fun p s' =>
      p.2 = Store.read σ (normalizeFilename filename).bytes offset len ∧ Shows others s' σ := by
  apply shows_reads shows (along_read filename offset len)
  obtain @⟨dir, es, parked, catalog, catalogued⟩ := shows
  obtain ⟨inside, named⟩ := Keyed.find_iff.mp found
  rw [catalogued.files] at inside
  obtain ⟨e, member, rfl⟩ := List.mem_map.mp inside
  clear inside
  have stored := catalogued_stored catalog catalogued member named
  have size : (e.content s.disk).length = e.record.size := length_content (catalogued.tight e member)
  have word := Record.size_lt e.record
  unfold StoreCall.FitsFile at fits
  unfold Store.read
  rw [found]
  simp only [Entry.file, size] at fits ⊢
  rcases fits with range | beyond
  · apply meets_mono (readStored_run parked stored range)
    rintro p s' ⟨_, _, _, _, bytes⟩
    rw [bytes, Nat.mod_eq_of_lt (by omega), if_neg (by omega), catalog_contents catalog member]
    rfl
  · apply meets_mono (readStored_refused parked stored beyond).1
    rintro p s' rfl
    rw [if_pos beyond]

/-! ## Printing -/

theorem printed_run {post : Nat × List UInt8 → Fs → Prop} (meets : Completes x s fun res s' =>
      post (res, (s'.screen.drop s.screen.length).flatMap ScreenCall.text) s') : Completes (printed x) s post := by
  unfold printed
  rw [Completes, meets_bind, meets_get, meets_bind]
  apply meets_mono meets
  intro res s' here
  rw [meets_bind, meets_get, meets_pure]
  exact here

theorem cat_absent (parked : Parked s others) (catalog : Catalog s.disk dir es lost)
    (missing : position (normalizeFilename filename) es = none) :
    Completes (Source.cat filename) s fun res s' => res = 1 ∧ s'.screen = s.screen ++ [.kprintf "file not found\n\r"] := by
  unfold Source.cat
  apply meets_call (loadCatalog_run parked catalog)
  rintro _ _ ⟨heap, root, files, rfl, loaded, _⟩
  have search := getFile_run loaded.folder (normalizeFilename_short filename)
  rw [findIdx_record, missing] at search
  rw [meets_next search, filePointer, if_pos rfl]
  let shown := s.screen ++ [.kprintf "file not found\n\r"]
  have printed : emit (.kprintf "file not found\n\r") { s with heap := heap, root := root } =
      .ok ((), { s with heap := heap, root := root, screen := shown }) := rfl
  obtain ⟨freed, discard, _⟩ := freeRootDir_loaded (s := { s with heap := heap, root := root, screen := shown })
    ⟨loaded.owned, loaded.count, loaded.pointer, loaded.holds⟩
  rw [meets_next printed, meets_next discard]
  exact meets_pure.mpr ⟨rfl, rfl⟩

theorem flatMap_text (texts : List (List UInt8)) :
    (texts.map ScreenCall.kprintfBytes).flatMap ScreenCall.text = texts.flatten := by
  rw [List.flatMap_map]
  exact List.flatMap_id

variable (filename) in
theorem shows_cat (shows : Shows others s σ) (fits : (StoreCall.cat filename).Fits σ) :
    Completes (printed (Source.cat filename)) s fun p s' =>
      p = Store.cat σ (normalizeFilename filename).bytes ∧ Shows others s' σ := by
  apply printed_run
  apply shows_reads shows (along_cat filename)
  obtain @⟨dir, es, parked, catalog, catalogued⟩ := shows
  have key : (StoreCall.cat filename).key = (normalizeFilename filename).bytes := rfl
  unfold StoreCall.Fits at fits
  rw [key] at fits
  unfold Store.cat
  cases found : position (normalizeFilename filename) es with
  | none =>
    rw [catalogued_missing catalogued found]
    apply meets_mono (cat_absent parked catalog found)
    rintro res s' ⟨rfl, screen⟩
    rw [screen, List.drop_left]
    simp [ScreenCall.text]
  | some i =>
    obtain ⟨small, named⟩ := position_some found
    have inside := List.getElem_mem small
    rw [catalogued_find catalogued found small] at fits ⊢
    have noNul : 0 ∉ contents s.disk es[i].record := by
      rw [catalog_contents catalog inside]
      exact fits
    apply meets_mono (catStored_run parked (catalogued_stored catalog catalogued inside named) noNul).1
    rintro res s' ⟨heap, texts, rfl, _, rfl, bytes, _⟩
    simp only [List.drop_left]
    rw [flatMap_text, bytes, catalog_contents catalog inside]
    rfl

/-! ## The default files -/

theorem shows_appendData {i : Nat} (buffer : List UInt8) (short : filename.bytes.length < fileNameLen)
    (parked : Parked s others) (catalog : Catalog s.disk dir es []) (catalogued : Catalogued s.disk es σ)
    (found : position filename es = some i) (small : i < es.length) (aligned : InCluster es[i].record.size buffer.length)
    (room : appendNeed es[i].record.size buffer.length ≤ lowFree s.disk) :
    Completes (appendData filename (.user buffer) buffer.length) s fun _ s' =>
      Shows others s' (Store.splice σ filename.bytes es[i].record.size buffer) := by
  obtain ⟨_, named⟩ := position_some found
  have inside := List.getElem_mem small
  apply meets_mono (appendData_run buffer (.user buffer) parked catalog short found small buffer.length rfl
    (Nat.min_le_left _ _) (fun _ => Nat.le_refl _) (.inl room))
  rintro _ s' ⟨dir', e', parked', catalog', _, same, appended⟩
  obtain ⟨file, tight⟩ := file_appended (catalogued.tight _ inside) aligned room (catalog_bounds catalog inside) appended
  exact ⟨parked', catalog', catalogued_change catalogued catalog.names small named (undisturbed_set small named same e')
    file tight fun _ => rfl⟩

theorem shows_createDefaultFile (text : List UInt8) (shows : Shows others s σ) (short : filename.bytes.length < fileNameLen)
    (fresh : σ.find filename.bytes = none) (room : CreateRoom σ.free σ.items.length)
    (fits : appendNeed 0 text.length ≤ Store.free (σ.add ⟨filename.bytes, [], false, false⟩ fresh)) :
    Completes (createDefaultFile filename text) s fun _ s' =>
      Shows others s' (σ.add ⟨filename.bytes, text, false, false⟩ fresh) := by
  have normal := normalizeFilename_of_short short
  have touched := shows_touch filename shows fun _ => room
  rw [normal, Store.touch, dif_pos fresh] at touched
  unfold createDefaultFile
  apply meets_call touched
  rintro _ s' ⟨_, shows'⟩
  obtain @⟨dir, es, parked, catalog, catalogued⟩ := shows'
  have added : (σ.add ⟨filename.bytes, [], false, false⟩ fresh).find filename.bytes =
      some ⟨filename.bytes, [], false, false⟩ := Keyed.find_add fresh
  cases found : position filename es with
  | none => exact absurd ((catalogued_missing catalogued found).symm.trans added) (by simp)
  | some i =>
    obtain ⟨small, _⟩ := position_some found
    have new := Option.some.inj ((catalogued_find catalogued found small).symm.trans added)
    have empty : es[i].record.size = 0 := by
      rw [← show (es[i].content s'.disk).length = _ from length_content (catalogued.tight _ (List.getElem_mem small))]
      exact congrArg (fun f : File => f.content.length) new
    have appended := shows_appendData text short parked catalog catalogued found small (.inr (.inl empty)) (by
      rw [empty, catalogued_free catalog catalogued]
      exact fits)
    have whole : Store.splice (σ.add ⟨filename.bytes, [], false, false⟩ fresh) filename.bytes es[i].record.size text =
        σ.add ⟨filename.bytes, text, false, false⟩ fresh := by
      refine (Keyed.change_add (v := (⟨filename.bytes, [], false, false⟩ : File)) fresh).trans (Keyed.ext ?_)
      simp [File.splice, empty]
    rwa [whole] at appended

/-- `README.md`, `ascii.txt` and `primes.dat` -/
def defaultStore : Store where
  items := [⟨readmeName.bytes, readmeText, false, false⟩, ⟨asciiName.bytes, asciiText, false, false⟩,
    ⟨primesName.bytes, primesText, false, false⟩]
  unique := by decide +kernel

theorem shows_createDefaultFiles (parked : Parked s others) (catalog : Catalog s.disk dir [] []) :
    Completes createDefaultFiles s fun _ s' => Shows others s' defaultStore := by
  let none : Store := ⟨[], List.nodup_nil⟩
  have start : Shows others s none := ⟨parked, catalog, rfl, fun _ inside => absurd inside List.not_mem_nil, Nat.zero_le 6⟩
  unfold createDefaultFiles
  apply meets_call (shows_createDefaultFile readmeText start (by decide) rfl (by decide +kernel) (by decide +kernel))
  intro _ s1 shows1
  apply meets_call (shows_createDefaultFile asciiText shows1 (by decide) (by decide +kernel) (by decide +kernel)
    (by decide +kernel))
  intro _ s2 shows2
  exact shows_createDefaultFile primesText shows2 (by decide) (by decide +kernel) (by decide +kernel)
    (by decide +kernel)

theorem shows_fsInit {call : Kernel Nat} (init : call = fsInit) (owned : Owned s.heap others)
    (mapped : s.disk.origin ≤ fsStartAddr) : Completes call s fun _ s' => Shows others s' defaultStore := by
  apply meets_mono (fsInit_empty init owned mapped fun s' dir parked catalog _ => shows_createDefaultFiles parked catalog)
  exact fun _ _ both => both.2

/-! ## The simulation -/

theorem silent_run {p : Nat × Store} (meets : Completes x s fun res s' => res = p.1 ∧ Shows others s' p.2) :
    Completes (silent x) s fun a s' => a = (p.1, []) ∧ Shows others s' p.2 := by
  apply meets_call meets
  rintro res s' ⟨rfl, shows⟩
  exact meets_pure.mpr ⟨rfl, shows⟩

/-- One case for every call. -/
theorem store_simulates : Simulates (fun e => e = Stop.outOfMemory) StoreCall.run storeMachine (Shows others) := by
  intro s σ call shows fits
  cases call with
  | touch filename =>
    apply silent_run
    apply shows_touch filename shows
    intro missing
    have room : (StoreCall.touch filename).Fits σ := fits
    unfold StoreCall.Fits at room
    rw [show (StoreCall.touch filename).key = (normalizeFilename filename).bytes from rfl, missing] at room
    exact room
  | rm filename => exact silent_run (shows_rm filename shows)
  | deleteSystemFile filename => exact silent_run (shows_deleteSystemFile filename shows)
  | openFile filename => exact silent_run (shows_openFile filename shows)
  | closeFile filename => exact silent_run (shows_closeFile filename shows)
  | setAsSystemFile filename => exact silent_run (shows_setAsSystemFile filename shows)
  | write filename buffer offset =>
    apply silent_run
    apply shows_write filename buffer offset shows
    intro f found
    have room : (StoreCall.write filename buffer offset).Fits σ := fits
    unfold StoreCall.Fits at room
    rw [show (StoreCall.write filename buffer offset).key = (normalizeFilename filename).bytes from rfl, found] at room
    exact room
  | fileExists filename =>
    apply meets_call (shows_fileExists filename shows)
    rintro known s' ⟨rfl, shows'⟩
    exact meets_pure.mpr ⟨rfl, shows'⟩
  | getFileSize filename => exact silent_run (p := (_, σ)) (shows_getFileSize filename shows)
  | read filename offset len =>
    have room : (StoreCall.read filename offset len).Fits σ := fits
    unfold StoreCall.Fits at room
    rw [show (StoreCall.read filename offset len).key = (normalizeFilename filename).bytes from rfl] at room
    cases found : σ.find (normalizeFilename filename).bytes with
    | none =>
      rw [found] at room
      exact room.elim
    | some f =>
      rw [found] at room
      apply meets_call (shows_read filename offset len shows found room)
      rintro p s' ⟨bytes, shows'⟩
      exact meets_pure.mpr ⟨congrArg (Prod.mk 0) bytes, shows'⟩
  | cat filename => exact shows_cat filename shows fits

end

end Delos.Invariants
