import Delos.Invariants.OpenFiles
import Delos.Source.Scheduler
import Delos.Source.Syscalls

/-!
# The names of open files

A process that opens a file keeps its name in a block of the kernel heap. The block is the
owner's: the file system leaves it alone, and the name in it is short.
-/
namespace Delos.Invariants
open Lib Source

/-- The block holds the name, with a NUL behind it. -/
structure NameAt (heap : ByteMemory) (a : Nat) (name : CString) : Prop where
  short : name.bytes.length < fileNameLen
  text : upToNul (heap.readBytes a fileNameLen) = name.bytes

def nameBlocks (names : List Nat) : List (Nat × Nat) := names.map fun a => (a, fileNameLen)

/-- The file system between two calls, and the blocks of the names. -/
structure Filed (names : List Nat) (s : Fs) : Prop where
  sound : Sound (nameBlocks names) s
  named : ∀ a ∈ names, ∃ name, NameAt s.heap a name

section
variable {s s' : Fs} {names rest : List Nat} {a : Nat} {name other : CString} {heap heap' : ByteMemory}
  {others : List (Nat × Nat)} {target : List UInt8 → Prop}

theorem nameAt_unique (first : NameAt heap a name) (second : NameAt heap a other) : name = other := by
  have same := first.text.symm.trans second.text
  cases name
  cases other
  simpa using same

theorem mem_nameBlocks (inside : a ∈ names) : (a, fileNameLen) ∈ nameBlocks names :=
  List.mem_map.mpr ⟨a, inside, rfl⟩

theorem nameAt_kept (kept : Kept (nameBlocks names) heap heap') (inside : a ∈ names) :
    NameAt heap' a name ↔ NameAt heap a name := by
  have bytes := kept_readBytes 0 fileNameLen kept (mem_nameBlocks inside) (Nat.zero_add _).le
  rw [Nat.add_zero] at bytes
  constructor
  · rintro ⟨short, text⟩
    exact ⟨short, by rwa [bytes] at text⟩
  · rintro ⟨short, text⟩
    exact ⟨short, by rwa [bytes]⟩

theorem filed_kept (filed : Filed names s) (sound : Sound (nameBlocks names) s')
    (kept : Kept (nameBlocks names) s.heap s'.heap) : Filed names s' := by
  refine ⟨sound, fun a inside => ?_⟩
  obtain ⟨name, named⟩ := filed.named a inside
  exact ⟨name, (nameAt_kept kept inside).mpr named⟩

theorem parked_owned (parked : Parked s others) : ∃ live, Owned s.heap live ∧ others ⊆ live := by
  cases parked with
  | empty none owned => exact ⟨others, owned, fun _ inside => inside⟩
  | folder files size owned pointer =>
    exact ⟨_, owned, fun _ inside => List.mem_cons_of_mem _ (List.mem_cons_of_mem _ inside)⟩

theorem filed_bounds (filed : Filed names s) (inside : a ∈ names) :
    kernelHeap.addr ≤ a ∧ a + fileNameLen ≤ fsStartAddr := by
  obtain ⟨_, _, _, parked, _⟩ := filed.sound
  obtain ⟨live, owned, more⟩ := parked_owned parked
  exact owned_bounds owned (more (mem_nameBlocks inside))

/-! ## Reading -/

theorem readString_run {n : Nat} (bound a : Nat) (low : kernelHeap.addr ≤ a) (high : a + n ≤ fsStartAddr)
    (enough : n ≤ bound) (short : (upToNul (s.heap.readBytes a n)).length < n) :
    readString bound a s = .ok (upToNul (s.heap.readBytes a n), s) := by
  induction n generalizing bound a with
  | zero => exact absurd short (Nat.not_lt_zero _)
  | succ n ih =>
    obtain ⟨bound, rfl⟩ : ∃ left, bound = left + 1 := ⟨bound - 1, by omega⟩
    have read : readMemory a 1 s = .ok ([s.heap.readByte a], s) := readHeap_run low (by omega)
    rw [ByteMemory.readBytes, upToNul, List.takeWhile_cons] at short ⊢
    rw [readString, run_bind read]
    by_cases zero : s.heap.readByte a = 0
    · simp [zero]
      rfl
    · have other : [s.heap.readByte a] ≠ [0] := fun same => zero (List.cons.inj same).1
      have shorter : (upToNul (s.heap.readBytes (a + 1) n)).length < n := by
        rw [if_pos (decide_eq_true zero), List.length_cons] at short
        exact Nat.lt_of_succ_lt_succ short
      have tail := ih bound (a + 1) (by omega) (by omega) (by omega) shorter
      rw [if_pos (decide_eq_true zero), if_neg other, run_bind tail]
      rfl

theorem storedName_run (filed : Filed names s) (inside : a ∈ names) (named : NameAt s.heap a name) :
    storedName a s = .ok (name, s) := by
  obtain ⟨low, high⟩ := filed_bounds filed inside
  have text := named.text
  have short := named.short
  rw [← text] at short
  have read := readString_run wordModulus a low high (by decide) short
  unfold storedName
  rw [run_bind read, dif_pos (by rw [text]; exact name.plain)]
  simp only [text]
  rfl

/-- `list_contains` compares the string with each name in turn. -/
theorem openFilesContain_run (filename : CString) {addresses : List Nat} (filed : Filed names s)
    (inside : addresses ⊆ names) :
    ∃ known, openFilesContain filename addresses s = .ok (known, s) ∧
      (known = true ↔ ∃ a ∈ addresses, NameAt s.heap a filename) := by
  induction addresses with
  | nil => exact ⟨false, rfl, by simp⟩
  | cons a addresses ih =>
    have here := inside List.mem_cons_self
    obtain ⟨name, named⟩ := filed.named a here
    obtain ⟨known, run, found⟩ := ih fun b member => inside (List.mem_cons_of_mem _ member)
    rw [openFilesContain, run_bind (storedName_run filed here named)]
    by_cases same : name = filename
    · subst same
      rw [if_pos rfl]
      exact ⟨true, rfl, by simpa using Or.inl named⟩
    · rw [if_neg same]
      refine ⟨known, run, found.trans ?_⟩
      have different : ¬ NameAt s.heap a filename := fun other => same (nameAt_unique named other)
      simp [different]

/-! ## Freeing -/

theorem filed_perm {names' : List Nat} (filed : Filed names s) (perm : names.Perm names') : Filed names' s := by
  obtain ⟨⟨dir, es, lost, parked, catalog⟩, named⟩ := filed
  have blocks : (nameBlocks names).Perm (nameBlocks names') := perm.map _
  refine ⟨⟨dir, es, lost, ?_, catalog⟩, fun a inside => named a (perm.mem_iff.mpr inside)⟩
  cases parked with
  | empty none owned => exact .empty none (owned_perm owned blocks)
  | folder files size owned pointer => exact .folder files size (owned_perm owned ((blocks.cons _).cons _)) pointer

/-- The block of a name is given back. -/
theorem filed_kfree (filed : Filed (a :: names) s) (run : kfree a s = .ok ((), s')) :
    Filed names s' ∧ Kept (nameBlocks names) s.heap s'.heap ∧ s'.disk = s.disk := by
  obtain ⟨⟨dir, es, lost, parked, catalog⟩, named⟩ := filed
  obtain ⟨heap, freed, parked', kept⟩ := kfree_parked parked
  cases freed.symm.trans run
  refine ⟨⟨⟨dir, es, lost, parked', catalog⟩, fun b inside => ?_⟩, kept, rfl⟩
  obtain ⟨name, here⟩ := named b (List.mem_cons_of_mem _ inside)
  exact ⟨name, (nameAt_kept kept inside).mpr here⟩

/-- The names of a process are freed, and the files of these names are closed. -/
theorem closeOpenFiles_run (filed : Filed (names ++ rest) s) (run : closeOpenFiles names s = .ok ((), s')) :
    Filed rest s' ∧ Kept (nameBlocks rest) s.heap s'.heap ∧
      ∀ name : CString, (∀ a ∈ names, ¬ NameAt s.heap a name) → OpenOn s.disk name.bytes →
        OpenOn s'.disk name.bytes := by
  induction names generalizing s with
  | nil =>
    cases run
    exact ⟨filed, kept_refl, fun _ _ opened => opened⟩
  | cons a names ih =>
    obtain ⟨name, here⟩ := filed.named a List.mem_cons_self
    have close : (closeFile name >>= fun _ => kfree a >>= fun _ => closeOpenFiles names) s = .ok ((), s') := by
      have read := storedName_run filed List.mem_cons_self here
      rw [closeOpenFiles, run_bind read] at run
      exact run
    cases closed : closeFile name s with
    | error e =>
      rw [run_stop closed] at close
      cases close
    | ok p =>
      rw [run_bind closed] at close
      have sparing := along_closeFile name s p.1 p.2 closed filed.sound
      have filed1 := filed_kept filed sparing.sound sparing.kept
      have free : kfree a p.2 = .ok ((), { p.2 with heap := heapFree kernelHeap a p.2.heap }) := rfl
      rw [run_bind free] at close
      obtain ⟨filed2, kept2, disk2⟩ := filed_kfree filed1 free
      obtain ⟨filed3, kept3, opened3⟩ := ih filed2 close
      have keptMore : Kept (nameBlocks (names ++ rest)) s.heap (heapFree kernelHeap a p.2.heap) :=
        kept_trans (kept_tail sparing.kept) kept2
      have keptRest : Kept (nameBlocks rest) s.heap (heapFree kernelHeap a p.2.heap) := fun region inside =>
        keptMore region (by rw [nameBlocks, List.map_append]; exact List.mem_append_right _ inside)
      refine ⟨filed3, kept_trans keptRest kept3, fun other elsewhere opened => ?_⟩
      apply opened3 other
      · intro b inside named
        have member : b ∈ names ++ rest := List.mem_append_left _ inside
        exact elsewhere b (List.mem_cons_of_mem _ inside) ((nameAt_kept keptMore member).mp named)
      · rw [disk2]
        refine sparing.opened other.bytes ?_ opened
        rw [normalizeFilename_of_short here.short]
        intro same
        have equal : other = name := by
          cases other
          cases name
          simpa using same
        rw [equal] at elsewhere
        exact elsewhere a List.mem_cons_self here

/-! ## A new name -/

theorem kmalloc_parked {n : Nat} (parked : Parked s others) (request : n + blockHeaderSize < wordModulus) :
    Completes (kmalloc n) s fun p s' => Parked s' ((p, n) :: others) ∧ Kept others s.heap s'.heap ∧
      s'.disk = s.disk := by
  cases parked with
  | empty none owned =>
    apply meets_mono (completes_kmalloc owned request)
    rintro p _ ⟨heap, rfl, owned', kept⟩
    exact ⟨.empty none owned', kept, rfl⟩
  | folder files size owned pointer =>
    apply meets_mono (completes_kmalloc owned request)
    rintro p _ ⟨heap, rfl, owned', kept⟩
    have root := root_kept (kept_tail kept)
    refine ⟨.folder files size (owned_perm owned' ?_) (root.2.trans pointer), kept_tail (kept_tail kept), rfl⟩
    exact (List.Perm.swap _ _ _).trans ((List.Perm.swap _ _ _).cons _)

/-- A store into the block at the head. -/
theorem parked_store {p n : Nat} {bytes : List UInt8} (parked : Parked s ((p, n) :: others))
    (inside : bytes.length ≤ n) :
    Parked { s with heap := s.heap.writeBytes p bytes } ((p, n) :: others) ∧
      Kept others s.heap (s.heap.writeBytes p bytes) := by
  have fits : 0 + bytes.length ≤ n := by omega
  cases parked with
  | empty none owned =>
    exact ⟨.empty none (owned_writeBytes owned List.mem_cons_self fits), kept_writeBytes owned fits⟩
  | folder files size owned pointer =>
    have front : List.Perm ((files, size) :: (s.root, folderSize) :: (p, n) :: others)
        ((p, n) :: (files, size) :: (s.root, folderSize) :: others) :=
      ((List.Perm.swap _ _ _).cons _).trans (List.Perm.swap _ _ _)
    have owned' := owned_perm owned front
    have kept : Kept ((files, size) :: (s.root, folderSize) :: others) s.heap (s.heap.writeBytes p bytes) :=
      kept_writeBytes owned' fits
    have root := root_kept (kept_tail kept)
    have written : Owned (s.heap.writeBytes p bytes) ((p, n) :: (files, size) :: (s.root, folderSize) :: others) :=
      owned_writeBytes owned' List.mem_cons_self fits
    exact ⟨.folder files size (owned_perm written front.symm) (root.2.trans pointer),
      kept_tail (kept_tail kept)⟩

/-- A store that begins in the kernel heap. -/
theorem writeMemory_heap {bytes : List UInt8} (low : kernelHeap.addr ≤ a) (high : a < fsStartAddr)
    (run : writeMemory a bytes s = .ok ((), s')) : s' = { s with heap := s.heap.writeBytes a bytes } := by
  have page : ¬ a + bytes.length ≤ pageSize := by
    have : pageSize < kernelHeap.addr := by decide
    omega
  unfold writeMemory at run
  rw [if_neg page] at run
  split at run
  next =>
    cases run
    rfl
  next =>
    rw [if_neg (by omega)] at run
    cases run

/-- The second terminator changes nothing if the byte behind the block is 0. -/
theorem copied_once {n : Nat} (exact : name.bytes.length + 1 = n) (zero : heap.readByte (a + n) = 0) :
    heap.writeBytes a (name.bytes ++ [0, 0]) = heap.writeBytes a (name.bytes ++ [0]) := by
  have split : name.bytes ++ [0, 0] = (name.bytes ++ [0]) ++ [0] := by simp
  have length : (name.bytes ++ [0]).length = n := by simpa using exact
  have last : ((heap.writeBytes a (name.bytes ++ [0])).readBytes (a + n) 1) = [0] := by
    rw [ByteMemory.readBytes, ByteMemory.readBytes,
      ByteMemory.readByte_writeBytes_outside _ _ _ _ (Or.inr (by rw [length])), zero]
  have same := ByteMemory.writeBytes_readBytes 1 (heap.writeBytes a (name.bytes ++ [0])) (a + n)
  rw [last] at same
  rw [split, ByteMemory.writeBytes_append, length]
  exact same

/-- A new block gets the name. -/
theorem remember_run {s1 : Fs} (filed : Filed names s) (short : name.bytes.length < fileNameLen)
    (alloc : kmalloc fileNameLen s = .ok (a, s1))
    (harmless : name.bytes.length + 2 ≤ fileNameLen ∨ s1.heap.readByte (a + fileNameLen) = 0)
    (copy : strcpy a name s1 = .ok ((), s')) :
    Filed (a :: names) s' ∧ NameAt s'.heap a name ∧ Kept (nameBlocks names) s.heap s'.heap ∧ s'.disk = s.disk := by
  obtain ⟨⟨dir, es, lost, parked, catalog⟩, named⟩ := filed
  obtain ⟨parked1, kept1, disk1⟩ := completes_result (kmalloc_parked parked (by decide)) alloc
  obtain ⟨live, owned, more⟩ := parked_owned parked1
  have member : (a, fileNameLen) ∈ live := more List.mem_cons_self
  obtain ⟨low, high⟩ := owned_bounds owned member
  have inBlock : a < fsStartAddr := by
    have : fileNameLen = 16 := rfl
    omega
  unfold strcpy at copy
  rw [if_neg (owned_nonzero owned member)] at copy
  obtain rfl := writeMemory_heap low inBlock copy
  obtain ⟨rest, bytes, fits⟩ : ∃ rest, s1.heap.writeBytes a (name.bytes ++ [0, 0]) =
      s1.heap.writeBytes a (name.bytes ++ 0 :: rest) ∧ (name.bytes ++ 0 :: rest).length ≤ fileNameLen := by
    by_cases inside : name.bytes.length + 2 ≤ fileNameLen
    · exact ⟨[0], rfl, by simpa using inside⟩
    · have length : name.bytes.length + 1 = fileNameLen := by omega
      exact ⟨[], copied_once length (harmless.resolve_left inside), by simpa using length.le⟩
  rw [bytes]
  obtain ⟨parked2, kept2⟩ := parked_store parked1 fits
  have kept := kept_trans kept1 kept2
  have here : NameAt (s1.heap.writeBytes a (name.bytes ++ 0 :: rest)) a name := by
    refine ⟨short, ?_⟩
    have text := ByteMemory.readBytes_writeBytes_within (name.bytes ++ 0 :: rest) s1.heap a 0 fileNameLen
      (by rwa [Nat.zero_add]) (owned_mapped owned member)
    rw [Nat.add_zero, List.take_zero, List.nil_append, List.append_assoc, List.cons_append] at text
    rw [text, upToNul_terminated, upToNul_plain name.plain]
  refine ⟨⟨⟨dir, es, lost, parked2, ?_⟩, fun b inside => ?_⟩, here, kept, disk1⟩
  · rw [← disk1] at catalog
    exact catalog
  · rcases List.mem_cons.mp inside with rfl | old
    · exact ⟨name, here⟩
    · obtain ⟨name', there⟩ := named b old
      exact ⟨name', (nameAt_kept kept old).mpr there⟩

end

end Delos.Invariants
