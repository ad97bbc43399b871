import Delos.Invariants.KernelMapping

/-!
# Pages of the kernel

After `paging_init` and any calls of `allocate_page` and `unmap_page` the tables are apart,
the mapped pages hold different frames, and a page that was just mapped can be unmapped
without a trace. The tables of loader.asm are in front of all others.
-/
namespace Delos.Guarantees
open Lib Source Invariants

/-- `allocate_page(user)`, or `unmap_page` of the `k`-th address that was returned. -/
inductive MapCall where
  | allocate (user : Nat)
  | unmap (k : Nat)

/-- The calls in order, with the addresses returned so far. -/
def runMapCalls : List MapCall → List Nat → Mapper (List Nat)
  | [], obtained => pure obtained
  | .allocate user :: rest, obtained => do
    let v ← allocatePage user
    runMapCalls rest (obtained ++ [v])
  | .unmap k :: rest, obtained =>
    match obtained[k]? with
    | some v => do
      unmapPage v
      runMapCalls rest obtained
    | none => runMapCalls rest obtained

/-- The tables and the frames of the mapping; `Ordinary` leaves out the three directory
entries of loader.asm. -/
structure SoundMapping (s : Paging) : Prop where
  loader : LoaderTables s.memory
  tables : ∀ i, Ordinary i → entryAddr (s.memory.read32 (dirEntry i)) ≠ unusedAddr →
    0x400000 ≤ entryAddr (s.memory.read32 (dirEntry i)) * frameSize ∧
      entryAddr (s.memory.read32 (dirEntry i)) * frameSize < 0x800000
  distinct : ∀ i i', Ordinary i → Ordinary i' → entryAddr (s.memory.read32 (dirEntry i)) ≠ unusedAddr →
    entryAddr (s.memory.read32 (dirEntry i)) = entryAddr (s.memory.read32 (dirEntry i')) → i = i'
  frames : ∀ i j i' j', Ordinary i → Ordinary i' → j < pageTableEntries → j' < pageTableEntries →
    entryAddr (pageWord s.memory i j) ≠ unusedAddr →
      entryAddr (pageWord s.memory i j) = entryAddr (pageWord s.memory i' j') → i = i' ∧ j = j'
  occupied : ∀ i j, Ordinary i → j < pageTableEntries → entryAddr (pageWord s.memory i j) ≠ unusedAddr →
    s.frames.bit (entryAddr (pageWord s.memory i j)) = true

/-- The address is that of a page that was not mapped, and no other page is touched. -/
def FreshPage (s : Paging) (v : Nat) (s' : Paging) : Prop :=
  ∃ i j, Ordinary i ∧ j < pageTableEntries ∧ v = pageAddr i j ∧ entryAddr (pageWord s.memory i j) = unusedAddr ∧
    entryAddr (pageWord s'.memory i j) ≠ unusedAddr ∧
    ∀ i' < pageTableEntries, ∀ j' < pageTableEntries, (i', j') ≠ (i, j) →
      pageWord s'.memory i' j' = pageWord s.memory i' j'

/-- `unmap_page` brings the bitmap and every page back. -/
def Undone (s : Paging) (v : Nat) (s' : Paging) : Prop :=
  ∃ s'', unmapPage v s' = .ok ((), s'') ∧ s''.frames = s.frames ∧
    ∀ i < pageTableEntries, ∀ j < pageTableEntries, pageWord s''.memory i j = pageWord s.memory i j

section
variable {n : Nat} {s start : Paging} {tables : List Nat}

theorem mapping_sound (inv : Mapping n s tables) : SoundMapping s := by
  have mapped : ∀ i j, entryAddr (pageWord s.memory i j) ≠ unusedAddr → pageWord s.memory i j ≠ unusedWord :=
    fun i j used free => used (by rw [free, entryAddr_unusedWord])
  have place : ∀ i, Ordinary i → entryAddr (s.memory.read32 (dirEntry i)) ≠ unusedAddr →
      ∃ k, ∃ h : k < tables.length, tables[k] = i ∧ entryAddr (s.memory.read32 (dirEntry i)) = 0x400 + k :=
    fun i ordinary used => by
      have member : i ∈ tables := by
        by_contra outside
        exact used (by rw [inv.placed.unused i ordinary outside, entryAddr_unusedWord])
      obtain ⟨k, h, here⟩ := List.mem_iff_getElem.mp member
      exact ⟨k, h, here, here ▸ inv.placed.addr h⟩
  refine ⟨inv.placed.loader, fun i ordinary used => ?_, ?_, ?_, fun i j ordinary small used => ?_⟩
  · obtain ⟨k, h, _, addr⟩ := place i ordinary used
    have few := inv.placed.few
    rw [addr]
    unfold frameSize
    omega
  · intro i i' ordinary ordinary' used same
    obtain ⟨k, h, rfl, addr⟩ := place i ordinary used
    obtain ⟨k', h', rfl, addr'⟩ := place i' ordinary' (same ▸ used)
    obtain rfl : k = k' := by omega
    rfl
  · intro i j i' j' ordinary ordinary' small small' used same
    exact inv.apart i j i' j' ordinary ordinary' small small' (mapped i j used) (mapped i' j' (same ▸ used)) same
  · obtain ⟨f, user, word, narrow, inside, _⟩ := (inv.words i ordinary j small).resolve_left (mapped i j used)
    have held : Holds s.memory f := ⟨i, j, ordinary, small, mapped i j used, by rw [word, entryAddr_usedWord]⟩
    rw [word, entryAddr_usedWord]
    by_contra clear
    exact ((inv.bits f inside).mp ((Bool.not_eq_true _).mp clear)).2 held

theorem allocatePage_kept (inv : Mapping n s tables) (user : Nat) :
    Meets (RunsOut n) (allocatePage user) s fun v s' =>
      ∃ tables' i j f, Mapping n s' tables' ∧ UserPage s tables user v s' tables' i j f := by
  apply meets_mono (allocatePage_run inv.placed inv.proper
    (fun f rest next => Nat.le_of_lt (inv.next next).2.2.1) (fun _ => runsOut_noFrame inv.size) fun _ => .inl rfl)
  rintro v s' ⟨tables', i, j, f, page⟩
  exact ⟨tables', i, j, f, mapping_new inv page.toNewPage, page⟩

/-- What holds of one more call. -/
theorem allocatePage_fresh (inv : Mapping n s tables) (user : Nat) :
    Meets (RunsOut n) (allocatePage user) s fun v s' => FreshPage s v s' ∧ Undone s v s' := by
  apply meets_mono (allocatePage_kept inv user)
  rintro v s' ⟨tables', i, j, f, inv', page⟩
  obtain ⟨rest, next⟩ := page.frame
  have clear := (Bitmap.mem_clears.mp (show f ∈ reachable s by rw [next]; exact List.mem_cons_self)).2
  obtain ⟨used, addr⟩ := usedWord_entry (inv.next next).2.2.1 user
  have ordinary := page.placed.range i page.known
  have here := page.set.here
  obtain ⟨s'', unmap, _, frames, set⟩ := mapping_unmap inv' page.known page.page (here ▸ used)
  constructor
  · refine ⟨i, j, ordinary, page.page, page.addr, by rw [page.free, entryAddr_unusedWord], ?_, page.set.other⟩
    rw [here, addr]
    exact Nat.ne_of_lt (inv.next next).2.2.1
  · refine ⟨s'', page.addr ▸ unmap, ?_, fun i' less j' small => ?_⟩
    · rw [frames, here, addr, page.frames]
      exact Bitmap.clearBit_setBit (by decide) clear
    · by_cases same : (i', j') = (i, j)
      · obtain ⟨rfl, rfl⟩ := Prod.mk.inj same
        rw [set.here, page.free]
      · rw [set.other i' less j' small same, page.set.other i' less j' small same]

/-- The addresses are those of pages whose tables exist. -/
def Obtained (tables obtained : List Nat) : Prop :=
  ∀ v ∈ obtained, ∃ i ∈ tables, ∃ j < pageTableEntries, v = pageAddr i j

theorem runMapCalls_kept (calls : List MapCall) (obtained : List Nat) (inv : Mapping n s tables)
    (known : Obtained tables obtained) :
    Meets (RunsOut n) (runMapCalls calls obtained) s fun _ s' => ∃ tables', Mapping n s' tables' := by
  induction calls generalizing s tables obtained with
  | nil => exact meets_pure.mpr ⟨tables, inv⟩
  | cons call rest ih =>
    cases call with
    | allocate user =>
      apply meets_call (allocatePage_kept inv user)
      rintro v s' ⟨tables', i, j, f, inv', page⟩
      refine ih _ inv' fun v' member => ?_
      rcases List.mem_append.mp member with old | last
      · obtain ⟨i', inside, j', small, addr⟩ := known v' old
        exact ⟨i', page.kept i' inside, j', small, addr⟩
      · rw [List.mem_singleton.mp last]
        exact ⟨i, page.known, j, page.page, page.addr⟩
    | unmap k =>
      unfold runMapCalls
      cases here : obtained[k]? with
      | none => exact ih obtained inv known
      | some v =>
        obtain ⟨i, inside, j, small, rfl⟩ := known v (List.mem_of_getElem? here)
        by_cases unused : pageWord s.memory i j = unusedWord
        · rw [meets_next (unmapPage_unused inv.placed inside small unused)]
          exact ih obtained inv known
        · obtain ⟨s', unmap, inv', _⟩ := mapping_unmap inv inside small unused
          rw [meets_next unmap]
          exact ih obtained inv' known

end

/-- The directory of loader.asm and nothing else. -/
def loaderStart : Paging :=
  ⟨fun _ => 0, 0, 0, (((ByteMemory.mk pageDirAddr 0).write32 (dirEntry 0) 0x9B003).write32 (dirEntry 1)
    0x9C003).write32 (dirEntry 768) 0x9D003⟩

theorem loaderStart_state : LoaderState loaderStart := by
  refine ⟨?_, ?_, ?_, ?_⟩ <;> decide +kernel

/-- 80 MB -/
def enoughMemory : Nat := 0x5000000

theorem physicalFrames_enough : physicalFrames enoughMemory 0 = 20480 := by decide +kernel

/-- With 80 MB of memory `paging_init` has enough frames. -/
theorem pagingInit_enough : ∃ s tables, pagingInit enoughMemory 0 loaderStart = .ok ((), s) ∧
    Mapping (physicalFrames enoughMemory 0) s tables := by
  have init : Meets (fun _ => False) (pagingInit enoughMemory 0) loaderStart fun _ s =>
      ∃ tables, Mapping (physicalFrames enoughMemory 0) s tables := by
    apply pagingInit_run enoughMemory 0 loaderStart_state
    · intro partly
      exact absurd partly (by rw [physicalFrames_enough]; decide)
    · intro s size bits few
      rw [physicalFrames_enough] at size bits
      have count : framesCount = 32769 := by decide
      have words : s.framesBitmapSize = 640 := size
      have free : List.range' 2048 18432 ⊆ reachable s := fun f member => by
        obtain ⟨low, high⟩ := List.mem_range'_1.mp member
        exact Bitmap.mem_clears.mpr ⟨by omega, (bits f (by omega)).mpr ⟨low, .inl (by omega)⟩⟩
      have many := ((List.nodup_range' 1).subperm free).length_le
      rw [List.length_range'] at many
      unfold pageTableEntries at few
      omega
  obtain ⟨_, s, run, tables, inv⟩ := meets_ends init
  exact ⟨s, tables, run, inv⟩

end Delos.Guarantees
