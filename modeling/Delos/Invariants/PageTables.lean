import Mathlib.Data.List.Nodup
import Mathlib.Data.List.Perm.Subperm
import Delos.Invariants.FrameBitmap
import Delos.Invariants.PageEntries

/-!
# The page tables of the kernel

`Tables s tables` says where the tables of the directory are: the ones that loader.asm
made below the directory, all others one behind the other from 4 MB on, in the order in
which they were made. Each function changes one page, and a new table changes none.
-/
namespace Delos.Invariants
open Lib Source

/-- A directory entry that loader.asm does not use. -/
def Ordinary (i : Nat) : Prop := i < pageTableEntries ∧ i ≠ 0 ∧ i ≠ 1 ∧ i ≠ 768

instance : DecidablePred Ordinary := fun i => inferInstanceAs (Decidable (_ ∧ _))

/-- The directory entries of loader.asm. -/
structure LoaderTables (m : ByteMemory) : Prop where
  first : entryAddr (m.read32 (dirEntry 0)) = 0x9B
  second : entryAddr (m.read32 (dirEntry 1)) = 0x9C
  kernel : entryAddr (m.read32 (dirEntry 768)) = 0x9D

/-- The word of a page; a page of a table that does not exist is not used. -/
def pageWord (m : ByteMemory) (i j : Nat) : Nat :=
  if entryAddr (m.read32 (dirEntry i)) = unusedAddr then unusedWord
  else m.read32 (entryAddr (m.read32 (dirEntry i)) * frameSize + 4 * j)

structure Tables (s : Paging) (tables : List Nat) : Prop where
  origin : s.memory.origin ≤ pageDirAddr
  loader : LoaderTables s.memory
  nodup : tables.Nodup
  range : ∀ i ∈ tables, Ordinary i
  last : s.lastPageTableAddr = pageTableStartAddr + frameSize * tables.length
  used : ∀ k (h : k < tables.length), ∃ user, s.memory.read32 (dirEntry tables[k]) = usedWord (0x400 + k) user
  unused : ∀ i, Ordinary i → i ∉ tables → s.memory.read32 (dirEntry i) = unusedWord

/-- One page gets a word, and neither another page nor the memory behind the tables changes. -/
structure PageSet (m m' : ByteMemory) (i j word : Nat) : Prop where
  here : pageWord m' i j = word
  other : ∀ i' < pageTableEntries, ∀ j' < pageTableEntries, (i', j') ≠ (i, j) → pageWord m' i' j' = pageWord m i' j'
  high : ∀ b, identityEnd ≤ b → m'.readByte b = m.readByte b

section
variable {s : Paging} {tables : List Nat} {i j f user : Nat}

theorem Tables.few (inv : Tables s tables) : tables.length ≤ 1021 := by
  have all : tables ⊆ (List.range pageTableEntries).filter fun i => decide (Ordinary i) := fun i member => by
    have range := inv.range i member
    exact List.mem_filter.mpr ⟨List.mem_range.mpr range.1, decide_eq_true range⟩
  have count : ((List.range pageTableEntries).filter fun i => decide (Ordinary i)).length = 1021 := by
    decide +kernel
  rw [← count]
  exact (inv.nodup.subperm all).length_le

theorem Tables.more (inv : Tables s tables) (ordinary : Ordinary i) (new : i ∉ tables) : tables.length < 1021 := by
  have all : (i :: tables) ⊆ (List.range pageTableEntries).filter fun i => decide (Ordinary i) := fun k member => by
    have range : Ordinary k := by
      rcases List.mem_cons.mp member with rfl | inside
      · exact ordinary
      · exact inv.range k inside
    exact List.mem_filter.mpr ⟨List.mem_range.mpr range.1, decide_eq_true range⟩
  have count : ((List.range pageTableEntries).filter fun i => decide (Ordinary i)).length = 1021 := by
    decide +kernel
  rw [← count]
  exact ((List.nodup_cons.mpr ⟨new, inv.nodup⟩).subperm all).length_le

/-- The address field of a table in use. -/
theorem Tables.addr (inv : Tables s tables) {k : Nat} (small : k < tables.length) :
    entryAddr (s.memory.read32 (dirEntry tables[k])) = 0x400 + k := by
  obtain ⟨user, word⟩ := inv.used k small
  rw [word, entryAddr_usedWord]

/-- Where the table of a directory entry is, if there is one. -/
theorem Tables.place (inv : Tables s tables) (small : i < pageTableEntries) :
    (i ∉ tables ∧ entryAddr (s.memory.read32 (dirEntry i)) = unusedAddr) ∨
      (i ∉ tables ∧ 0x9B ≤ entryAddr (s.memory.read32 (dirEntry i)) ∧
        entryAddr (s.memory.read32 (dirEntry i)) ≤ 0x9D) ∨
      ∃ k, ∃ h : k < tables.length, tables[k] = i ∧ entryAddr (s.memory.read32 (dirEntry i)) = 0x400 + k := by
  by_cases member : i ∈ tables
  · obtain ⟨k, h, rfl⟩ := List.mem_iff_getElem.mp member
    exact .inr (.inr ⟨k, h, rfl, inv.addr h⟩)
  · by_cases ordinary : Ordinary i
    · rw [inv.unused i ordinary member, entryAddr_unusedWord]
      exact .inl ⟨member, rfl⟩
    · right
      left
      refine ⟨member, ?_⟩
      have special : i = 0 ∨ i = 1 ∨ i = 768 := by
        unfold Ordinary at ordinary
        omega
      rcases special with rfl | rfl | rfl
      · rw [inv.loader.first]
        decide
      · rw [inv.loader.second]
        decide
      · rw [inv.loader.kernel]
        decide

theorem dirEntry_low (small : i < pageTableEntries) : pageDirAddr ≤ dirEntry i ∧ dirEntry i + 4 ≤ 0x9B000 := by
  unfold pageTableEntries at small
  unfold dirEntry pageDirAddr
  omega

theorem Tables.dir (inv : Tables s tables) (small : i < pageTableEntries) : Resolves s (dirEntry i) (dirEntry i) := by
  have low := dirEntry_low small
  exact resolves_identity (by unfold identityEnd; omega) (inv.origin.trans low.1)

/-! ## Writing a page -/

/-- The word of a page that is written, in the table at position `k`. -/
theorem tables_wrote {m : ByteMemory} {k word : Nat} (inv : Tables s tables) (inside : k < tables.length)
    (small : j < pageTableEntries)
    (wrote : Wrote s.memory m ((0x400 + k) * frameSize + 4 * j) word) :
    Tables { s with memory := m } tables ∧ PageSet s.memory m tables[k] j word := by
  have few := inv.few
  have dirs : ∀ i < pageTableEntries, m.read32 (dirEntry i) = s.memory.read32 (dirEntry i) := fun i less => by
    have low := dirEntry_low less
    apply wrote.other
    unfold frameSize
    omega
  have ordinary := inv.range _ (List.getElem_mem inside)
  refine ⟨⟨wrote.origin.trans_le inv.origin, ⟨?_, ?_, ?_⟩, inv.nodup, inv.range, inv.last, ?_, ?_⟩, ?_, ?_, ?_⟩
  · rw [dirs 0 (by decide)]
    exact inv.loader.first
  · rw [dirs 1 (by decide)]
    exact inv.loader.second
  · rw [dirs 768 (by decide)]
    exact inv.loader.kernel
  · intro k' h
    rw [dirs _ (inv.range _ (List.getElem_mem h)).1]
    exact inv.used k' h
  · intro i ordinary new
    rw [dirs _ ordinary.1]
    exact inv.unused i ordinary new
  · rw [pageWord, dirs _ ordinary.1, inv.addr inside, if_neg (by unfold unusedAddr; omega)]
    exact wrote.here
  · intro i' less j' less' different
    rw [pageWord, pageWord, dirs i' less]
    unfold pageTableEntries at small less'
    rcases inv.place less with ⟨_, none⟩ | ⟨_, low, high⟩ | ⟨k', h, here, addr⟩
    · rw [if_pos none, if_pos none]
    · rw [if_neg (by unfold unusedAddr; omega), if_neg (by unfold unusedAddr; omega)]
      apply wrote.other
      unfold frameSize
      omega
    · rw [addr, if_neg (by unfold unusedAddr; omega), if_neg (by unfold unusedAddr; omega)]
      apply wrote.other
      unfold frameSize
      by_cases same : k' = k
      · subst same
        have : j' ≠ j := fun equal => different (by rw [← here, equal])
        omega
      · omega
  · intro b high
    apply wrote.bytes
    unfold identityEnd at high
    unfold pageTableEntries at small
    unfold frameSize
    omega

theorem Tables.page (inv : Tables s tables) {k : Nat} (inside : k < tables.length) (small : j < pageTableEntries) :
    Resolves s ((0x400 + k) * frameSize + 4 * j) ((0x400 + k) * frameSize + 4 * j) ∧
      pageWord s.memory tables[k] j = s.memory.read32 ((0x400 + k) * frameSize + 4 * j) := by
  have few := inv.few
  have origin := inv.origin
  unfold pageTableEntries at small
  unfold pageDirAddr at origin
  constructor
  · apply resolves_identity
    · unfold identityEnd frameSize
      omega
    · unfold frameSize
      omega
  · rw [pageWord, inv.addr inside, if_neg (by unfold unusedAddr; omega)]

theorem pageTable_run (inv : Tables s tables) {k : Nat} (inside : k < tables.length) :
    pageTable tables[k] s = .ok ((0x400 + k) * frameSize, s) := by
  have ordinary := inv.range _ (List.getElem_mem inside)
  unfold pageTable
  rw [run_bind (readEntry_run (inv.dir ordinary.1)), inv.addr inside]
  rfl

/-! ## New tables -/

theorem clearTable_run (table left : Nat) (mapped : s.memory.origin ≤ table)
    (low : table + 4 * (i + left) ≤ identityEnd) :
    ∃ m, clearTable table left i s = .ok ((), { s with memory := m }) ∧ m.origin = s.memory.origin ∧
      (∀ j, i ≤ j → j < i + left → m.read32 (table + 4 * j) = unusedWord) ∧
      ∀ b, b < table + 4 * i ∨ table + 4 * (i + left) ≤ b → m.readByte b = s.memory.readByte b := by
  induction left generalizing s i with
  | zero => exact ⟨s.memory, rfl, rfl, fun j from_ less => by omega, fun _ _ => rfl⟩
  | succ left ih =>
    obtain ⟨m, clear, wrote⟩ := clearEntry_run
      (resolves_identity (s := s) (a := table + 4 * i) (by omega) (by omega))
    obtain ⟨m', rest, origin, words, bytes⟩ := ih (s := { s with memory := m }) (i := i + 1)
      (wrote.origin.trans_le mapped) (by omega)
    refine ⟨m', ?_, origin.trans wrote.origin, fun j from_ less => ?_, fun b outside => ?_⟩
    · unfold clearTable
      rw [run_bind clear]
      exact rest
    · by_cases here : j = i
      · have same := ByteMemory.read32_congr m m' (table + 4 * i) fun n small => bytes _ (by omega)
        rw [here, same, wrote.here]
      · exact words j (by omega) (by omega)
    · exact (bytes b (by omega)).trans (wrote.bytes b (by omega))

/-- A table that exists is found. -/
theorem allocatePageTable_known (inv : Tables s tables) {k : Nat} (inside : k < tables.length) (user : Nat) :
    allocatePageTable tables[k] user s = .ok ((0x400 + k) * frameSize, s) := by
  have few := inv.few
  have ordinary := inv.range _ (List.getElem_mem inside)
  unfold allocatePageTable
  rw [run_bind (readEntry_run (inv.dir ordinary.1)), inv.addr inside, if_pos (by unfold unusedAddr; omega)]
  rfl

theorem allocatePageTable_new (inv : Tables s tables) (ordinary : Ordinary i) (new : i ∉ tables) (user : Nat) :
    ∃ v s', allocatePageTable i user s = .ok (v, s') ∧ s'.frames = s.frames ∧
      s'.framesBitmapSize = s.framesBitmapSize ∧ Tables s' (tables ++ [i]) ∧
      (∀ i' < pageTableEntries, ∀ j < pageTableEntries, pageWord s'.memory i' j = pageWord s.memory i' j) ∧
      ∀ b, identityEnd ≤ b → s'.memory.readByte b = s.memory.readByte b := by
  have few := inv.more ordinary new
  have origin := inv.origin
  have start : s.lastPageTableAddr = (0x400 + tables.length) * frameSize := by
    rw [inv.last, Nat.add_mul, Nat.mul_comm tables.length]
    rfl
  have entries : pageTableEntries = 1024 := rfl
  have frame : frameSize = 0x1000 := rfl
  have word := inv.unused i ordinary new
  unfold pageDirAddr at origin
  obtain ⟨m, clear, originClear, words, bytesClear⟩ := clearTable_run (s := s) (i := 0)
    ((0x400 + tables.length) * frameSize) pageTableEntries (by rw [frame]; omega)
    (by unfold identityEnd; rw [frame, entries]; omega)
  have dirs : ∀ i' < pageTableEntries, m.read32 (dirEntry i') = s.memory.read32 (dirEntry i') := fun i' less => by
    have low := dirEntry_low less
    exact ByteMemory.read32_congr _ _ _ fun n small => bytesClear _ (by rw [frame]; omega)
  have low := dirEntry_low ordinary.1
  obtain ⟨m', fill, wrote⟩ := fillEntry_run (s := { s with memory := m }) (0x400 + tables.length) user
    (resolves_identity (by unfold identityEnd; omega) (originClear.trans_le (inv.origin.trans low.1)))
    ((dirs i ordinary.1).trans word) (by unfold unusedAddr; omega)
  have others : ∀ i' < pageTableEntries, i' ≠ i → m'.read32 (dirEntry i') = s.memory.read32 (dirEntry i') :=
    fun i' less different => by
      rw [wrote.other (by unfold dirEntry; omega)]
      exact dirs i' less
  have rest : ∀ b, 0x9B000 ≤ b → b < (0x400 + tables.length) * frameSize ∨
      (0x400 + tables.length) * frameSize + 0x1000 ≤ b → m'.readByte b = s.memory.readByte b :=
    fun b above outside => by
      rw [wrote.bytes b (by omega)]
      exact bytesClear b (by rw [entries]; omega)
  have next : ((0x400 + tables.length) * frameSize + 0x1000) % wordModulus =
      pageTableStartAddr + frameSize * (tables.length + 1) := by
    unfold wordModulus pageTableStartAddr
    rw [frame]
    omega
  refine ⟨(0x400 + tables.length) * frameSize, { s with
    memory := m', lastPageTableAddr := ((0x400 + tables.length) * frameSize + 0x1000) % wordModulus },
    ?_, rfl, rfl, ⟨?_, ⟨?_, ?_, ?_⟩, ?_, ?_, ?_, ?_, ?_⟩, ?_, ?_⟩
  · unfold allocatePageTable
    rw [run_bind (readEntry_run (inv.dir ordinary.1)), word, entryAddr_unusedWord, if_neg (not_not.mpr rfl),
      run_bind (show (get : Mapper Paging) s = .ok (s, s) from rfl), start, run_bind clear,
      show (0x400 + tables.length) * frameSize / frameSize = 0x400 + tables.length by rw [frame]; omega,
      run_bind fill]
    rfl
  · exact (wrote.origin.trans originClear).trans_le inv.origin
  · rw [others 0 (by decide) ordinary.2.1.symm]
    exact inv.loader.first
  · rw [others 1 (by decide) ordinary.2.2.1.symm]
    exact inv.loader.second
  · rw [others 768 (by decide) ordinary.2.2.2.symm]
    exact inv.loader.kernel
  · exact List.nodup_append.mpr ⟨inv.nodup, List.nodup_singleton i, fun a inside b last => by
      rw [List.mem_singleton.mp last]
      exact fun same => new (same ▸ inside)⟩
  · intro i' member
    rcases List.mem_append.mp member with inside | last
    · exact inv.range i' inside
    · rwa [List.mem_singleton.mp last]
  · rw [List.length_append, List.length_singleton]
    exact next
  · intro k h
    by_cases old : k < tables.length
    · rw [List.getElem_append_left old,
        others _ (inv.range _ (List.getElem_mem old)).1 fun same => new (same ▸ List.getElem_mem old)]
      exact inv.used k old
    · have last : k = tables.length := by
        rw [List.length_append, List.length_singleton] at h
        omega
      subst last
      rw [List.getElem_append_right (Nat.le_refl _)]
      simp only [Nat.sub_self, List.getElem_cons_zero]
      exact ⟨user, wrote.here⟩
  · intro i' ordinary' outside
    have different : i' ≠ i := fun same => outside (List.mem_append_right _ (List.mem_singleton.mpr same))
    rw [others i' ordinary'.1 different]
    exact inv.unused i' ordinary' fun inside => outside (List.mem_append_left _ inside)
  · intro i' less j small
    rw [entries] at small
    by_cases same : i' = i
    · subst same
      rw [pageWord, wrote.here, entryAddr_usedWord, if_neg (by unfold unusedAddr; omega), pageWord, word,
        if_pos entryAddr_unusedWord, wrote.other (by rw [frame]; omega)]
      exact words j (Nat.zero_le _) (by omega)
    · rw [pageWord, pageWord, others i' less same]
      rcases inv.place less with ⟨_, none⟩ | ⟨_, above, below⟩ | ⟨k, h, here, addr⟩
      · rw [if_pos none, if_pos none]
      · rw [if_neg (by unfold unusedAddr; omega), if_neg (by unfold unusedAddr; omega)]
        exact ByteMemory.read32_congr _ _ _ fun n few => rest _ (by rw [frame]; omega) (by rw [frame]; omega)
      · rw [addr, if_neg (by unfold unusedAddr; omega), if_neg (by unfold unusedAddr; omega)]
        exact ByteMemory.read32_congr _ _ _ fun n few => rest _ (by rw [frame]; omega) (by rw [frame]; omega)
  · intro b high
    unfold identityEnd at high
    exact rest b (by omega) (by rw [frame]; omega)

/-! ## Pages -/

/-- The address of a page. -/
def pageAddr (i j : Nat) : Nat := i * 0x400000 + j * 0x1000

theorem allocatePageAt_run {rest : List Nat} (inv : Tables s tables) (member : i ∈ tables)
    (small : j < pageTableEntries) (free : pageWord s.memory i j = unusedWord) (next : reachable s = f :: rest)
    (narrow : f ≤ unusedAddr) (user : Nat) :
    ∃ m, allocatePageAt i j user s = .ok (pageAddr i j, { s with frames := s.frames.setBit f, memory := m }) ∧
      Tables { s with frames := s.frames.setBit f, memory := m } tables ∧
      PageSet s.memory m i j (usedWord f user) := by
  obtain ⟨k, inside, rfl⟩ := List.mem_iff_getElem.mp member
  have few := inv.few
  have ordinary := inv.range _ (List.getElem_mem inside)
  have range := ordinary.1
  obtain ⟨take, _⟩ := allocateFrame_reachable next
  have taken : Tables { s with frames := s.frames.setBit f } tables :=
    ⟨inv.origin, inv.loader, inv.nodup, inv.range, inv.last, inv.used, inv.unused⟩
  obtain ⟨resolves, word⟩ := taken.page inside small
  rw [free] at word
  have frame : f * frameSize % wordModulus / frameSize = f := by
    unfold unusedAddr at narrow
    unfold frameSize wordModulus
    omega
  obtain ⟨m, fill, wrote⟩ := fillEntry_run f user resolves word.symm narrow
  obtain ⟨kept, set⟩ := tables_wrote taken inside small wrote
  have addr : tables[k] % 0x400 * 0x400000 + j % 0x400 * 0x1000 = pageAddr tables[k] j := by
    unfold pageTableEntries at range small
    unfold pageAddr
    omega
  refine ⟨m, ?_, kept, set⟩
  unfold allocatePageAt
  rw [run_bind take, run_bind (readEntry_run (taken.dir range)), taken.addr inside,
    run_bind (runIf_false (by unfold unusedAddr; omega)), run_bind (pageTable_run taken inside),
    run_bind (readEntry_run resolves), ← word, entryAddr_unusedWord, if_neg (not_not.mpr rfl), frame,
    run_bind fill, addr]
  rfl

/-- A page in use has an address that is not the unused one. -/
def Proper (m : ByteMemory) : Prop :=
  ∀ i, Ordinary i → ∀ j < pageTableEntries, entryAddr (pageWord m i j) = unusedAddr → pageWord m i j = unusedWord

theorem firstUnused_run {k : Nat} (inv : Tables s tables) (proper : Proper s.memory) (inside : k < tables.length)
    (left : Nat) (range : j + left = pageTableEntries) :
    (∃ j', j ≤ j' ∧ j' < pageTableEntries ∧ pageWord s.memory tables[k] j' = unusedWord ∧
        firstUnused ((0x400 + k) * frameSize) left j s = .ok (some j', s)) ∨
      (∀ j', j ≤ j' → j' < pageTableEntries → pageWord s.memory tables[k] j' ≠ unusedWord) ∧
        firstUnused ((0x400 + k) * frameSize) left j s = .ok (none, s) := by
  induction left generalizing j with
  | zero => exact .inr ⟨fun j' from_ small => by omega, rfl⟩
  | succ left ih =>
    obtain ⟨resolves, word⟩ := inv.page inside (show j < pageTableEntries by omega)
    unfold firstUnused
    rw [run_bind (readEntry_run resolves), ← word]
    by_cases unused : entryAddr (pageWord s.memory tables[k] j) = unusedAddr
    · left
      rw [if_pos unused]
      exact ⟨j, Nat.le_refl _, by omega, proper _ (inv.range _ (List.getElem_mem inside)) j (by omega) unused, rfl⟩
    · rw [if_neg unused]
      rcases ih (j := j + 1) (by omega) with ⟨j', from_, small, free, run⟩ | ⟨full, run⟩
      · exact .inl ⟨j', by omega, small, free, run⟩
      · refine .inr ⟨fun j' from_ small free => ?_, run⟩
        by_cases here : j' = j
        · rw [← here, free, entryAddr_unusedWord] at unused
          exact unused rfl
        · exact full j' (by omega) small free

/-- A page that was not mapped gets the lowest free frame. -/
structure NewPage (s : Paging) (user : Nat) (s' : Paging) (tables' : List Nat) (i j f : Nat) : Prop where
  page : j < pageTableEntries
  free : pageWord s.memory i j = unusedWord
  frame : ∃ rest, reachable s = f :: rest
  frames : s'.frames = s.frames.setBit f
  size : s'.framesBitmapSize = s.framesBitmapSize
  known : i ∈ tables'
  placed : Tables s' tables'
  set : PageSet s.memory s'.memory i j (usedWord f user)

/-- The same for a page below the kernel, with the address that is returned. -/
structure UserPage (s : Paging) (tables : List Nat) (user v : Nat) (s' : Paging) (tables' : List Nat)
    (i j f : Nat) : Prop extends NewPage s user s' tables' i j f where
  addr : v = pageAddr i j
  low : 2 ≤ i
  high : i < 768
  kept : ∀ t ∈ tables, t ∈ tables'

/-- All pages of the tables below the kernel are mapped. -/
def AllMapped (m : ByteMemory) : Prop :=
  ∀ i, 2 ≤ i → i < 768 → ∀ j < pageTableEntries, pageWord m i j ≠ unusedWord

theorem ordinary_user (low : 2 ≤ i) (high : i < 768) : Ordinary i := by
  unfold Ordinary pageTableEntries
  omega

theorem allocatePageAt_stops (none : reachable s = []) (i j user : Nat) :
    allocatePageAt i j user s = .error (noFrame s) := run_stop (allocateFrame_none none)

theorem allocatePageLoop_run {allowed : MapFault → Prop} (inv : Tables s tables) (proper : Proper s.memory)
    (narrow : ∀ f rest, reachable s = f :: rest → f ≤ unusedAddr) (out : reachable s = [] → allowed (noFrame s))
    (full : AllMapped s.memory → allowed .panic) (left i : Nat) (range : i + left = pageTableEntries)
    (before : ∀ i', 2 ≤ i' → i' < i → i' < 768 → ∀ j < pageTableEntries, pageWord s.memory i' j ≠ unusedWord) :
    Meets allowed (allocatePageLoop user left i) s fun v s' =>
      ∃ tables' i j f, UserPage s tables user v s' tables' i j f := by
  induction left generalizing i with
  | zero =>
    apply meets_throw.mpr
    apply full
    intro i' low high
    unfold pageTableEntries at range
    exact before i' low (by omega) high
  | succ left ih =>
    unfold allocatePageLoop
    by_cases skip : i = 0 ∨ i = 1 ∨ i ≥ 768
    · rw [if_pos skip]
      exact ih (i + 1) (by omega) fun i' low less high => before i' low (by omega) high
    · have low : 2 ≤ i := by omega
      have high : i < 768 := by omega
      have ordinary := ordinary_user low high
      rw [if_neg skip, meets_next (readEntry_run (inv.dir ordinary.1))]
      by_cases member : i ∈ tables
      · obtain ⟨k, inside, rfl⟩ := List.mem_iff_getElem.mp member
        have few := inv.few
        rw [inv.addr inside, if_pos (by unfold unusedAddr; omega)]
        rcases firstUnused_run inv proper inside pageTableEntries (Nat.zero_add _) with
          ⟨j, _, small, free, search⟩ | ⟨mapped, search⟩
        · rw [meets_next search]
          dsimp only
          cases next : reachable s with
          | nil =>
            unfold Meets
            rw [allocatePageAt_stops next]
            exact out next
          | cons f rest =>
            obtain ⟨m, run, kept, set⟩ := allocatePageAt_run inv member small free next (narrow f rest next) user
            exact meets_run run ⟨tables, tables[k], j, f, ⟨small, free, ⟨rest, next⟩, rfl, rfl, member, kept, set⟩,
              rfl, low, high, fun _ => id⟩
        · rw [meets_next search]
          dsimp only
          refine ih _ (by omega) fun i' low' less high' => ?_
          by_cases same : i' = tables[k]
          · subst same
            exact fun j small => mapped j (Nat.zero_le _) small
          · exact before i' low' (by omega) high'
      · have word := inv.unused i ordinary member
        obtain ⟨v, made, create, frames, size, newInv, pages, highBytes⟩ :=
          allocatePageTable_new inv ordinary member user
        have known : i ∈ tables ++ [i] := List.mem_append_right _ List.mem_cons_self
        have reach : reachable made = reachable s := by rw [reachable, reachable, frames, size]
        have absent : pageWord s.memory i 0 = unusedWord := by rw [pageWord, word, if_pos entryAddr_unusedWord]
        have free := (pages i ordinary.1 0 (by decide)).trans absent
        rw [word, entryAddr_unusedWord, if_neg (not_not.mpr rfl), meets_next create]
        cases next : reachable s with
        | nil =>
          unfold Meets
          rw [allocatePageAt_stops (reach.trans next), noFrame, size]
          exact out next
        | cons f rest =>
          obtain ⟨m, run, kept, set⟩ := allocatePageAt_run newInv known (by decide) free (reach.trans next)
            (narrow f rest next) user
          refine meets_run run ⟨tables ++ [i], i, 0, f, ⟨by decide, absent, ⟨rest, next⟩,
            congrArg (Bitmap.setBit · f) frames, size, known, kept,
            set.here, fun i' less j' less' different => ?_, fun b above => ?_⟩,
            rfl, low, high, fun t inside => List.mem_append_left _ inside⟩
          · exact (set.other i' less j' less' different).trans (pages i' less j' less')
          · exact (set.high b above).trans (highBytes b above)

/-- `allocate_page(user)` -/
theorem allocatePage_run {allowed : MapFault → Prop} (inv : Tables s tables) (proper : Proper s.memory)
    (narrow : ∀ f rest, reachable s = f :: rest → f ≤ unusedAddr) (out : reachable s = [] → allowed (noFrame s))
    (full : AllMapped s.memory → allowed .panic) :
    Meets allowed (allocatePage user) s fun v s' => ∃ tables' i j f, UserPage s tables user v s' tables' i j f :=
  allocatePageLoop_run inv proper narrow out full pageTableEntries 0 (Nat.zero_add _)
    fun _ _ less => absurd less (Nat.not_lt_zero _)

/-! ## Unmapping -/

theorem pageAddr_parts (range : Ordinary i) (small : j < pageTableEntries) :
    pageAddr i j / 0x400000 = i ∧ pageAddr i j / 0x1000 % 0x400 = j := by
  have range' := range.1
  unfold pageTableEntries at range' small
  unfold pageAddr
  omega

theorem unmapPage_unused (inv : Tables s tables) (member : i ∈ tables) (small : j < pageTableEntries)
    (unused : pageWord s.memory i j = unusedWord) : unmapPage (pageAddr i j) s = .ok ((), s) := by
  obtain ⟨k, inside, rfl⟩ := List.mem_iff_getElem.mp member
  obtain ⟨table, page⟩ := pageAddr_parts (inv.range _ member) small
  obtain ⟨resolves, word⟩ := inv.page inside small
  unfold unmapPage
  rw [table, page, run_bind (pageTable_run inv inside), run_bind (readEntry_run resolves), ← word, unused,
    if_pos entryAddr_unusedWord]
  rfl

theorem unmapPage_run (inv : Tables s tables) (member : i ∈ tables) (small : j < pageTableEntries)
    (used : pageWord s.memory i j = usedWord f user) (narrow : f < unusedAddr) :
    ∃ m, unmapPage (pageAddr i j) s = .ok ((), { s with frames := s.frames.clearBit f, memory := m }) ∧
      Tables { s with frames := s.frames.clearBit f, memory := m } tables ∧
      PageSet s.memory m i j unusedWord := by
  obtain ⟨k, inside, rfl⟩ := List.mem_iff_getElem.mp member
  obtain ⟨table, page⟩ := pageAddr_parts (inv.range _ member) small
  obtain ⟨resolves, word⟩ := inv.page inside small
  have count : framesCount = 32769 := by decide
  have top : unusedAddr = 0xFFFFF := rfl
  have frame : f * 0x1000 / frameSize = f := by
    unfold frameSize
    omega
  have freed : Tables { s with frames := s.frames.clearBit f } tables :=
    ⟨inv.origin, inv.loader, inv.nodup, inv.range, inv.last, inv.used, inv.unused⟩
  obtain ⟨m, clear, wrote⟩ := clearEntry_run (freed.page inside small).1
  obtain ⟨kept, set⟩ := tables_wrote freed inside small wrote
  refine ⟨m, ?_, kept, set⟩
  unfold unmapPage
  rw [table, page, run_bind (pageTable_run inv inside), run_bind (readEntry_run resolves), ← word, used,
    entryAddr_usedWord, if_neg (by omega), frame, run_bind (frameSetState_free (by omega))]
  exact clear

end

end Delos.Invariants
