import Delos.Source.ElfLoader
import Delos.Invariants.KernelMapping

/-!
# Pages below the kernel

`allocate_page` gives the kernel pages in the tables 2 to 767, behind which it writes page
directories, page tables and the contents of programs. What is written there is above the
first 8 MB and changes neither the directory nor a table of the kernel.
-/
namespace Delos.Invariants
open Lib Source

/-- Tables whose frames can be handed out. -/
structure Paged (s : Paging) (tables : List Nat) : Prop where
  placed : Tables s tables
  proper : Proper s.memory
  frames : ∀ f ∈ reachable s, 2048 ≤ f ∧ f < unusedAddr

/-- `v` is a page below the kernel, and `f` its frame. -/
structure KernelPage (m : ByteMemory) (tables : List Nat) (v f : Nat) : Prop where
  place : ∃ i j user, i ∈ tables ∧ 2 ≤ i ∧ i < 768 ∧ j < pageTableEntries ∧ v = pageAddr i j ∧
    pageWord m i j = usedWord f user
  low : 2048 ≤ f
  high : f < unusedAddr

/-- The pages below the kernel that `allocate_page` looks at. -/
@[irreducible] def userArea : Finset (Nat × Nat) := Finset.Ico 2 768 ×ˢ Finset.range pageTableEntries

theorem mem_userArea (p : Nat × Nat) : p ∈ userArea ↔ (2 ≤ p.1 ∧ p.1 < 768) ∧ p.2 < pageTableEntries := by
  unfold userArea
  simp only [Finset.mem_product, Finset.mem_Ico, Finset.mem_range]

theorem card_userArea : userArea.card = 766 * 1024 := by
  unfold userArea
  simp only [Finset.card_product, Nat.card_Ico, Finset.card_range, pageTableEntries]

/-- The ones that are mapped. -/
def userPages (m : ByteMemory) : Finset (Nat × Nat) :=
  userArea.filter fun p => pageWord m p.1 p.2 ≠ unusedWord

/-- How many calls of `allocate_page` succeed. -/
def room (s : Paging) : Nat := min (reachable s).length (766 * 1024 - (userPages s.memory).card)

/-- `allocate_page` stops for the lack of a page or of a frame. -/
def Stops (allowed : MapFault → Prop) (s : Paging) : Prop := allowed .panic ∧ allowed (noFrame s)

/-- The bytes of the first 8 MB. -/
def SameLow (m m' : ByteMemory) : Prop := m'.origin = m.origin ∧ ∀ b < identityEnd, m'.readByte b = m.readByte b

/-- The bytes above the tables of the kernel. -/
def SameHigh (m m' : ByteMemory) : Prop := ∀ b, identityEnd ≤ b → m'.readByte b = m.readByte b

section
variable {s s' : Paging} {tables tables' : List Nat} {i j v v' f g : Nat} {allowed : MapFault → Prop}

/-! ## Allocating -/

theorem userPages_set {m m' : ByteMemory} (low : 2 ≤ i) (high : i < 768) (small : j < pageTableEntries)
    (free : pageWord m i j = unusedWord) {word : Nat} (set : PageSet m m' i j word) (used : word ≠ unusedWord) :
    (userPages m').card = (userPages m).card + 1 := by
  have same : userPages m' = insert (i, j) (userPages m) := by
    ext ⟨i', j'⟩
    simp only [userPages, Finset.mem_filter, mem_userArea, Finset.mem_insert, Prod.mk.injEq]
    constructor
    · rintro ⟨⟨range, small'⟩, mapped⟩
      rcases set.at (ordinary_user range.1 range.2) small' with ⟨rfl, rfl, _⟩ | ⟨_, word⟩
      · exact .inl ⟨rfl, rfl⟩
      · exact .inr ⟨⟨range, small'⟩, word ▸ mapped⟩
    · rintro (⟨rfl, rfl⟩ | ⟨⟨range, small'⟩, mapped⟩)
      · exact ⟨⟨⟨low, high⟩, small⟩, set.here ▸ used⟩
      · rcases set.at (ordinary_user range.1 range.2) small' with ⟨rfl, rfl, _⟩ | ⟨_, word⟩
        · exact absurd free mapped
        · exact ⟨⟨range, small'⟩, word ▸ mapped⟩
  rw [same, Finset.card_insert_of_notMem]
  simp [userPages, free]

theorem userPages_all {m : ByteMemory} (all : AllMapped m) : (userPages m).card = 766 * 1024 := by
  have whole : userPages m = userArea := by
    apply Finset.filter_true_of_mem
    intro p inside
    obtain ⟨⟨low, high⟩, small⟩ := (mem_userArea p).mp inside
    exact all p.1 low high p.2 small
  rw [whole, card_userArea]

/-- A new page of the kernel. -/
structure Allocated (s : Paging) (tables : List Nat) (v g : Nat) (s' : Paging) (tables' : List Nat) : Prop where
  paged : Paged s' tables'
  frame : reachable s = g :: reachable s'
  page : KernelPage s'.memory tables' v g
  kept : ∀ v' f, KernelPage s.memory tables v' f → KernelPage s'.memory tables' v' f ∧ v' ≠ v
  same : SameHigh s.memory s'.memory
  size : s'.framesBitmapSize = s.framesBitmapSize
  room : room s' + 1 = room s

theorem pageAddr_inj {i' j' : Nat} (small : j < pageTableEntries) (small' : j' < pageTableEntries)
    (same : pageAddr i j = pageAddr i' j') : i = i' ∧ j = j' := by
  unfold pageTableEntries at small small'
  unfold pageAddr at same
  omega

theorem proper_set {m m' : ByteMemory} {word : Nat} (proper : Proper m) (set : PageSet m m' i j word)
    (used : entryAddr word = unusedAddr → word = unusedWord) : Proper m' := by
  intro i' ordinary j' small unused
  rcases set.at ordinary small with ⟨_, _, here⟩ | ⟨_, same⟩
  · rw [here] at unused ⊢
    exact used unused
  · rw [same] at unused ⊢
    exact proper i' ordinary j' small unused

theorem userPage_allocated (paged : Paged s tables) {user : Nat} (page : UserPage s tables user v s' tables' i j g) :
    Allocated s tables v g s' tables' := by
  obtain ⟨rest, next⟩ := page.frame
  have left : reachable s' = rest := by
    rw [← (allocateFrame_reachable next).2, reachable, reachable, page.frames, page.size]
  obtain ⟨low, narrow⟩ := paged.frames g (by rw [next]; exact List.mem_cons_self)
  obtain ⟨used, addr⟩ := usedWord_entry narrow user
  have frame : reachable s = g :: reachable s' := by rw [left, next]
  refine ⟨⟨page.placed, proper_set paged.proper page.set fun unused => ?_, fun f member => ?_⟩, frame, ?_,
    fun v' f kernel => ?_, page.set.high, page.size, ?_⟩
  · rw [addr] at unused
    exact absurd unused (Nat.ne_of_lt narrow)
  · exact paged.frames f (by rw [frame]; exact List.mem_cons_of_mem _ member)
  · exact ⟨⟨i, j, user, page.known, page.low, page.high, page.page, page.addr, page.set.here⟩, low, narrow⟩
  · obtain ⟨⟨i', j', user', member, low', high', small', rfl, word⟩, lowF, highF⟩ := kernel
    have mapped : pageWord s.memory i' j' ≠ unusedWord := by
      rw [word]
      exact (usedWord_entry highF user').1
    rcases page.set.at (ordinary_user low' high') small' with ⟨rfl, rfl, _⟩ | ⟨different, same⟩
    · exact absurd page.free mapped
    · refine ⟨⟨⟨i', j', user', page.kept i' member, low', high', small', rfl, same.trans word⟩, lowF, highF⟩, ?_⟩
      rw [page.addr]
      intro equal
      obtain ⟨rfl, rfl⟩ := pageAddr_inj small' page.page equal
      exact different rfl
  · have count := userPages_set page.low page.high page.page page.free page.set used
    have free : (i, j) ∉ userPages s.memory := by simp [userPages, page.free]
    have few : (insert (i, j) (userPages s.memory)).card ≤ 766 * 1024 := by
      rw [← card_userArea]
      apply Finset.card_le_card
      apply Finset.insert_subset _ (Finset.filter_subset _ _)
      exact (mem_userArea (i, j)).mpr ⟨⟨page.low, page.high⟩, page.page⟩
    rw [Finset.card_insert_of_notMem free] at few
    rw [room, room, frame, List.length_cons, count]
    omega

theorem allocatePage_paged (paged : Paged s tables) (user : Nat) (short : room s = 0 → Stops allowed s) :
    Meets allowed (allocatePage user) s fun v s' => ∃ g tables', Allocated s tables v g s' tables' := by
  apply meets_mono (allocatePage_run paged.placed paged.proper
    (fun f rest next => Nat.le_of_lt (paged.frames f (by rw [next]; exact List.mem_cons_self)).2)
    (fun none => (short (by rw [room, none]; rfl)).2) fun all => (short (by rw [room, userPages_all all]; simp)).1)
  rintro v s' ⟨tables', i, j, g, page⟩
  exact ⟨g, tables', userPage_allocated paged page⟩

/-! ## Writing above the tables -/

theorem SameLow.trans {m m' m'' : ByteMemory} (first : SameLow m m') (second : SameLow m' m'') : SameLow m m'' :=
  ⟨second.1.trans first.1, fun b low => (second.2 b low).trans (first.2 b low)⟩

theorem Wrote.sameLow {m m' : ByteMemory} {p word : Nat} (wrote : Wrote m m' p word) (above : identityEnd ≤ p) :
    SameLow m m' := ⟨wrote.origin, fun b low => wrote.bytes b (by omega)⟩

theorem SameLow.word {m m' : ByteMemory} (same : SameLow m m') {a : Nat} (low : a + 4 ≤ identityEnd) :
    m'.read32 a = m.read32 a := ByteMemory.read32_congr m m' a fun n few => same.2 _ (by omega)

theorem SameLow.dir {m m' : ByteMemory} (same : SameLow m m') (small : i < pageTableEntries) :
    m'.read32 (dirEntry i) = m.read32 (dirEntry i) := by
  have low := dirEntry_low small
  exact same.word (by unfold identityEnd; omega)

theorem tables_sameLow {m : ByteMemory} (placed : Tables s tables) (same : SameLow s.memory m) :
    Tables { s with memory := m } tables := by
  refine ⟨same.1.trans_le placed.origin, ⟨?_, ?_, ?_⟩, placed.nodup, placed.range, placed.last, fun k h => ?_,
    fun i ordinary new => ?_⟩
  · exact (congrArg entryAddr (same.dir (by decide))).trans placed.loader.first
  · exact (congrArg entryAddr (same.dir (by decide))).trans placed.loader.second
  · exact (congrArg entryAddr (same.dir (by decide))).trans placed.loader.kernel
  · obtain ⟨user, word⟩ := placed.used k h
    exact ⟨user, (same.dir (placed.range _ (List.getElem_mem h)).1).trans word⟩
  · exact (same.dir ordinary.1).trans (placed.unused i ordinary new)

theorem pageWord_sameLow {m : ByteMemory} (placed : Tables s tables) (same : SameLow s.memory m)
    (range : i < pageTableEntries) (small : j < pageTableEntries) : pageWord m i j = pageWord s.memory i j := by
  have few := placed.few
  have entries : pageTableEntries = 1024 := rfl
  rw [pageWord, pageWord, same.dir range]
  rcases placed.place range with ⟨_, none⟩ | ⟨_, _, _⟩ | ⟨k, h, _, addr⟩
  · rw [if_pos none, if_pos none]
  · rw [same.word (by unfold identityEnd frameSize; omega)]
  · rw [addr, same.word (by unfold identityEnd frameSize; omega)]

theorem userPages_sameLow {m : ByteMemory} (placed : Tables s tables) (same : SameLow s.memory m) :
    userPages m = userPages s.memory := by
  apply Finset.filter_congr
  intro p inside
  obtain ⟨⟨low, high⟩, small⟩ := (mem_userArea p).mp inside
  rw [pageWord_sameLow placed same (ordinary_user low high).1 small]

theorem room_sameLow {m : ByteMemory} (placed : Tables s tables) (same : SameLow s.memory m) :
    room { s with memory := m } = room s := by
  show min (reachable s).length (766 * 1024 - (userPages m).card) = _
  rw [userPages_sameLow placed same]
  rfl

theorem paged_sameLow {m : ByteMemory} (paged : Paged s tables) (same : SameLow s.memory m) :
    Paged { s with memory := m } tables := by
  refine ⟨tables_sameLow paged.placed same, fun i ordinary j small unused => ?_, paged.frames⟩
  have word := pageWord_sameLow paged.placed same ordinary.1 small
  rw [word] at unused ⊢
  exact paged.proper i ordinary j small unused

theorem KernelPage.sameLow {m : ByteMemory} (page : KernelPage s.memory tables v f) (placed : Tables s tables)
    (same : SameLow s.memory m) : KernelPage m tables v f := by
  obtain ⟨i, j, user, member, low, high, small, addr, word⟩ := page.place
  have range := (ordinary_user low high).1
  exact ⟨⟨i, j, user, member, low, high, small, addr, (pageWord_sameLow placed same range small).trans word⟩,
    page.low, page.high⟩

theorem KernelPage.above {m : ByteMemory} (page : KernelPage m tables v f) : identityEnd ≤ f * frameSize := by
  have low := page.low
  unfold identityEnd frameSize
  omega

/-- A page is one of one frame. -/
theorem KernelPage.unique {m : ByteMemory} (page : KernelPage m tables v f) (page' : KernelPage m tables v g) : f = g := by
  obtain ⟨i, j, user, _, _, _, small, addr, word⟩ := page.place
  obtain ⟨i', j', user', _, _, _, small', addr', word'⟩ := page'.place
  obtain ⟨rfl, rfl⟩ := pageAddr_inj small small' (addr.symm.trans addr')
  rw [← entryAddr_usedWord f user, ← word, word', entryAddr_usedWord]

theorem KernelPage.run {o : Nat} (page : KernelPage s.memory tables v f) (placed : Tables s tables)
    (small : o < frameSize) : kernelAddr (v + o) s = .ok (f * frameSize + o, s) := by
  obtain ⟨i, j, user, member, low, high, few, rfl, word⟩ := page.place
  obtain ⟨k, inside, rfl⟩ := List.mem_iff_getElem.mp member
  obtain ⟨dirUser, dir⟩ := placed.used k inside
  have frame : frameSize = 0x1000 := rfl
  have entries : pageTableEntries = 1024 := rfl
  have parts : (pageAddr tables[k] j + o) / 0x400000 = tables[k] ∧
      (pageAddr tables[k] j + o) / frameSize % pageTableEntries = j ∧ (pageAddr tables[k] j + o) % frameSize = o := by
    rw [frame, entries]
    unfold pageAddr
    omega
  have above : ¬ pageAddr tables[k] j + o < identityEnd := by
    unfold pageAddr identityEnd
    omega
  have here := (placed.page inside few).2
  have found : Source.translate s.memory pageDirAddr (pageAddr tables[k] j + o) = some (f * frameSize + o) := by
    unfold Source.translate
    rw [parts.1, parts.2.1, parts.2.2]
    dsimp only
    rw [show pageDirAddr + 4 * tables[k] = dirEntry tables[k] from rfl, dir, if_pos (usedWord_present _ _),
      entryAddr_usedWord, ← here, word, if_pos (usedWord_present _ _), entryAddr_usedWord]
  unfold kernelAddr
  rw [run_bind (show (get : Mapper Paging) s = .ok (s, s) from rfl), if_neg above, found]
  rfl

/-- The words of a page resolve, whatever is written into its frame. -/
theorem KernelPage.resolves (page : KernelPage s.memory tables v f) (placed : Tables s tables)
    (small : j < pageTableEntries) : Resolves s (v + 4 * j) (f * frameSize + 4 * j) := by
  have above := page.above
  have origin := placed.origin
  have frame : frameSize = 0x1000 := rfl
  unfold pageTableEntries at small
  unfold pageDirAddr at origin
  unfold identityEnd at above
  refine ⟨by omega, fun m same bytes => ?_⟩
  have sameLow : SameLow s.memory m := ⟨same, fun b less => bytes b (by unfold identityEnd at less; omega)⟩
  exact (page.sameLow placed sameLow).run (s := { s with memory := m }) (tables_sameLow placed sameLow) (by omega)

theorem pageFrame_run (page : KernelPage s.memory tables v f) (placed : Tables s tables) :
    pageFrame v s = .ok (f, s) := by
  obtain ⟨i, j, user, member, low, high, few, rfl, word⟩ := page.place
  obtain ⟨k, inside, rfl⟩ := List.mem_iff_getElem.mp member
  obtain ⟨table, place⟩ := pageAddr_parts (placed.range _ member) few
  obtain ⟨resolves, here⟩ := placed.page inside few
  unfold pageFrame
  rw [table, place, run_bind (pageTable_run placed inside), run_bind (readEntry_run resolves), ← here, word,
    entryAddr_usedWord]
  rfl

/-- A new page table of a process. -/
theorem clearTable_page (page : KernelPage s.memory tables v f) (placed : Tables s tables) (left : Nat)
    (range : i + left = pageTableEntries) :
    ∃ m, clearTable v left i s = .ok ((), { s with memory := m }) ∧ SameLow s.memory m ∧
      (∀ j, i ≤ j → j < pageTableEntries → m.read32 (f * frameSize + 4 * j) = unusedWord) ∧
      ∀ b, b < f * frameSize + 4 * i ∨ f * frameSize + frameSize ≤ b → m.readByte b = s.memory.readByte b := by
  have above := page.above
  have frame : frameSize = 0x1000 := rfl
  have entries : pageTableEntries = 1024 := rfl
  induction left generalizing s i with
  | zero => exact ⟨s.memory, rfl, ⟨rfl, fun _ _ => rfl⟩, fun j from_ less => by omega, fun _ _ => rfl⟩
  | succ left ih =>
    obtain ⟨m, clear, wrote⟩ := clearEntry_run (page.resolves placed (show i < pageTableEntries by omega))
    have low := wrote.sameLow (by omega)
    obtain ⟨m', rest, same, words, bytes⟩ := ih (s := { s with memory := m }) (i := i + 1)
      (page.sameLow placed low) (tables_sameLow placed low) (by omega)
    refine ⟨m', ?_, low.trans same, fun j from_ less => ?_, fun b outside => ?_⟩
    · unfold clearTable
      rw [run_bind clear]
      exact rest
    · by_cases here : j = i
      · have kept := ByteMemory.read32_congr m m' (f * frameSize + 4 * i) fun n few => bytes _ (by omega)
        rw [here, kept, wrote.here]
      · exact words j (by omega) less
    · exact (bytes b (by omega)).trans (wrote.bytes b (by omega))

theorem sameLow_writeBytes {a : Nat} (m : ByteMemory) (bytes : List UInt8) (above : identityEnd ≤ a) :
    SameLow m (m.writeBytes a bytes) :=
  ⟨ByteMemory.origin_writeBytes bytes m a, fun b low => ByteMemory.readByte_writeBytes_outside bytes m a b (by omega)⟩

theorem memcpyTo_run {o : Nat} (bytes : List UInt8) (page : KernelPage s.memory tables v f) (placed : Tables s tables)
    (fits : o + bytes.length ≤ frameSize) :
    memcpyTo (v + o) bytes s =
      .ok ((), { s with memory := s.memory.writeBytes (f * frameSize + o) bytes }) := by
  have above := page.above
  induction bytes generalizing s o with
  | nil => rfl
  | cons b rest ih =>
    rw [List.length_cons] at fits
    have low := sameLow_writeBytes s.memory [b] (show identityEnd ≤ f * frameSize + o by omega)
    unfold memcpyTo
    rw [run_bind (page.run placed (by omega)), run_bind (run_modify _ _)]
    have tail := ih (s := { s with memory := s.memory.writeByte (f * frameSize + o) b }) (o := o + 1)
      (page.sameLow placed low) (tables_sameLow placed low) (by omega)
    rw [← Nat.add_assoc, ← Nat.add_assoc] at tail
    exact tail

/-- A page leaves the mapping of the kernel, and its frame stays occupied. -/
structure Detached (s : Paging) (tables : List Nat) (v : Nat) (m : ByteMemory) : Prop where
  paged : Paged { s with memory := m } tables
  kept : ∀ v' f, KernelPage s.memory tables v' f → v' ≠ v → KernelPage m tables v' f
  same : SameHigh s.memory m
  room : room s ≤ room { s with memory := m }

theorem detach_run (paged : Paged s tables) (page : KernelPage s.memory tables v f) :
    ∃ m, (do
      let table ← pageTable (v / 0x400000)
      clearEntry (table + 4 * (v / 0x1000 % 0x400))) s = .ok ((), { s with memory := m }) ∧
      Detached s tables v m := by
  obtain ⟨i, j, user, member, low, high, small, rfl, word⟩ := page.place
  obtain ⟨k, inside, rfl⟩ := List.mem_iff_getElem.mp member
  obtain ⟨table, place⟩ := pageAddr_parts (paged.placed.range _ member) small
  obtain ⟨m, clear, wrote⟩ := clearEntry_run (paged.placed.page inside small).1
  obtain ⟨placed, set⟩ := tables_wrote paged.placed inside small wrote
  refine ⟨m, ?_, ⟨placed, proper_set paged.proper set fun _ => rfl, paged.frames⟩, fun v' g kernel different => ?_,
    set.high, ?_⟩
  · rw [table, place, run_bind (pageTable_run paged.placed inside)]
    exact clear
  · obtain ⟨⟨i', j', user', member', low', high', small', rfl, word'⟩, lowG, highG⟩ := kernel
    rcases set.at (ordinary_user low' high') small' with ⟨rfl, rfl, _⟩ | ⟨_, same⟩
    · exact absurd rfl different
    · exact ⟨⟨i', j', user', member', low', high', small', rfl, same.trans word'⟩, lowG, highG⟩
  · have fewer : userPages m ⊆ userPages s.memory := fun p inside => by
      obtain ⟨area, mapped⟩ := Finset.mem_filter.mp inside
      obtain ⟨⟨low', high'⟩, small'⟩ := (mem_userArea p).mp area
      refine Finset.mem_filter.mpr ⟨area, fun free => mapped ?_⟩
      rcases set.at (ordinary_user low' high') small' with ⟨_, _, here⟩ | ⟨_, same⟩
      · exact here
      · exact same.trans free
    have count := Finset.card_le_card fewer
    show min (reachable s).length _ ≤ min (reachable s).length (766 * 1024 - (userPages m).card)
    omega

end

end Delos.Invariants
