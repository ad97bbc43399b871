import Delos.Lib.TwoLevel
import Delos.Invariants.KernelPages

/-!
# The page tables of a process

The page directory and the page tables of a process are pages of the kernel. Their frames
and the frames in their entries are taken, and no frame has two places. `TwoLevel` says
what the entries lead to; the invariant connects it to the words in memory.
-/
namespace Delos.Invariants
open Lib Source

/-- The word of an entry in the frame of a directory or of a table. -/
def entryWord (m : ByteMemory) (f j : Nat) : Nat := m.read32 (f * frameSize + 4 * j)

/-- The frames of the tables. -/
abbrev tableFrames (tabs : List (Nat × Nat)) : List Nat := tabs.map Prod.snd

abbrev Space := TwoLevel Nat Nat Nat Nat

/-- `dir` and the first components of `tabs` are where the kernel has the directory in frame
`d` and the tables mapped. -/
structure ProcessTables (s : Paging) (tables : List Nat) (dir d : Nat) (tabs : List (Nat × Nat)) (m : Space) : Prop where
  paged : Paged s tables
  dirPage : KernelPage s.memory tables dir d
  tablePages : ∀ t ∈ tabs, KernelPage s.memory tables t.1 t.2
  distinct : (d :: tableFrames tabs).Nodup
  taken : ∀ f ∈ d :: tableFrames tabs, f ∉ reachable s
  dirs : ∀ i t, m.dir i = some t → i < pageTableEntries ∧ t ∈ tableFrames tabs ∧ Maps (entryWord s.memory d i) t
  cells : ∀ t j g, m.cell t j = some g → t ∈ tableFrames tabs ∧ j < pageTableEntries ∧ Maps (entryWord s.memory t j) g
  absent : ∀ t ∈ tableFrames tabs, ∀ j < pageTableEntries, m.cell t j = none → entryWord s.memory t j = unusedWord
  data : ∀ t j g, m.cell t j = some g →
    2048 ≤ g ∧ g < unusedAddr ∧ g ∉ reachable s ∧ g ∉ d :: tableFrames tabs
  separate : m.Separate

section
variable {s s' : Paging} {tables tables' : List Nat} {dir d v f g i j t : Nat} {tabs : List (Nat × Nat)} {m : Space}

/-- The bytes of a frame. -/
def SameFrame (memory memory' : ByteMemory) (f : Nat) : Prop :=
  ∀ o < frameSize, memory'.readByte (f * frameSize + o) = memory.readByte (f * frameSize + o)

theorem SameFrame.entry {memory memory' : ByteMemory} (same : SameFrame memory memory' f) (small : j < pageTableEntries) :
    entryWord memory' f j = entryWord memory f j := by
  unfold pageTableEntries at small
  refine ByteMemory.read32_congr memory memory' _ fun n few => ?_
  rw [Nat.add_assoc]
  exact same _ (by unfold frameSize; omega)

/-- What does not touch the frames of the tables. -/
theorem ProcessTables.frame (inv : ProcessTables s tables dir d tabs m) (paged : Paged s' tables')
    (pages : ∀ v, ∀ f ∈ d :: tableFrames tabs, KernelPage s.memory tables v f → KernelPage s'.memory tables' v f)
    (words : ∀ f ∈ d :: tableFrames tabs, SameFrame s.memory s'.memory f)
    (free : ∀ f ∈ reachable s', f ∈ reachable s) : ProcessTables s' tables' dir d tabs m := by
  have table : ∀ t ∈ tabs, t.2 ∈ tableFrames tabs := fun t inside => List.mem_map_of_mem inside
  refine ⟨paged, pages _ d List.mem_cons_self inv.dirPage, fun t inside => ?_, inv.distinct, fun f inside later => ?_,
    fun i t here => ?_, fun t j g here => ?_, fun t inside j small here => ?_, fun t j g here => ?_, inv.separate⟩
  · exact pages _ t.2 (List.mem_cons_of_mem _ (table t inside)) (inv.tablePages t inside)
  · exact inv.taken f inside (free f later)
  · obtain ⟨small, inside, word⟩ := inv.dirs i t here
    rw [← (words d List.mem_cons_self).entry small] at word
    exact ⟨small, inside, word⟩
  · obtain ⟨inside, small, word⟩ := inv.cells t j g here
    rw [← (words t (List.mem_cons_of_mem _ inside)).entry small] at word
    exact ⟨inside, small, word⟩
  · rw [(words t (List.mem_cons_of_mem _ inside)).entry small]
    exact inv.absent t inside j small here
  · obtain ⟨low, high, taken, apart⟩ := inv.data t j g here
    exact ⟨low, high, fun later => taken (free g later), apart⟩

theorem SameHigh.frame {memory memory' : ByteMemory} (same : SameHigh memory memory') (low : 2048 ≤ f) :
    SameFrame memory memory' f := fun o _ => same _ (by unfold identityEnd frameSize; omega)

/-- The frames of the tables can be handed out no more, and are behind the reserved ones. -/
theorem ProcessTables.low (inv : ProcessTables s tables dir d tabs m) : ∀ f ∈ d :: tableFrames tabs, 2048 ≤ f := by
  intro f inside
  rcases List.mem_cons.mp inside with rfl | inside
  · exact inv.dirPage.low
  · obtain ⟨t, member, rfl⟩ := List.mem_map.mp inside
    exact (inv.tablePages t member).low

theorem ProcessTables.allocated (inv : ProcessTables s tables dir d tabs m)
    (new : Allocated s tables v g s' tables') : ProcessTables s' tables' dir d tabs m :=
  inv.frame new.paged (fun v' f _ page => (new.kept v' f page).1) (fun f inside => new.same.frame (inv.low f inside))
    fun f inside => new.frame ▸ List.mem_cons_of_mem _ inside

/-- A frame that is handed out has no place yet. -/
structure NewFrame (s' : Paging) (d : Nat) (tabs : List (Nat × Nat)) (m : Space) (g : Nat) : Prop where
  low : 2048 ≤ g
  high : g < unusedAddr
  taken : g ∉ reachable s'
  apart : g ∉ d :: tableFrames tabs
  unseen : ∀ t j, m.cell t j ≠ some g

theorem ProcessTables.fresh (inv : ProcessTables s tables dir d tabs m) (new : Allocated s tables v g s' tables') :
    NewFrame s' d tabs m g := by
  have member : g ∈ reachable s := new.frame ▸ List.mem_cons_self
  have nodup := Bitmap.clears_nodup s.frames (32 * min s.framesBitmapSize framesCount)
  rw [show s.frames.clears _ = g :: reachable s' from new.frame, List.nodup_cons] at nodup
  exact ⟨new.page.low, new.page.high, nodup.1, fun inside => inv.taken g inside member,
    fun t j here => (inv.data t j g here).2.2.1 member⟩

/-! ## Writing entries -/

theorem Wrote.sameFrame {memory memory' : ByteMemory} {word : Nat}
    (wrote : Wrote memory memory' (f * frameSize + 4 * j) word) (small : j < pageTableEntries) (other : g ≠ f) :
    SameFrame memory memory' g := by
  intro o less
  unfold pageTableEntries at small
  apply wrote.bytes
  unfold frameSize at less ⊢
  omega

theorem Wrote.entry {memory memory' : ByteMemory} {word i : Nat}
    (wrote : Wrote memory memory' (f * frameSize + 4 * j) word) :
    entryWord memory' f i = if i = j then word else entryWord memory f i := by
  by_cases same : i = j
  · rw [if_pos same, same]
    exact wrote.here
  · rw [if_neg same]
    exact wrote.other (by omega)

theorem ProcessTables.sameLow {memory : ByteMemory} (inv : ProcessTables s tables dir d tabs m)
    (low : SameLow s.memory memory) (words : ∀ f ∈ d :: tableFrames tabs, SameFrame s.memory memory f) :
    ProcessTables { s with memory := memory } tables dir d tabs m :=
  inv.frame (paged_sameLow inv.paged low)
    (fun _ _ _ page => page.sameLow inv.paged.placed low) words fun _ inside => inside

/-- A directory entry gets a table. -/
theorem ProcessTables.setDir {memory : ByteMemory} {word : Nat} (inv : ProcessTables s tables dir d tabs m)
    (inside : t ∈ tableFrames tabs) (small : i < pageTableEntries) (maps : Maps word t)
    (wrote : Wrote s.memory memory (d * frameSize + 4 * i) word) :
    ProcessTables { s with memory := memory } tables dir d tabs (m.setDir i t) := by
  have low := wrote.sameLow (inv.dirPage.above.trans (Nat.le_add_right _ _))
  have other : ∀ f ∈ tableFrames tabs, SameFrame s.memory memory f := fun f inside =>
    wrote.sameFrame small fun same => (List.nodup_cons.mp inv.distinct).1 (same ▸ inside)
  refine ⟨paged_sameLow inv.paged low, inv.dirPage.sameLow inv.paged.placed low,
    fun t inside => (inv.tablePages t inside).sameLow inv.paged.placed low, inv.distinct, inv.taken,
    fun i' t' here => ?_, fun t j g here => ?_, fun t inside j small here => ?_, inv.data, inv.separate⟩
  · rw [TwoLevel.dir_setDir] at here
    show _ ∧ _ ∧ Maps (entryWord memory d i') t'
    rw [wrote.entry]
    by_cases same : i' = i
    · rw [if_pos same] at here ⊢
      obtain rfl := Option.some.inj here
      exact ⟨same ▸ small, inside, maps⟩
    · rw [if_neg same] at here ⊢
      exact inv.dirs i' t' here
  · obtain ⟨inside, small, word⟩ := inv.cells t j g here
    rw [← (other t inside).entry small] at word
    exact ⟨inside, small, word⟩
  · exact ((other t inside).entry small).trans (inv.absent t inside j small here)

/-- A page of the process gets a frame that has no place yet. -/
theorem ProcessTables.setCell {memory : ByteMemory} {word : Nat} (inv : ProcessTables s tables dir d tabs m)
    (fresh : NewFrame s d tabs m g) (inside : t ∈ tableFrames tabs) (small : j < pageTableEntries) (maps : Maps word g)
    (wrote : Wrote s.memory memory (t * frameSize + 4 * j) word) :
    ProcessTables { s with memory := memory } tables dir d tabs (m.setCell t j g) := by
  obtain ⟨tab, member, frame⟩ := List.mem_map.mp inside
  have above := (inv.tablePages tab member).above
  rw [frame] at above
  have low := wrote.sameLow (above.trans (Nat.le_add_right _ _))
  have notDir : d ≠ t := fun same => (List.nodup_cons.mp inv.distinct).1 (same ▸ inside)
  have words : ∀ t' ∈ tableFrames tabs, ∀ j' < pageTableEntries,
      entryWord memory t' j' = if t' = t ∧ j' = j then word else entryWord s.memory t' j' := fun t' _ j' small' => by
    by_cases same : t' = t
    · rw [same, wrote.entry]
      by_cases place : j' = j
      · rw [if_pos place, if_pos ⟨rfl, place⟩]
      · rw [if_neg place, if_neg fun both => place both.2]
    · rw [if_neg fun both => same both.1, (wrote.sameFrame small same).entry small']
  refine ⟨paged_sameLow inv.paged low, inv.dirPage.sameLow inv.paged.placed low,
    fun t inside => (inv.tablePages t inside).sameLow inv.paged.placed low, inv.distinct, inv.taken,
    fun i t' here => ?_, fun t' j' g' here => ?_, fun t' inside' j' small' here => ?_, fun t' j' g' here => ?_,
    TwoLevel.separate_setCell inv.separate fresh.unseen⟩
  · obtain ⟨range, inside', maps'⟩ := inv.dirs i t' here
    rw [← (wrote.sameFrame small notDir).entry range] at maps'
    exact ⟨range, inside', maps'⟩
  · rw [TwoLevel.cell_setCell] at here
    show _ ∧ _ ∧ Maps (entryWord memory t' j') g'
    by_cases same : t' = t ∧ j' = j
    · rw [if_pos same] at here
      obtain rfl := Option.some.inj here
      rw [same.1, same.2, words t inside j small, if_pos ⟨rfl, rfl⟩]
      exact ⟨inside, small, maps⟩
    · rw [if_neg same] at here
      obtain ⟨inside', small', maps'⟩ := inv.cells t' j' g' here
      rw [words t' inside' j' small', if_neg same]
      exact ⟨inside', small', maps'⟩
  · rw [TwoLevel.cell_setCell] at here
    by_cases same : t' = t ∧ j' = j
    · rw [if_pos same] at here
      cases here
    · rw [if_neg same] at here
      exact (words t' inside' j' small').trans ((if_neg same).trans (inv.absent t' inside' j' small' here))
  · rw [TwoLevel.cell_setCell] at here
    by_cases same : t' = t ∧ j' = j
    · rw [if_pos same] at here
      obtain rfl := Option.some.inj here
      exact ⟨fresh.low, fresh.high, fresh.taken, fresh.apart⟩
    · rw [if_neg same] at here
      exact inv.data t' j' g' here

/-- A new table without pages. -/
theorem ProcessTables.addTable (inv : ProcessTables s tables dir d tabs m) (fresh : NewFrame s d tabs m t)
    (page : KernelPage s.memory tables v t) (clear : ∀ j < pageTableEntries, entryWord s.memory t j = unusedWord) :
    ProcessTables s tables dir d (tabs ++ [(v, t)]) m := by
  have frames : tableFrames (tabs ++ [(v, t)]) = tableFrames tabs ++ [t] := List.map_append
  have old : ∀ {f}, f ∈ tableFrames tabs → f ∈ tableFrames (tabs ++ [(v, t)]) := fun inside =>
    frames ▸ List.mem_append_left _ inside
  have split : ∀ {f}, f ∈ d :: tableFrames (tabs ++ [(v, t)]) → f ∈ d :: tableFrames tabs ∨ f = t := fun inside => by
    rw [frames, ← List.cons_append] at inside
    exact (List.mem_append.mp inside).imp_right List.mem_singleton.mp
  refine ⟨inv.paged, inv.dirPage, fun t' inside => ?_, ?_, fun f inside => ?_, fun i t' here => ?_, fun t' j g here => ?_,
    fun t' inside j small here => ?_, fun t' j g here => ?_, inv.separate⟩
  · rcases List.mem_append.mp inside with inside | last
    · exact inv.tablePages t' inside
    · rw [List.mem_singleton.mp last]
      exact page
  · rw [frames, ← List.cons_append]
    exact List.nodup_append.mpr ⟨inv.distinct, List.nodup_singleton t, fun a inside b last => by
      rw [List.mem_singleton.mp last]
      exact fun same => fresh.apart (same ▸ inside)⟩
  · rcases split inside with inside | rfl
    · exact inv.taken f inside
    · exact fresh.taken
  · obtain ⟨small, inside, maps⟩ := inv.dirs i t' here
    exact ⟨small, old inside, maps⟩
  · obtain ⟨inside, small, maps⟩ := inv.cells t' j g here
    exact ⟨old inside, small, maps⟩
  · rw [frames] at inside
    rcases List.mem_append.mp inside with inside | last
    · exact inv.absent t' inside j small here
    · rw [List.mem_singleton.mp last]
      exact clear j small
  · obtain ⟨low, high, taken, apart⟩ := inv.data t' j g here
    refine ⟨low, high, taken, fun inside => ?_⟩
    rcases split inside with inside | same
    · exact apart inside
    · exact fresh.unseen t' j (here.trans (congrArg some same))

end

end Delos.Invariants
