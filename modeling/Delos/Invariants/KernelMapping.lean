import Mathlib.Data.Finset.Prod
import Mathlib.Data.Finset.Card
import Mathlib.Order.Interval.Finset.Nat
import Delos.Invariants.PageTables

/-!
# The mapping of the kernel

Behind `paging_init` the frames that are handed out are the ones of the mapped pages, each
of them once. A page that is mapped takes a frame that no page holds, and a page that is
unmapped gives its own back. With fewer tables than frames no frame ever has the number
that marks an unused entry.
-/
namespace Delos.Invariants
open Lib Source

/-- The frame belongs to a page outside the tables of loader.asm. -/
def Holds (m : ByteMemory) (f : Nat) : Prop :=
  ∃ i j, Ordinary i ∧ j < pageTableEntries ∧ pageWord m i j ≠ unusedWord ∧ entryAddr (pageWord m i j) = f

/-- `n` is the number of physical frames. -/
structure Mapping (n : Nat) (s : Paging) (tables : List Nat) : Prop where
  placed : Tables s tables
  words : ∀ i, Ordinary i → ∀ j < pageTableEntries, pageWord s.memory i j = unusedWord ∨
    ∃ f user, pageWord s.memory i j = usedWord f user ∧ f < unusedAddr ∧ f < 32 * s.framesBitmapSize ∧ Available n f
  apart : ∀ i j i' j', Ordinary i → Ordinary i' → j < pageTableEntries → j' < pageTableEntries →
    pageWord s.memory i j ≠ unusedWord → pageWord s.memory i' j' ≠ unusedWord →
      entryAddr (pageWord s.memory i j) = entryAddr (pageWord s.memory i' j') → i = i' ∧ j = j'
  bits : ∀ f < 32 * s.framesBitmapSize, s.frames.bit f = false ↔ Available n f ∧ ¬ Holds s.memory f
  size : s.framesBitmapSize = n / 32 + (if n % 32 ≠ 0 then 1 else 0)

section
variable {n : Nat} {s s' : Paging} {tables tables' : List Nat} {i j f user : Nat}

theorem Mapping.proper (inv : Mapping n s tables) : Proper s.memory := by
  intro i ordinary j small unused
  rcases inv.words i ordinary j small with free | ⟨f, user, word, narrow, _, _⟩
  · exact free
  · rw [word, entryAddr_usedWord] at unused
    exact absurd unused (Nat.ne_of_lt narrow)

/-- A page outside the tables of loader.asm, as a pair. -/
def ordinaryPages : Finset (Nat × Nat) :=
  ((Finset.range pageTableEntries).filter fun i => Ordinary i) ×ˢ Finset.range pageTableEntries

theorem card_ordinaryPages : ordinaryPages.card = 1021 * 1024 := by
  have rows : ((Finset.range pageTableEntries).filter fun i => Ordinary i).card = 1021 := by decide +kernel
  rw [ordinaryPages, Finset.card_product, rows, Finset.card_range]
  rfl

/-- More frames than pages are not all held. -/
theorem exists_not_held (m : ByteMemory) {a b : Nat} (many : 1021 * 1024 < b - a) :
    ∃ g, a ≤ g ∧ g < b ∧ ¬ Holds m g := by
  by_contra all
  push Not at all
  have covers : Set.SurjOn (fun p : Nat × Nat => entryAddr (pageWord m p.1 p.2)) ↑ordinaryPages ↑(Finset.Ico a b) := by
    intro g inside
    obtain ⟨low, high⟩ := Finset.mem_Ico.mp inside
    obtain ⟨i, j, ordinary, small, _, here⟩ := all g low high
    refine ⟨(i, j), ?_, here⟩
    simp [ordinaryPages, ordinary, ordinary.1, small]
  have less := Finset.card_le_card_of_surjOn _ covers
  rw [card_ordinaryPages, Nat.card_Ico] at less
  omega

/-- The lowest free frame is a frame, and no page holds it. -/
theorem Mapping.next (inv : Mapping n s tables) {rest : List Nat} (next : reachable s = f :: rest) :
    Available n f ∧ ¬ Holds s.memory f ∧ f < unusedAddr ∧ f < 32 * s.framesBitmapSize := by
  have member : f ∈ reachable s := by rw [next]; exact List.mem_cons_self
  obtain ⟨small, clear⟩ := Bitmap.mem_clears.mp member
  have size := inv.size
  have inside : f < 32 * s.framesBitmapSize := by omega
  obtain ⟨available, free⟩ := (inv.bits f inside).mp clear
  have top : unusedAddr = 0xFFFFF := rfl
  refine ⟨available, free, ?_, inside⟩
  obtain ⟨low, word⟩ := available
  by_cases memory : n < 0x100000
  · omega
  · -- all frames below it are held, and there are more of them than pages
    by_contra large
    obtain ⟨g, lowG, highG, notHeld⟩ := exists_not_held s.memory (a := 2048) (b := 0xFFFE0) (by decide)
    obtain ⟨h, lowest, isLowest⟩ := Bitmap.exists_lowest clear
    have head := Bitmap.clears_lowest (by decide) isLowest (show h < 32 * min s.framesBitmapSize framesCount by omega)
    obtain rfl : f = h := (List.cons.inj (next.symm.trans head)).1
    have set := isLowest.below g (by omega)
    rw [(inv.bits g (by omega)).mpr ⟨⟨lowG, .inl (by omega)⟩, notHeld⟩] at set
    exact Bool.false_ne_true set

theorem usedWord_entry (narrow : f < unusedAddr) (user : Nat) :
    usedWord f user ≠ unusedWord ∧ entryAddr (usedWord f user) = f :=
  ⟨usedWord_ne (Nat.ne_of_lt narrow) user, entryAddr_usedWord f user⟩

/-- The pages other than the one that is set are what they were. -/
theorem PageSet.at {m m' : ByteMemory} {word i' j' : Nat} (set : PageSet m m' i j word) (ordinary : Ordinary i')
    (small : j' < pageTableEntries) :
    (i' = i ∧ j' = j ∧ pageWord m' i' j' = word) ∨ ((i', j') ≠ (i, j) ∧ pageWord m' i' j' = pageWord m i' j') := by
  by_cases same : (i', j') = (i, j)
  · obtain ⟨rfl, rfl⟩ := Prod.mk.inj same
    exact .inl ⟨rfl, rfl, set.here⟩
  · exact .inr ⟨same, set.other i' ordinary.1 j' small same⟩

theorem holds_mapped {m m' : ByteMemory} (ordinary : Ordinary i) (small : j < pageTableEntries)
    (free : pageWord m i j = unusedWord) (narrow : f < unusedAddr) (set : PageSet m m' i j (usedWord f user))
    (g : Nat) : Holds m' g ↔ Holds m g ∨ g = f := by
  obtain ⟨used, addr⟩ := usedWord_entry narrow user
  constructor
  · rintro ⟨i', j', ordinary', small', mapped, here⟩
    rcases set.at ordinary' small' with ⟨_, _, word⟩ | ⟨_, word⟩
    · rw [word, addr] at here
      exact .inr here.symm
    · rw [word] at mapped here
      exact .inl ⟨i', j', ordinary', small', mapped, here⟩
  · rintro (⟨i', j', ordinary', small', mapped, here⟩ | rfl)
    · rcases set.at ordinary' small' with ⟨rfl, rfl, _⟩ | ⟨_, word⟩
      · exact absurd free mapped
      · exact ⟨i', j', ordinary', small', word ▸ mapped, word ▸ here⟩
    · exact ⟨i, j, ordinary, small, set.here ▸ used, set.here ▸ addr⟩

theorem mapping_new (inv : Mapping n s tables) (new : NewPage s user s' tables' i j f) : Mapping n s' tables' := by
  obtain ⟨rest, next⟩ := new.frame
  obtain ⟨available, notHeld, narrow, inside⟩ := inv.next next
  obtain ⟨used, addr⟩ := usedWord_entry narrow user
  have ordinary := new.placed.range i new.known
  have set := new.set
  have fresh : ∀ i' j', Ordinary i' → j' < pageTableEntries → pageWord s.memory i' j' ≠ unusedWord →
      entryAddr (pageWord s.memory i' j') ≠ f := fun i' j' ordinary' small' mapped here =>
    notHeld ⟨i', j', ordinary', small', mapped, here⟩
  refine ⟨new.placed, fun i' ordinary' j' small' => ?_, ?_, fun g small' => ?_, new.size.trans inv.size⟩
  · rw [new.size]
    rcases set.at ordinary' small' with ⟨_, _, word⟩ | ⟨_, word⟩
    · exact .inr ⟨f, user, word, narrow, inside, available⟩
    · rw [word]
      exact inv.words i' ordinary' j' small'
  · intro i₁ j₁ i₂ j₂ ordinary₁ ordinary₂ small₁ small₂ mapped₁ mapped₂ same
    rcases set.at ordinary₁ small₁ with ⟨rfl, rfl, word₁⟩ | ⟨_, word₁⟩
    · rcases set.at ordinary₂ small₂ with ⟨rfl, rfl, _⟩ | ⟨_, word₂⟩
      · exact ⟨rfl, rfl⟩
      · rw [word₂] at mapped₂ same
        rw [word₁, addr] at same
        exact absurd same.symm (fresh i₂ j₂ ordinary₂ small₂ mapped₂)
    · rcases set.at ordinary₂ small₂ with ⟨rfl, rfl, word₂⟩ | ⟨_, word₂⟩
      · rw [word₁] at mapped₁ same
        rw [word₂, addr] at same
        exact absurd same (fresh i₁ j₁ ordinary₁ small₁ mapped₁)
      · rw [word₁] at mapped₁ same
        rw [word₂] at mapped₂ same
        exact inv.apart i₁ j₁ i₂ j₂ ordinary₁ ordinary₂ small₁ small₂ mapped₁ mapped₂ same
  · rw [new.size] at small'
    rw [new.frames, Bitmap.bit_setBit (by decide), holds_mapped ordinary new.page new.free narrow set,
      Bool.or_eq_false_iff, inv.bits g small', decide_eq_false_iff_not, not_or]
    constructor
    · rintro ⟨other, reserved, free⟩
      exact ⟨reserved, free, fun same => other same.symm⟩
    · rintro ⟨reserved, free, other⟩
      exact ⟨fun same => other same.symm, reserved, free⟩

theorem holds_unmapped {m m' : ByteMemory} (unique : ∀ i' j', Ordinary i' → j' < pageTableEntries →
      pageWord m i' j' ≠ unusedWord → entryAddr (pageWord m i' j') = f → i' = i ∧ j' = j)
    (used : pageWord m i j = usedWord f user) (set : PageSet m m' i j unusedWord) (g : Nat) :
    Holds m' g ↔ Holds m g ∧ g ≠ f := by
  constructor
  · rintro ⟨i', j', ordinary', small', mapped, here⟩
    rcases set.at ordinary' small' with ⟨_, _, word⟩ | ⟨different, word⟩
    · exact absurd word mapped
    · rw [word] at mapped here
      refine ⟨⟨i', j', ordinary', small', mapped, here⟩, fun same => ?_⟩
      obtain ⟨rfl, rfl⟩ := unique i' j' ordinary' small' mapped (here.trans same)
      exact different rfl
  · rintro ⟨⟨i', j', ordinary', small', mapped, here⟩, other⟩
    rcases set.at ordinary' small' with ⟨rfl, rfl, _⟩ | ⟨_, word⟩
    · rw [used, entryAddr_usedWord] at here
      exact absurd here.symm other
    · exact ⟨i', j', ordinary', small', word ▸ mapped, word ▸ here⟩

/-- A page in use is unmapped. -/
theorem mapping_unmap (inv : Mapping n s tables) (member : i ∈ tables) (small : j < pageTableEntries)
    (used : pageWord s.memory i j ≠ unusedWord) :
    ∃ s', unmapPage (pageAddr i j) s = .ok ((), s') ∧ Mapping n s' tables ∧
      s'.frames = s.frames.clearBit (entryAddr (pageWord s.memory i j)) ∧
      PageSet s.memory s'.memory i j unusedWord := by
  have ordinary := inv.placed.range i member
  obtain ⟨f, user, word, narrow, inside, available⟩ := (inv.words i ordinary j small).resolve_left used
  obtain ⟨notUnused, addr⟩ := usedWord_entry narrow user
  obtain ⟨m, run, placed, set⟩ := unmapPage_run inv.placed member small word narrow
  have unique : ∀ i' j', Ordinary i' → j' < pageTableEntries → pageWord s.memory i' j' ≠ unusedWord →
      entryAddr (pageWord s.memory i' j') = f → i' = i ∧ j' = j := fun i' j' ordinary' small' mapped here =>
    inv.apart i' j' i j ordinary' ordinary small' small mapped used (here.trans (word ▸ addr.symm))
  have held : Holds s.memory f := ⟨i, j, ordinary, small, used, word ▸ addr⟩
  refine ⟨{ s with frames := s.frames.clearBit f, memory := m }, run,
    ⟨placed, fun i' ordinary' j' small' => ?_, ?_, fun g small' => ?_, inv.size⟩, by rw [word, addr], set⟩
  · rcases set.at ordinary' small' with ⟨_, _, free⟩ | ⟨_, same⟩
    · exact .inl free
    · show pageWord m i' j' = _ ∨ _
      rw [same]
      exact inv.words i' ordinary' j' small'
  · intro i₁ j₁ i₂ j₂ ordinary₁ ordinary₂ small₁ small₂ mapped₁ mapped₂ same
    rcases set.at ordinary₁ small₁ with ⟨_, _, free⟩ | ⟨_, word₁⟩
    · exact absurd free mapped₁
    · rcases set.at ordinary₂ small₂ with ⟨_, _, free⟩ | ⟨_, word₂⟩
      · exact absurd free mapped₂
      · dsimp only at mapped₁ mapped₂ same
        rw [word₁] at mapped₁ same
        rw [word₂] at mapped₂ same
        exact inv.apart i₁ j₁ i₂ j₂ ordinary₁ ordinary₂ small₁ small₂ mapped₁ mapped₂ same
  · show (s.frames.clearBit f).bit g = false ↔ Available n g ∧ ¬ Holds m g
    rw [Bitmap.bit_clearBit (by decide), holds_unmapped unique word set, Bool.and_eq_false_iff, inv.bits g small',
      Bool.not_eq_eq_eq_not, Bool.not_false, decide_eq_true_eq]
    constructor
    · rintro (rfl | ⟨reserved, free⟩)
      · exact ⟨available, fun holds => holds.2 rfl⟩
      · exact ⟨reserved, fun holds => free holds.1⟩
    · rintro ⟨reserved, free⟩
      by_cases same : f = g
      · exact .inl same
      · exact .inr ⟨reserved, fun holds => free ⟨holds, fun here => same here.symm⟩⟩

/-! ## paging_init -/

theorem reachable_new (new : NewPage s user s' tables' i j f) : (reachable s').length + 1 = (reachable s).length := by
  obtain ⟨rest, next⟩ := new.frame
  obtain ⟨_, left⟩ := allocateFrame_reachable next
  have same : reachable s' = rest := by
    rw [← left, reachable, reachable, new.frames, new.size]
  rw [same, next, List.length_cons]

theorem noFrame_new (new : NewPage s user s' tables' i j f) : noFrame s' = noFrame s := by
  rw [noFrame, noFrame, new.size]

/-- The pages of one table. -/
theorem mapPages_run {allowed : MapFault → Prop} (left : Nat) (inv : Mapping n s tables) (member : i ∈ tables)
    (range : j + left = pageTableEntries)
    (free : ∀ j', j ≤ j' → j' < pageTableEntries → pageWord s.memory i j' = unusedWord)
    (out : (reachable s).length < left → allowed (noFrame s)) :
    Meets allowed (mapPages i left j) s fun _ s' => Mapping n s' tables ∧ noFrame s' = noFrame s ∧
      (reachable s').length + left = (reachable s).length := by
  induction left generalizing s j with
  | zero => exact meets_pure.mpr ⟨inv, rfl, rfl⟩
  | succ left ih =>
    unfold mapPages
    cases next : reachable s with
    | nil =>
      unfold Meets
      rw [run_stop (allocatePageAt_stops next i j 1)]
      exact out (by rw [next]; exact Nat.succ_pos left)
    | cons f rest =>
      have small : j < pageTableEntries := by omega
      obtain ⟨m, run, placed, set⟩ := allocatePageAt_run inv.placed member small (free j (Nat.le_refl _) small) next
        (Nat.le_of_lt (inv.next next).2.2.1) 1
      have new : NewPage s 1 { s with frames := s.frames.setBit f, memory := m } tables i j f :=
        ⟨small, free j (Nat.le_refl _) small, ⟨rest, next⟩, rfl, rfl, member, placed, set⟩
      have taken := reachable_new new
      rw [meets_next run]
      apply meets_mono (ih (mapping_new inv new) (by omega) ?_ ?_)
      · rintro _ s' ⟨inv', reason, count⟩
        exact ⟨inv', reason.trans (noFrame_new new), by rw [← next]; omega⟩
      · intro j' from_ small'
        have ordinary := inv.placed.range i member
        rcases set.at ordinary small' with ⟨_, here, _⟩ | ⟨_, same⟩
        · omega
        · exact same.trans (free j' (by omega) small')
      · intro less
        rw [noFrame_new new]
        exact out (by omega)

/-- New tables, all of whose pages are mapped. -/
theorem mapTables_run {allowed : MapFault → Prop} (left : Nat) (inv : Mapping n s tables)
    (fresh : ∀ i', i ≤ i' → i' < i + left → Ordinary i' ∧ i' ∉ tables)
    (out : (reachable s).length < left * pageTableEntries → allowed (noFrame s)) :
    Meets allowed (mapTables left i) s fun _ s' => (∃ tables', Mapping n s' tables' ∧
      ∀ t, t ∈ tables' → t ∈ tables ∨ (i ≤ t ∧ t < i + left)) ∧ noFrame s' = noFrame s ∧
      (reachable s').length + left * pageTableEntries = (reachable s).length := by
  induction left generalizing s tables i with
  | zero => exact meets_pure.mpr ⟨⟨tables, inv, fun t inside => .inl inside⟩, rfl, by omega⟩
  | succ left ih =>
    obtain ⟨ordinary, new⟩ := fresh i (Nat.le_refl _) (by omega)
    obtain ⟨v, made, create, frames, size, placed, pages, _⟩ := allocatePageTable_new inv.placed ordinary new 1
    have reach : reachable made = reachable s := by rw [reachable, reachable, frames, size]
    have reason : noFrame made = noFrame s := by rw [noFrame, noFrame, size]
    have holds : ∀ f, Holds made.memory f ↔ Holds s.memory f := fun f => by
      constructor
      · rintro ⟨i', j, ordinary', small, mapped, here⟩
        rw [pages i' ordinary'.1 j small] at mapped here
        exact ⟨i', j, ordinary', small, mapped, here⟩
      · rintro ⟨i', j, ordinary', small, mapped, here⟩
        rw [← pages i' ordinary'.1 j small] at mapped here
        exact ⟨i', j, ordinary', small, mapped, here⟩
    have invMade : Mapping n made (tables ++ [i]) := by
      refine ⟨placed, fun i' ordinary' j small => ?_, ?_, fun f small => ?_, size.trans inv.size⟩
      · rw [pages i' ordinary'.1 j small, size]
        exact inv.words i' ordinary' j small
      · intro i₁ j₁ i₂ j₂ ordinary₁ ordinary₂ small₁ small₂
        rw [pages i₁ ordinary₁.1 j₁ small₁, pages i₂ ordinary₂.1 j₂ small₂]
        exact inv.apart i₁ j₁ i₂ j₂ ordinary₁ ordinary₂ small₁ small₂
      · rw [size] at small
        rw [frames, holds]
        exact inv.bits f small
    have absent : ∀ j < pageTableEntries, pageWord made.memory i j = unusedWord := fun j small => by
      rw [pages i ordinary.1 j small, pageWord, inv.placed.unused i ordinary new, if_pos entryAddr_unusedWord]
    unfold mapTables
    rw [meets_next create]
    have known : i ∈ tables ++ [i] := List.mem_append_right _ List.mem_cons_self
    apply meets_call (mapPages_run pageTableEntries invMade known (Nat.zero_add _) (fun j _ => absent j) ?_)
    · rintro _ filled ⟨invFilled, reasonFilled, count⟩
      rw [reach] at count
      have later : ∀ i', i + 1 ≤ i' → i' < i + 1 + left → Ordinary i' ∧ i' ∉ tables ++ [i] := fun i' low high => by
        obtain ⟨ordinary', outside⟩ := fresh i' (by omega) (by omega)
        refine ⟨ordinary', fun inside => ?_⟩
        rcases List.mem_append.mp inside with old | last
        · exact outside old
        · have := List.mem_singleton.mp last
          omega
      have enough : (reachable filled).length < left * pageTableEntries → allowed (noFrame filled) := fun less => by
        rw [reasonFilled, reason]
        apply out
        rw [Nat.add_mul]
        omega
      apply meets_mono (ih invFilled later enough)
      rintro _ s' ⟨⟨tables', inv', new'⟩, reason', count'⟩
      refine ⟨⟨tables', inv', fun t inside => ?_⟩, reason'.trans (reasonFilled.trans reason), by
        rw [Nat.add_mul]; omega⟩
      rcases new' t inside with old | ⟨low, high⟩
      · rcases List.mem_append.mp old with old | last
        · exact .inl old
        · rw [List.mem_singleton.mp last]
          exact .inr ⟨Nat.le_refl _, by omega⟩
      · exact .inr ⟨by omega, by omega⟩
    · intro less
      rw [reason]
      apply out
      rw [reach] at less
      rw [Nat.add_mul]
      omega

theorem clearDir_run (left : Nat) (range : i + left = pageTableEntries) (origin : s.memory.origin ≤ pageDirAddr)
    (loader : LoaderTables s.memory) :
    ∃ m, clearDir left i s = .ok ((), { s with memory := m }) ∧ m.origin = s.memory.origin ∧ LoaderTables m ∧
      (∀ i', i ≤ i' → Ordinary i' → m.read32 (dirEntry i') = unusedWord) ∧
      ∀ i' < i, m.read32 (dirEntry i') = s.memory.read32 (dirEntry i') := by
  induction left generalizing s i with
  | zero => exact ⟨s.memory, rfl, rfl, loader, fun i' low ordinary => absurd ordinary.1 (by omega), fun _ _ => rfl⟩
  | succ left ih =>
    unfold clearDir
    by_cases special : i = 0 ∨ i = 1 ∨ i = 768
    · obtain ⟨m, run, same, loader', words, before⟩ := ih (i := i + 1) (by omega) origin loader
      rw [if_pos special]
      refine ⟨m, run, same, loader', fun i' low ordinary => ?_, fun i' less => before i' (by omega)⟩
      have : i' ≠ i := by
        rintro rfl
        unfold Ordinary at ordinary
        omega
      exact words i' (by omega) ordinary
    · have low := dirEntry_low (show i < pageTableEntries by omega)
      obtain ⟨m, clear, wrote⟩ := clearEntry_run (resolves_identity (s := s) (a := dirEntry i)
        (by unfold identityEnd; omega) (origin.trans low.1))
      have others : ∀ i', i' ≠ i → m.read32 (dirEntry i') = s.memory.read32 (dirEntry i') := fun i' different =>
        wrote.other (by unfold dirEntry; omega)
      obtain ⟨m', run, same, loader', words, before⟩ := ih (s := { s with memory := m }) (i := i + 1) (by omega)
        (wrote.origin.trans_le origin)
        ⟨by rw [others 0 (by omega)]; exact loader.first, by rw [others 1 (by omega)]; exact loader.second,
          by rw [others 768 (by omega)]; exact loader.kernel⟩
      rw [if_neg special, run_bind clear]
      refine ⟨m', run, same.trans wrote.origin, loader', fun i' low' ordinary => ?_, fun i' less => ?_⟩
      · by_cases here : i' = i
        · rw [here, before i (by omega)]
          exact wrote.here
        · exact words i' (by omega) ordinary
      · rw [before i' (by omega)]
        exact others i' (by omega)

/-- The state before `paging_init`: the directory as loader.asm leaves it. -/
structure LoaderState (start : Paging) : Prop where
  origin : start.memory.origin ≤ pageDirAddr
  loader : LoaderTables start.memory

/-- The reasons to stop while there are frames: none but the two ends of the bitmap. -/
def RunsOut (n : Nat) (e : MapFault) : Prop := e = .panic ∨ e = .wildFrame ∧ 32 * framesCount < n

theorem runsOut_noFrame (size : s.framesBitmapSize = n / 32 + (if n % 32 ≠ 0 then 1 else 0)) :
    RunsOut n (noFrame s) := by
  unfold RunsOut noFrame
  by_cases inside : s.framesBitmapSize ≤ framesCount
  · rw [if_pos inside]
    exact .inl rfl
  · rw [if_neg inside]
    refine .inr ⟨rfl, ?_⟩
    by_cases whole : n % 32 = 0
    · rw [if_neg (not_not.mpr whole)] at size
      omega
    · rw [if_pos whole] at size
      omega

theorem pagingInit_run {start : Paging} {allowed : MapFault → Prop} (physicalMemSize kernelSize : Nat)
    (state : LoaderState start)
    (beyond : physicalFrames physicalMemSize kernelSize % 32 ≠ 0 →
      framesCount ≤ physicalFrames physicalMemSize kernelSize / 32 → allowed .wildFrame)
    (out : ∀ s : Paging, s.framesBitmapSize = physicalFrames physicalMemSize kernelSize / 32 +
        (if physicalFrames physicalMemSize kernelSize % 32 ≠ 0 then 1 else 0) →
      (∀ f, f < 32 * s.framesBitmapSize →
        (s.frames.bit f = false ↔ Available (physicalFrames physicalMemSize kernelSize) f)) →
      (reachable s).length < 10 * pageTableEntries → allowed (noFrame s)) :
    Meets allowed (pagingInit physicalMemSize kernelSize) start fun _ s =>
      ∃ tables, Mapping (physicalFrames physicalMemSize kernelSize) s tables := by
  unfold pagingInit
  by_cases inside : physicalFrames physicalMemSize kernelSize % 32 = 0 ∨
      physicalFrames physicalMemSize kernelSize / 32 < framesCount
  · obtain ⟨s, init, _, memory, size, bits⟩ := initFrames_run start physicalMemSize kernelSize inside
    have origin : s.memory.origin ≤ pageDirAddr := by
      rw [memory]
      exact state.origin
    have loader : LoaderTables s.memory := by
      rw [memory]
      exact state.loader
    obtain ⟨m, clear, same, loader', words, _⟩ := clearDir_run (s := s) (i := 0) pageTableEntries (Nat.zero_add _)
      origin loader
    have absent : ∀ i, Ordinary i → ∀ j, pageWord m i j = unusedWord := fun i ordinary j => by
      rw [pageWord, words i (Nat.zero_le _) ordinary, if_pos entryAddr_unusedWord]
    have none : ∀ f, ¬ Holds m f := by
      rintro f ⟨i, j, ordinary, _, mapped, _⟩
      exact mapped (absent i ordinary j)
    have empty : Mapping (physicalFrames physicalMemSize kernelSize)
        { s with memory := m, lastPageTableAddr := pageTableStartAddr } [] := by
      refine ⟨⟨same.trans_le origin, loader', List.nodup_nil, by simp, rfl, ?_, ?_⟩, ?_, ?_, ?_, size⟩
      · intro k h
        exact absurd h (Nat.not_lt_zero k)
      · exact fun i ordinary _ => words i (Nat.zero_le _) ordinary
      · exact fun i ordinary j _ => .inl (absent i ordinary j)
      · intro i j _ _ ordinary _ _ _ mapped
        exact absurd (absent i ordinary j) mapped
      · intro f small
        rw [bits f small]
        exact ⟨fun available => ⟨available, none f⟩, And.left⟩
    have enough := out s size bits
    rw [meets_next init, meets_next clear, meets_next (run_modify _ _)]
    have reach : reachable { s with memory := m, lastPageTableAddr := pageTableStartAddr } = reachable s := rfl
    have heap : ∀ i', kernelHeapStartPage ≤ i' → i' < kernelHeapStartPage + 5 → Ordinary i' ∧ i' ∉ ([] : List Nat) :=
      fun i' low high => by
        unfold kernelHeapStartPage at low high
        exact ⟨by unfold Ordinary pageTableEntries; omega, List.not_mem_nil⟩
    apply meets_call (mapTables_run 5 empty heap fun less => enough (by rw [reach] at less; omega))
    rintro _ mapped ⟨⟨tables, inv, old⟩, reason, count⟩
    rw [reach] at count
    have filesystem : ∀ i', fsStartPage ≤ i' → i' < fsStartPage + 5 → Ordinary i' ∧ i' ∉ tables :=
      fun i' low high => by
        unfold fsStartPage at low high
        refine ⟨by unfold Ordinary pageTableEntries; omega, fun inside => ?_⟩
        rcases old i' inside with none | ⟨_, high'⟩
        · exact absurd none List.not_mem_nil
        · unfold kernelHeapStartPage at high'
          omega
    have more : (reachable mapped).length < 5 * pageTableEntries → allowed (noFrame mapped) := fun less => by
      rw [reason]
      exact enough (by omega)
    apply meets_mono (mapTables_run 5 inv filesystem more)
    rintro _ s' ⟨⟨tables', inv', _⟩, _⟩
    exact ⟨tables', inv'⟩
  · rw [not_or, not_lt] at inside
    unfold Meets
    rw [run_stop (initFrames_beyond start inside.1 inside.2)]
    exact beyond inside.1 inside.2

end

end Delos.Invariants
