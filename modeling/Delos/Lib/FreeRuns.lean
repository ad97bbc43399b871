import Delos.Lib.BlockList

/-!
# Runs of free blocks

First fit with one lazy merge does not test a run of free neighbours as a whole.
It joins the first block of a maximal run with the second, the third with the
fourth and so on, and tests each join. `allocate_pair` and `pair_allocate` say
that an allocation succeeds exactly when one of these joins is large enough.
-/
namespace Delos.Lib

def totalSize (bs : List Block) : Nat := (bs.map Block.size).sum

/-- Neighbours in the list that are all free. -/
def FreeRun (bs run : List Block) : Prop := run <:+: bs ∧ ∀ b ∈ run, b.free = true

/-- Nothing, or a stretch whose last block is in use. -/
def EndsInUse (before : List Block) : Prop := ∀ b ∈ before.getLast?, b.free = false

/-- One free block or two free neighbours, an even number of free blocks after
the start of their maximal run. -/
structure ScanPair (bs pair : List Block) : Prop where
  split : ∃ before lead after, bs = before ++ (lead ++ (pair ++ after)) ∧ EndsInUse before ∧
    lead.length % 2 = 0 ∧ ∀ b ∈ lead ++ pair, b.free = true
  nonempty : pair ≠ []
  short : pair.length ≤ 2

section
variable {header needed : Nat} {b c : Block} {bs rest pair : List Block}

theorem ScanPair.free (scanned : ScanPair bs pair) : ∀ d ∈ pair, d.free = true := by
  obtain ⟨before, lead, after, _, _, _, free⟩ := scanned.split
  intro d member
  exact free d (List.mem_append_right _ member)

theorem ScanPair.run (scanned : ScanPair bs pair) : FreeRun bs pair := by
  obtain ⟨before, lead, after, rfl, _, _, _⟩ := scanned.split
  exact ⟨⟨before ++ lead, after, by simp⟩, scanned.free⟩

theorem endsInUse_cons {before : List Block} (some_before : before ≠ []) :
    EndsInUse (b :: before) ↔ EndsInUse before := by
  unfold EndsInUse
  rw [List.getLast?_cons_of_ne_nil some_before]

theorem endsInUse_single : EndsInUse [b] ↔ b.free = false := by
  simp [EndsInUse]

theorem scanPair_nil : ¬ ScanPair [] pair := by
  intro scanned
  obtain ⟨before, lead, after, whole, _⟩ := scanned.split
  have nothing := List.append_eq_nil_iff.mp (List.append_eq_nil_iff.mp
    (List.append_eq_nil_iff.mp whole.symm).2).2
  exact scanned.nonempty nothing.1

/-- A block in use starts no run. -/
theorem scanPair_used (used : b.free = false) : ScanPair (b :: rest) pair ↔ ScanPair rest pair := by
  constructor
  · intro scanned
    obtain ⟨before, lead, after, whole, ends, even, free⟩ := scanned.split
    refine ⟨?_, scanned.nonempty, scanned.short⟩
    cases before with
    | nil =>
      -- then the block would be free
      exfalso
      have first : b ∈ lead ++ pair := by
        cases lead with
        | nil =>
          cases pair with
          | nil => exact absurd rfl scanned.nonempty
          | cons d pair =>
            obtain ⟨same, _⟩ := List.cons.inj whole
            simp [same]
        | cons d lead =>
          obtain ⟨same, _⟩ := List.cons.inj whole
          simp [same]
      have := free b first
      rw [used] at this
      cases this
    | cons d before =>
      obtain ⟨same, tail⟩ := List.cons.inj whole
      refine ⟨before, lead, after, tail, ?_, even, free⟩
      cases before with
      | nil => simp [EndsInUse]
      | cons e before => exact (endsInUse_cons (by simp)).mp ends
  · intro scanned
    obtain ⟨before, lead, after, whole, ends, even, free⟩ := scanned.split
    refine ⟨⟨b :: before, lead, after, by rw [whole]; rfl, ?_, even, free⟩, scanned.nonempty,
      scanned.short⟩
    cases before with
    | nil => exact endsInUse_single.mpr used
    | cons e before => exact (endsInUse_cons (by simp)).mpr ends

/-- A free block with no free neighbour after it. -/
theorem scanPair_alone (free : b.free = true) (apart : ∀ d ∈ rest.head?, d.free = false) :
    ScanPair (b :: rest) pair ↔ pair = [b] ∨ ScanPair rest pair := by
  constructor
  · intro scanned
    obtain ⟨before, lead, after, whole, ends, even, all_free⟩ := scanned.split
    cases before with
    | nil =>
      left
      cases lead with
      | nil =>
        cases pair with
        | nil => exact absurd rfl scanned.nonempty
        | cons d pair =>
          obtain ⟨same, tail⟩ := List.cons.inj whole
          cases pair with
          | nil => rw [same]
          | cons e pair =>
            have used := apart e (by simp [tail])
            have := all_free e (by simp)
            rw [used] at this
            cases this
      | cons d lead =>
        obtain ⟨same, tail⟩ := List.cons.inj whole
        cases lead with
        | nil => simp at even
        | cons e lead =>
          have used := apart e (by simp [tail])
          have := all_free e (by simp)
          rw [used] at this
          cases this
    | cons d before =>
      right
      obtain ⟨same, tail⟩ := List.cons.inj whole
      refine ⟨⟨before, lead, after, tail, ?_, even, all_free⟩, scanned.nonempty, scanned.short⟩
      cases before with
      | nil => simp [EndsInUse]
      | cons e before => exact (endsInUse_cons (by simp)).mp ends
  · intro choice
    rcases choice with same | scanned
    · subst same
      exact ⟨⟨[], [], rest, rfl, by simp [EndsInUse], rfl, by simp [free]⟩, by simp, by simp⟩
    · obtain ⟨before, lead, after, whole, ends, even, all_free⟩ := scanned.split
      cases before with
      | nil =>
        -- the run would start at the neighbour, which is in use
        exfalso
        have first : ∃ d ∈ lead ++ pair, rest.head? = some d := by
          cases lead with
          | nil =>
            cases pair with
            | nil => exact absurd rfl scanned.nonempty
            | cons d pair => exact ⟨d, by simp, by rw [whole]; rfl⟩
          | cons d lead => exact ⟨d, by simp, by rw [whole]; rfl⟩
        obtain ⟨d, member, head⟩ := first
        have used := apart d (by rw [head]; rfl)
        have := all_free d member
        rw [used] at this
        cases this
      | cons e before =>
        refine ⟨⟨b :: e :: before, lead, after, by rw [whole]; rfl, ?_, even, all_free⟩,
          scanned.nonempty, scanned.short⟩
        exact (endsInUse_cons (by simp)).mpr ends

/-- Two free blocks at the start: they are joined, and the scan goes on after both. -/
theorem scanPair_joined (free : b.free = true) (free' : c.free = true) :
    ScanPair (b :: c :: rest) pair ↔ pair = [b] ∨ pair = [b, c] ∨ ScanPair rest pair := by
  constructor
  · intro scanned
    obtain ⟨before, lead, after, whole, ends, even, all_free⟩ := scanned.split
    cases before with
    | nil =>
      cases lead with
      | nil =>
        cases pair with
        | nil => exact absurd rfl scanned.nonempty
        | cons d pair =>
          obtain ⟨same, tail⟩ := List.cons.inj whole
          cases pair with
          | nil => exact Or.inl (by rw [same])
          | cons e pair =>
            obtain ⟨same', _⟩ := List.cons.inj tail
            have short := scanned.short
            have nothing : pair = [] := List.eq_nil_of_length_eq_zero (by
              simp only [List.length_cons] at short
              omega)
            exact Or.inr (Or.inl (by rw [same, same', nothing]))
      | cons d lead =>
        obtain ⟨same, tail⟩ := List.cons.inj whole
        cases lead with
        | nil => simp at even
        | cons e lead =>
          obtain ⟨same', tail'⟩ := List.cons.inj tail
          refine Or.inr (Or.inr ⟨⟨[], lead, after, tail', by simp [EndsInUse], ?_, ?_⟩,
            scanned.nonempty, scanned.short⟩)
          · simp only [List.length_cons] at even
            omega
          · intro d member
            exact all_free d (List.mem_cons_of_mem _ (List.mem_cons_of_mem _ member))
    | cons d before =>
      obtain ⟨same, tail⟩ := List.cons.inj whole
      cases before with
      | nil =>
        have used := endsInUse_single.mp ends
        rw [← same, free] at used
        cases used
      | cons e before =>
        obtain ⟨same', tail'⟩ := List.cons.inj tail
        refine Or.inr (Or.inr ⟨⟨before, lead, after, tail', ?_, even, all_free⟩,
          scanned.nonempty, scanned.short⟩)
        rw [endsInUse_cons (by simp)] at ends
        cases before with
        | nil => simp [EndsInUse]
        | cons f before => exact (endsInUse_cons (by simp)).mp ends
  · intro choice
    rcases choice with same | same | scanned
    · subst same
      exact ⟨⟨[], [], c :: rest, rfl, by simp [EndsInUse], rfl, by simp [free]⟩, by simp, by simp⟩
    · subst same
      exact ⟨⟨[], [], rest, rfl, by simp [EndsInUse], rfl, by simp [free, free']⟩, by simp, by simp⟩
    · obtain ⟨before, lead, after, whole, ends, even, all_free⟩ := scanned.split
      cases before with
      | nil =>
        refine ⟨⟨[], b :: c :: lead, after, by rw [whole]; rfl, ends, ?_, ?_⟩, scanned.nonempty,
          scanned.short⟩
        · simp only [List.length_cons]
          omega
        · intro d member
          rcases List.mem_cons.mp member with same | later
          · rw [same, free]
          · rcases List.mem_cons.mp later with same | later
            · rw [same, free']
            · exact all_free d later
      | cons e before =>
        refine ⟨⟨b :: c :: e :: before, lead, after, by rw [whole]; rfl, ?_, even, all_free⟩,
          scanned.nonempty, scanned.short⟩
        rw [endsInUse_cons (by simp), endsInUse_cons (by simp)]
        exact ends

/-- What one visit of the scan tests and what it leaves to the later visits. -/
theorem scanPair_visit : ScanPair (b :: rest) pair ↔
    (b.free = true ∧ (pair = [b] ∨ ∃ c ∈ rest.head?, c.free = true ∧ pair = [b, c])) ∨
      ScanPair (absorb b rest).2 pair := by
  cases free : b.free with
  | false =>
    have tail : (absorb b rest).2 = rest := by
      cases rest <;> simp [absorb, free]
    rw [tail, scanPair_used free]
    simp
  | true =>
    cases rest with
    | nil =>
      rw [scanPair_alone free (by simp)]
      simp [absorb]
    | cons c rest =>
      cases free' : c.free with
      | false =>
        rw [scanPair_alone free (by simpa using free')]
        simp [absorb, free, free']
      | true =>
        rw [scanPair_joined free free']
        simp [absorb, free, free', or_assoc]

theorem absorb_size_single : b.size ≤ (absorb b rest).1.size := by
  cases rest with
  | nil => exact Nat.le_refl _
  | cons c rest =>
    rw [absorb]
    split
    · exact Nat.le_add_right _ _
    · exact Nat.le_refl _

/-- A free block was tested together with what it absorbed. -/
theorem absorb_pair (free : (absorb b rest).1.free = true) :
    ∃ more, ScanPair (b :: rest) (b :: more) ∧ (absorb b rest).1.size = totalSize (b :: more) := by
  rw [(absorb_head b rest).2] at free
  cases rest with
  | nil =>
    refine ⟨[], ?_, by simp [absorb, totalSize]⟩
    exact scanPair_visit.mpr (Or.inl ⟨free, Or.inl rfl⟩)
  | cons c rest =>
    cases free' : c.free with
    | false =>
      refine ⟨[], ?_, by simp [absorb, free', totalSize]⟩
      exact scanPair_visit.mpr (Or.inl ⟨free, Or.inl rfl⟩)
    | true =>
      refine ⟨[c], ?_, by simp [absorb, free, free', totalSize]⟩
      exact scanPair_visit.mpr (Or.inl ⟨free, Or.inr ⟨c, rfl, free', rfl⟩⟩)

/-- An allocation takes a join that is large enough. -/
theorem allocate_pair {p : Nat} (found : (allocate header needed bs).1 = some p) :
    ∃ b more, ScanPair bs (b :: more) ∧ b.addr = p ∧ needed ≤ totalSize (b :: more) := by
  fun_induction allocate header needed bs with
  | case1 => cases found
  | case2 b rest head tail fits =>
    simp only [Bool.and_eq_true, decide_eq_true_eq] at fits
    obtain ⟨more, scanned, size⟩ := absorb_pair fits.1
    refine ⟨b, more, scanned, ?_, size ▸ fits.2⟩
    exact (absorb_head b rest).1.symm.trans (Option.some.inj found)
  | case3 b rest head tail tight ih =>
    obtain ⟨d, more, scanned, addr, room⟩ := ih found
    exact ⟨d, more, scanPair_visit.mpr (Or.inr scanned), addr, room⟩

/-- A join that is large enough makes the allocation succeed. -/
theorem pair_allocate (scanned : ScanPair bs pair) (room : needed ≤ totalSize pair) :
    ∃ p, (allocate header needed bs).1 = some p := by
  fun_induction allocate header needed bs with
  | case1 => exact absurd scanned scanPair_nil
  | case2 b rest head tail fits => exact ⟨_, rfl⟩
  | case3 b rest head tail tight ih =>
    rcases scanPair_visit.mp scanned with ⟨free, tested⟩ | later
    · have free_head : head.free = true := (absorb_head b rest).2.trans free
      have size : totalSize pair ≤ head.size := by
        rcases tested with same | ⟨c, first, free', same⟩
        · subst same
          simpa [totalSize] using absorb_size_single
        · subst same
          cases rest with
          | nil => cases first
          | cons d rest =>
            obtain rfl : d = c := Option.some.inj first
            simp [head, absorb, free, free', totalSize]
      exact absurd (by simp [free_head, Nat.le_trans room size]) tight
    · exact ih later

/-! ## Requests below every block size -/

/-- A free block is absorbed into the head, or it stays for the later visits. -/
theorem absorb_free {d : Block} (member : d ∈ b :: rest) (free : d.free = true) :
    ((absorb b rest).1.free = true ∧ d.size ≤ (absorb b rest).1.size) ∨ d ∈ (absorb b rest).2 := by
  rcases List.mem_cons.mp member with same | later
  · subst same
    exact Or.inl ⟨(absorb_head d rest).2.trans free, absorb_size_single⟩
  · cases rest with
    | nil => simp at later
    | cons c rest =>
      rw [absorb]
      split
      · rcases List.mem_cons.mp later with same | last
        · subst same
          exact Or.inl ⟨rfl, Nat.le_add_left _ _⟩
        · exact Or.inr last
      · exact Or.inr later

/-- A free block that is large enough on its own is never refused. -/
theorem allocate_free {d : Block} (member : d ∈ bs) (free : d.free = true)
    (room : needed ≤ d.size) : ∃ p, (allocate header needed bs).1 = some p := by
  fun_induction allocate header needed bs with
  | case1 => simp at member
  | case2 b rest head tail fits => exact ⟨_, rfl⟩
  | case3 b rest head tail tight ih =>
    rcases absorb_free member free with ⟨free_head, larger⟩ | later
    · have fits : (head.free && decide (needed ≤ head.size)) = true := by
        simp [head, free_head, Nat.le_trans room larger]
      exact absurd fits tight
    · exact ih later

/-- With every block in use the list is left as it is. -/
theorem allocate_used (used : ∀ d ∈ bs, d.free = false) :
    allocate header needed bs = (none, bs) := by
  induction bs with
  | nil => rw [allocate]
  | cons b rest ih =>
    have apart : absorb b rest = (b, rest) := by
      cases rest <;> simp [absorb, used b (by simp)]
    rw [allocate, apart, ih fun d member => used d (List.mem_cons_of_mem _ member)]
    simp [used b (by simp)]

/-- A stretch of a tiling ends inside the region. -/
theorem tiles_stretch {start stop : Nat} (tiled : Tiles start bs stop)
    (stretch : (b :: rest) <:+: bs) : start ≤ b.addr ∧ b.addr + totalSize (b :: rest) ≤ stop := by
  obtain ⟨before, after, rfl⟩ := stretch
  rw [List.append_assoc] at tiled
  obtain ⟨mid, left, right⟩ := (tiles_append before start stop).mp tiled
  obtain ⟨last, here, beyond⟩ := (tiles_append (b :: rest) mid stop).mp right
  have begins : b.addr = mid := here.1
  have total := tiles_sum here
  have := tiles_le left
  have := tiles_le beyond
  unfold totalSize
  omega

end

end Delos.Lib
