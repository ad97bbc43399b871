import Mathlib.Algebra.GroupWithZero.Nat
import Mathlib.Data.List.Basic

/-!
# Block lists

A region managed by an address-ordered list of blocks, each with a header of
fixed size at its start. `allocate` is first fit with one lazy merge a visited
block: a free block absorbs its free successor before its size is tested.
The lemmas say what survives an allocation: the tiling of the region, the
minimum size of a block and every block that was in use.
-/
namespace Delos.Lib

structure Block where
  addr : Nat
  size : Nat
  free : Bool
  deriving DecidableEq, Repr

namespace Block

/-- Addresses of the block, header included. -/
def Covers (b : Block) (a : Nat) : Prop := b.addr ≤ a ∧ a < b.addr + b.size

end Block

/-- The blocks follow one another without gaps from `start` to `stop`. -/
def Tiles : Nat → List Block → Nat → Prop
  | start, [], stop => start = stop
  | start, b :: rest, stop => b.addr = start ∧ Tiles (start + b.size) rest stop

/-- Cut `needed` bytes off a block when more than another header is left over. -/
def carve (header needed : Nat) (b : Block) : List Block :=
  if b.size > needed + header then
    [⟨b.addr, needed, false⟩, ⟨b.addr + needed, b.size - needed, true⟩]
  else [⟨b.addr, b.size, false⟩]

/-- A free block takes over a free successor; only one, even if more follow. -/
def absorb (b : Block) : List Block → Block × List Block
  | [] => (b, [])
  | c :: rest => if b.free && c.free then (⟨b.addr, b.size + c.size, true⟩, rest) else (b, c :: rest)

theorem absorb_length (b : Block) (rest : List Block) : (absorb b rest).2.length ≤ rest.length := by
  cases rest with
  | nil => simp [absorb]
  | cons c rest =>
    rw [absorb]
    split <;> simp

def allocate (header needed : Nat) : List Block → Option Nat × List Block
  | [] => (none, [])
  | b :: rest =>
    let head := (absorb b rest).1
    let tail := (absorb b rest).2
    if head.free && decide (needed ≤ head.size) then (some head.addr, carve header needed head ++ tail)
    else ((allocate header needed tail).1, head :: (allocate header needed tail).2)
termination_by bs => bs.length
decreasing_by all_goals exact Nat.lt_succ_of_le (absorb_length b rest)

/-- Mark the block at an address as free. -/
def release (a : Nat) : List Block → List Block
  | [] => []
  | b :: rest => if b.addr = a then { b with free := true } :: rest else b :: release a rest

variable {header needed start stop : Nat} {bs : List Block}

theorem tiles_append (as : List Block) (start stop : Nat) :
    Tiles start (as ++ bs) stop ↔ ∃ mid, Tiles start as mid ∧ Tiles mid bs stop := by
  induction as generalizing start with
  | nil => simp [Tiles]
  | cons a as ih =>
    simp only [List.cons_append, Tiles, ih]
    constructor
    · rintro ⟨at_start, mid, left, right⟩
      exact ⟨mid, ⟨at_start, left⟩, right⟩
    · rintro ⟨mid, ⟨at_start, left⟩, right⟩
      exact ⟨at_start, mid, left, right⟩

theorem tiles_le (tiled : Tiles start bs stop) : start ≤ stop := by
  induction bs generalizing start with
  | nil => exact Nat.le_of_eq tiled
  | cons b rest ih => exact Nat.le_trans (Nat.le_add_right _ _) (ih tiled.2)

/-- Every block lies inside the tiled region. -/
theorem tiles_bounds (tiled : Tiles start bs stop) {b : Block} (member : b ∈ bs) :
    start ≤ b.addr ∧ b.addr + b.size ≤ stop := by
  induction bs generalizing start with
  | nil => simp at member
  | cons c rest ih =>
    obtain ⟨at_start, tail⟩ := tiled
    rcases List.mem_cons.mp member with same | later
    · subst same
      have := tiles_le tail
      omega
    · have := ih tail later
      omega

theorem tiles_sum (tiled : Tiles start bs stop) : start + (bs.map Block.size).sum = stop := by
  induction bs generalizing start with
  | nil => simpa [Tiles] using tiled
  | cons b rest ih =>
    have tail := ih tiled.2
    simp only [List.map_cons, List.sum_cons]
    omega

/-- Blocks of a tiling that overlap are the same block. -/
theorem tiles_disjoint (tiled : Tiles start bs stop) (large : ∀ b ∈ bs, 0 < b.size)
    {b c : Block} (hb : b ∈ bs) (hc : c ∈ bs) (different : b ≠ c) :
    b.addr + b.size ≤ c.addr ∨ c.addr + c.size ≤ b.addr := by
  induction bs generalizing start with
  | nil => simp at hb
  | cons d rest ih =>
    obtain ⟨at_start, tail⟩ := tiled
    rcases List.mem_cons.mp hb with same | later
    · rcases List.mem_cons.mp hc with same' | later'
      · exact absurd (same.trans same'.symm) different
      · subst same
        have := tiles_bounds tail later'
        omega
    · rcases List.mem_cons.mp hc with same' | later'
      · subst same'
        have := tiles_bounds tail later
        omega
      · exact ih tail (fun e he => large e (List.mem_cons_of_mem _ he)) later later'

theorem tiles_length (tiled : Tiles start bs stop) (large : ∀ b ∈ bs, header ≤ b.size) :
    start + header * bs.length ≤ stop := by
  induction bs generalizing start with
  | nil => exact Nat.le_of_eq tiled
  | cons b rest ih =>
    have tail := ih tiled.2 (fun c hc => large c (List.mem_cons_of_mem _ hc))
    have head := large b (by simp)
    simp only [List.length_cons, Nat.mul_succ]
    omega

theorem tiles_absorb {b : Block} {rest : List Block} (tiled : Tiles start (b :: rest) stop) :
    Tiles start ((absorb b rest).1 :: (absorb b rest).2) stop := by
  cases rest with
  | nil => exact tiled
  | cons c rest =>
    obtain ⟨at_start, next_start, tail⟩ := tiled
    rw [absorb]
    split
    · refine ⟨at_start, ?_⟩
      simp only [← Nat.add_assoc]
      exact tail
    · exact ⟨at_start, next_start, tail⟩

theorem absorb_large {b : Block} {rest : List Block} (large : ∀ d ∈ b :: rest, header ≤ d.size) :
    ∀ d ∈ (absorb b rest).1 :: (absorb b rest).2, header ≤ d.size := by
  cases rest with
  | nil => exact large
  | cons c rest =>
    rw [absorb]
    split
    · intro d member
      rcases List.mem_cons.mp member with same | later
      · subst same
        exact Nat.le_trans (large b (by simp)) (Nat.le_add_right _ _)
      · exact large d (by simp [later])
    · exact large

theorem absorb_keeps {b : Block} {rest : List Block} {d : Block} (member : d ∈ b :: rest)
    (in_use : d.free = false) : d ∈ (absorb b rest).1 :: (absorb b rest).2 := by
  cases rest with
  | nil => exact member
  | cons c rest =>
    rw [absorb]
    split
    next both =>
      simp only [Bool.and_eq_true] at both
      rcases List.mem_cons.mp member with same | later
      · rw [same, both.1] at in_use
        cases in_use
      · rcases List.mem_cons.mp later with same | later
        · rw [same, both.2] at in_use
          cases in_use
        · exact List.mem_cons_of_mem _ later
    · exact member

/-- The absorbing block keeps its address and its state. -/
theorem absorb_head (b : Block) (rest : List Block) :
    (absorb b rest).1.addr = b.addr ∧ (absorb b rest).1.free = b.free := by
  cases rest with
  | nil => exact ⟨rfl, rfl⟩
  | cons c rest =>
    rw [absorb]
    split
    next both =>
      simp only [Bool.and_eq_true] at both
      exact ⟨rfl, both.1.symm⟩
    · exact ⟨rfl, rfl⟩

theorem absorb_tail_subset {b d : Block} {rest : List Block} (member : d ∈ (absorb b rest).2) :
    d ∈ rest := by
  cases rest with
  | nil => exact member
  | cons c rest =>
    rw [absorb] at member
    split at member
    · exact List.mem_cons_of_mem _ member
    · exact member

theorem carve_tiles (b : Block) (enough : needed ≤ b.size) :
    Tiles b.addr (carve header needed b) (b.addr + b.size) := by
  unfold carve
  split
  · refine ⟨rfl, rfl, ?_⟩
    simp only [Tiles]
    omega
  · exact ⟨rfl, rfl⟩

theorem carve_large (b : Block) (large : header ≤ b.size) (request : header ≤ needed) :
    ∀ d ∈ carve header needed b, header ≤ d.size := by
  intro d member
  unfold carve at member
  split at member
  · simp only [List.mem_cons, List.not_mem_nil, or_false] at member
    rcases member with same | same <;> subst same
    · exact request
    · simp only
      omega
  · simp only [List.mem_cons, List.not_mem_nil, or_false] at member
    subst member
    exact large

theorem carve_head (b : Block) (enough : needed ≤ b.size) :
    ∃ d ∈ carve header needed b, d.addr = b.addr ∧ d.free = false ∧ needed ≤ d.size := by
  unfold carve
  split
  · exact ⟨_, List.mem_cons_self, rfl, rfl, Nat.le_refl _⟩
  · exact ⟨_, List.mem_cons_self, rfl, rfl, enough⟩

theorem allocate_tiles (tiled : Tiles start bs stop) :
    Tiles start (allocate header needed bs).2 stop := by
  fun_induction allocate header needed bs generalizing start
  case case1 => exact tiled
  case case2 b rest head tail fits =>
    obtain ⟨at_start, after⟩ := tiles_absorb tiled
    simp only [Bool.and_eq_true, decide_eq_true_eq] at fits
    rw [tiles_append]
    exact ⟨_, at_start ▸ carve_tiles head fits.2, after⟩
  case case3 b rest head tail tight ih =>
    obtain ⟨at_start, after⟩ := tiles_absorb tiled
    exact ⟨at_start, ih after⟩

theorem allocate_large (large : ∀ b ∈ bs, header ≤ b.size) (request : header ≤ needed) :
    ∀ b ∈ (allocate header needed bs).2, header ≤ b.size := by
  fun_induction allocate header needed bs with
  | case1 => exact large
  | case2 b rest head tail fits =>
    have wide := absorb_large large
    intro d member
    rcases List.mem_append.mp member with cut | later
    · exact carve_large head (wide head List.mem_cons_self) request d cut
    · exact wide d (List.mem_cons_of_mem _ later)
  | case3 b rest head tail tight ih =>
    have wide := absorb_large large
    intro d member
    rcases List.mem_cons.mp member with same | later
    · exact wide d (same ▸ List.mem_cons_self)
    · exact ih (fun e he => wide e (List.mem_cons_of_mem _ he)) d later

/-- Blocks in use survive an allocation unchanged. -/
theorem allocate_keeps {d : Block} (member : d ∈ bs) (in_use : d.free = false) :
    d ∈ (allocate header needed bs).2 := by
  fun_induction allocate header needed bs with
  | case1 => exact member
  | case2 b rest head tail fits =>
    simp only [Bool.and_eq_true] at fits
    rcases List.mem_cons.mp (absorb_keeps member in_use) with same | later
    · rw [same] at in_use
      exact absurd (in_use.symm.trans fits.1) (by decide)
    · exact List.mem_append_right _ later
  | case3 b rest head tail tight ih =>
    rcases List.mem_cons.mp (absorb_keeps member in_use) with same | later
    · exact same ▸ List.mem_cons_self
    · exact List.mem_cons_of_mem _ (ih later)

/-- A successful allocation returns the address of a block that was free and is
now in use with room for the request. -/
theorem allocate_some {p : Nat} (found : (allocate header needed bs).1 = some p) :
    (∃ d ∈ (allocate header needed bs).2, d.addr = p ∧ d.free = false ∧ needed ≤ d.size) ∧
      ∃ f ∈ bs, f.addr = p ∧ f.free = true := by
  fun_induction allocate header needed bs with
  | case1 => cases found
  | case2 b rest head tail fits =>
    have shape := absorb_head b rest
    simp only [Bool.and_eq_true, decide_eq_true_eq] at fits
    have addr : head.addr = p := Option.some.inj found
    obtain ⟨d, member, at_head, used, room⟩ := @carve_head header needed head fits.2
    refine ⟨⟨d, List.mem_append_left _ member, at_head.trans addr, used, room⟩, b, by simp, ?_, ?_⟩
    · exact shape.1.symm.trans addr
    · exact shape.2.symm.trans fits.1
  | case3 b rest head tail tight ih =>
    obtain ⟨⟨d, member, facts⟩, f, source, was⟩ := ih found
    exact ⟨⟨d, List.mem_cons_of_mem _ member, facts⟩, f,
      List.mem_cons_of_mem _ (absorb_tail_subset source), was⟩

theorem release_tiles (a : Nat) (tiled : Tiles start bs stop) : Tiles start (release a bs) stop := by
  induction bs generalizing start with
  | nil => exact tiled
  | cons b rest ih =>
    rw [release]
    split
    · exact tiled
    · exact ⟨tiled.1, ih tiled.2⟩

theorem mem_release {a : Nat} {d : Block} (member : d ∈ release a bs) :
    d ∈ bs ∨ ∃ b ∈ bs, b.addr = a ∧ d = { b with free := true } := by
  induction bs with
  | nil => exact Or.inl member
  | cons b rest ih =>
    rw [release] at member
    split at member
    next here =>
      rcases List.mem_cons.mp member with same | later
      · exact Or.inr ⟨b, by simp, here, same⟩
      · exact Or.inl (List.mem_cons_of_mem _ later)
    next =>
      rcases List.mem_cons.mp member with same | later
      · exact Or.inl (by simp [same])
      · rcases ih later with kept | ⟨c, source, facts⟩
        · exact Or.inl (List.mem_cons_of_mem _ kept)
        · exact Or.inr ⟨c, List.mem_cons_of_mem _ source, facts⟩

theorem release_keeps {a : Nat} {d : Block} (member : d ∈ bs) (other : d.addr ≠ a) :
    d ∈ release a bs := by
  induction bs with
  | nil => simp at member
  | cons b rest ih =>
    rw [release]
    rcases List.mem_cons.mp member with same | later
    · subst same
      rw [if_neg other]
      exact List.mem_cons_self
    · split
      · exact List.mem_cons_of_mem _ later
      · exact List.mem_cons_of_mem _ (ih later)

end Delos.Lib
