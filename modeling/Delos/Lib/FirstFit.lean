import Delos.Lib.BlockList

/-!
# Where first fit places a block

Blocks that are too small or in use are passed by as they are, as long as no two free ones
follow one another. In free memory the block comes first, and what two free blocks leave
over stays one free block.
-/
namespace Delos.Lib

/-- A free block is too small, and a block in use follows. -/
def Tight (needed : Nat) : List Block → Prop
  | [] => True
  | b :: rest => (b.free = true → b.size < needed ∧ ∃ c, rest.head? = some c ∧ c.free = false) ∧
      Tight needed rest

/-- Free blocks of the given sizes. -/
def freeBlocks : Nat → List Nat → List Block
  | _, [] => []
  | a, n :: sizes => ⟨a, n, true⟩ :: freeBlocks (a + n) sizes

variable {header needed a : Nat} {pre bs : List Block} {sizes : List Nat}

theorem tight_mono {more : Nat} (tight : Tight needed pre) (less : needed ≤ more) : Tight more pre := by
  induction pre with
  | nil => trivial
  | cons b rest ih =>
    constructor
    · intro free
      obtain ⟨small, next⟩ := tight.1 free
      exact ⟨Nat.lt_of_lt_of_le small less, next⟩
    · exact ih tight.2

/-- Blocks in use may follow. -/
theorem tight_append_used (tight : Tight needed pre) (used : ∀ b ∈ bs, b.free = false) :
    Tight needed (pre ++ bs) := by
  induction pre with
  | nil =>
    induction bs with
    | nil => trivial
    | cons b rest ih =>
      constructor
      · intro free
        exact absurd (free.symm.trans (used b List.mem_cons_self)) (by decide)
      · exact ih fun c later => used c (List.mem_cons_of_mem _ later)
  | cons b rest ih =>
    constructor
    · intro free
      obtain ⟨small, c, next, busy⟩ := tight.1 free
      refine ⟨small, c, ?_, busy⟩
      cases rest with
      | nil => exact absurd next (by simp)
      | cons d rest => exact next
    · exact ih tight.2

theorem allocate_tight (tight : Tight needed pre) : allocate header needed (pre ++ bs) =
    ((allocate header needed bs).1, pre ++ (allocate header needed bs).2) := by
  induction pre with
  | nil => rfl
  | cons b rest ih =>
    have apart : absorb b (rest ++ bs) = (b, rest ++ bs) := by
      cases here : b.free with
      | false =>
        cases rest ++ bs with
        | nil => rfl
        | cons c later => simp [absorb, here]
      | true =>
        obtain ⟨_, c, next, busy⟩ := tight.1 here
        cases rest with
        | nil => exact absurd next (by simp)
        | cons d later =>
          obtain rfl : d = c := Option.some.inj next
          simp [absorb, busy]
    have passed : ¬ (b.free && decide (needed ≤ b.size)) = true := by
      intro fits
      obtain ⟨free, large⟩ := (Bool.and_eq_true _ _).mp fits
      have small := (tight.1 free).1
      exact absurd (of_decide_eq_true large) (Nat.not_le.mpr small)
    rw [List.cons_append, allocate]
    simp only [apart]
    rw [if_neg passed, ih tight.2]
    rfl

/-- The first two free blocks are merged and cut. -/
theorem allocate_freeBlocks (enough : needed + header < (sizes.take 2).sum) :
    allocate header needed (freeBlocks a sizes) = (some a, ⟨a, needed, false⟩ ::
      freeBlocks (a + needed) (((sizes.take 2).sum - needed) :: sizes.drop 2)) := by
  cases sizes with
  | nil => exact absurd enough (by simp)
  | cons n sizes =>
    cases sizes with
    | nil =>
      have sum : (List.take 2 [n]).sum = n := by simp
      rw [sum] at enough ⊢
      have fits : needed ≤ n := by omega
      have cut : n > needed + header := enough
      simp [freeBlocks, allocate, absorb, carve, fits, cut]
    | cons m sizes =>
      have sum : (List.take 2 (n :: m :: sizes)).sum = n + m := by simp
      rw [sum] at enough ⊢
      have fits : needed ≤ n + m := by omega
      have cut : n + m > needed + header := enough
      have place : a + needed + (n + m - needed) = a + n + m := by omega
      simp [freeBlocks, allocate, absorb, carve, fits, cut, place]

theorem release_append (apart : ∀ b ∈ pre, b.addr ≠ a) : release a (pre ++ bs) = pre ++ release a bs := by
  induction pre with
  | nil => rfl
  | cons b rest ih =>
    rw [List.cons_append, release, if_neg (apart b List.mem_cons_self),
      ih fun c later => apart c (List.mem_cons_of_mem _ later)]
    rfl

/-- The first block of a list is the one that is released. -/
theorem release_head {b : Block} (here : b.addr = a) : release a (b :: bs) = { b with free := true } :: bs := by
  rw [release, if_pos here]

theorem freeBlocks_tiles (a : Nat) (sizes : List Nat) : Tiles a (freeBlocks a sizes) (a + sizes.sum) := by
  induction sizes generalizing a with
  | nil => rfl
  | cons n sizes ih =>
    refine ⟨rfl, ?_⟩
    have rest := ih (a + n)
    rwa [List.sum_cons, ← Nat.add_assoc]

end Delos.Lib
