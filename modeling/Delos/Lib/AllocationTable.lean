import Mathlib.Data.List.Chain
import Mathlib.Data.List.Flatten
import Mathlib.Data.List.Nodup
import Mathlib.Data.List.Perm.Subperm

/-!
# Allocation tables

A table of cells in which a value is either the index of the next cell of a
chain or one of a few markers. A `Ledger` accounts for every cell: it lies on
exactly one of the listed chains, is one of the lost cells, or is free. The
lemmas follow single assignments to the table; a program that allocates, links
and frees cells one at a time is followed by composing them.
-/
namespace Delos.Lib

/-- Values from `limit` on are not used as links. -/
structure Markers where
  count : Nat
  limit : Nat
  free : Nat
  eof : Nat
  limit_count : limit ≤ count
  limit_free : limit ≤ free
  limit_eof : limit ≤ eof
  distinct : free ≠ eof

/-- The cells follow one another in the table; the value of the last one is open. -/
def Linked (table : Nat → Nat) (cells : List Nat) : Prop := cells.IsChain fun a b => table a = b

/-- One assignment to the table. -/
def Assigns (M : Markers) (table table' : Nat → Nat) (i v : Nat) : Prop :=
  ∀ j < M.count, table' j = if j = i then v else table j

structure Ledger (M : Markers) (table : Nat → Nat) (chains : List (List Nat)) (lost : List Nat) :
    Prop where
  linked : ∀ cells ∈ chains, Linked table cells
  apart : (chains.flatten ++ lost).Nodup
  low : ∀ c ∈ chains.flatten ++ lost, c < M.limit
  free : ∀ j < M.count, table j = M.free ↔ j ∉ chains.flatten ++ lost

/-- The number of free cells that may be used. -/
def Markers.room (M : Markers) (table : Nat → Nat) : Nat :=
  ((List.range M.limit).filter fun j => table j = M.free).length

section Linked
variable {table table' : Nat → Nat} {cells front back : List Nat}

theorem linked_congr (linked : Linked table cells)
    (same : ∀ c ∈ cells.dropLast, table' c = table c) : Linked table' cells := by
  induction cells with
  | nil => exact List.isChain_nil
  | cons c rest ih =>
    cases rest with
    | nil => exact List.isChain_singleton c
    | cons d rest =>
      obtain ⟨step, later⟩ := List.isChain_cons_cons.mp linked
      refine List.isChain_cons_cons.mpr ⟨?_, ih later fun e inside => same e ?_⟩
      · rw [same c List.mem_cons_self]
        exact step
      · exact List.mem_cons_of_mem c inside

theorem linked_append_iff {p : Nat} : Linked table (front ++ p :: back) ↔
    Linked table (front ++ [p]) ∧ Linked table (p :: back) := List.isChain_split

end Linked

section Ledger
variable {M : Markers} {table table' : Nat → Nat} {chains chains' : List (List Nat)}
  {lost cells front back : List Nat} {i p v : Nat}

theorem ledger_low (ledger : Ledger M table chains lost) (inside : cells ∈ chains) {c : Nat}
    (member : c ∈ cells) : c < M.limit :=
  ledger.low c (List.mem_append_left _ (List.mem_flatten.mpr ⟨cells, inside, member⟩))

theorem ledger_count (ledger : Ledger M table chains lost) (inside : cells ∈ chains) {c : Nat}
    (member : c ∈ cells) : c < M.count :=
  Nat.lt_of_lt_of_le (ledger_low ledger inside member) M.limit_count

theorem ledger_congr (ledger : Ledger M table chains lost)
    (same : ∀ j < M.count, table' j = table j) : Ledger M table' chains lost where
  linked cells inside := linked_congr (ledger.linked cells inside) fun c member =>
    same c (ledger_count ledger inside (List.dropLast_subset _ member))
  apart := ledger.apart
  low := ledger.low
  free j bound := by rw [same j bound, ledger.free j bound]

theorem ledger_perm (ledger : Ledger M table chains lost) (perm : chains.Perm chains') :
    Ledger M table chains' lost := by
  have used : (chains.flatten ++ lost).Perm (chains'.flatten ++ lost) := perm.flatten.append_right _
  refine ⟨fun cells inside => ledger.linked cells (perm.mem_iff.mpr inside),
    used.nodup_iff.mp ledger.apart, fun c member => ledger.low c (used.mem_iff.mpr member), ?_⟩
  intro j bound
  rw [ledger.free j bound, used.mem_iff]

theorem ledger_drop_nil (ledger : Ledger M table ([] :: chains) lost) :
    Ledger M table chains lost :=
  ⟨fun cells inside => ledger.linked cells (List.mem_cons_of_mem _ inside), ledger.apart,
    ledger.low, ledger.free⟩

/-- A chain is cut in two; the table is not touched. -/
theorem ledger_split (ledger : Ledger M table ((front ++ back) :: chains) lost) :
    Ledger M table (front :: back :: chains) lost := by
  have used : (front :: back :: chains).flatten ++ lost =
      ((front ++ back) :: chains).flatten ++ lost := by
    simp only [List.flatten_cons, List.append_assoc]
  refine ⟨fun cells inside => ?_, used ▸ ledger.apart, used ▸ ledger.low, used ▸ ledger.free⟩
  have whole := ledger.linked _ List.mem_cons_self
  rcases List.mem_cons.mp inside with same | inside
  · rw [same]
    exact whole.left_of_append
  · rcases List.mem_cons.mp inside with same | inside
    · rw [same]
      exact whole.right_of_append
    · exact ledger.linked cells (List.mem_cons_of_mem _ inside)

/-- A chain is given up; its cells stay in use. -/
theorem ledger_leak (ledger : Ledger M table (cells :: chains) lost) :
    Ledger M table chains (cells ++ lost) := by
  have used : ((cells :: chains).flatten ++ lost).Perm (chains.flatten ++ (cells ++ lost)) := by
    rw [List.flatten_cons, ← List.append_assoc]
    exact List.perm_append_comm.append_right lost
  refine ⟨fun cells inside => ledger.linked cells (List.mem_cons_of_mem _ inside),
    used.nodup_iff.mp ledger.apart, fun c member => ledger.low c (used.mem_iff.mpr member), ?_⟩
  intro j bound
  rw [ledger.free j bound, used.mem_iff]

/-! ### Assignments -/

theorem linked_assign (ledger : Ledger M table chains lost) (assign : Assigns M table table' p v)
    (inside : cells ∈ chains) (outside : p ∉ cells.dropLast) : Linked table' cells := by
  refine linked_congr (ledger.linked cells inside) fun c member => ?_
  rw [assign c (ledger_count ledger inside (List.dropLast_subset _ member)), if_neg]
  rintro rfl
  exact outside member

/-- The first chain shares no cell with the others. -/
theorem ledger_head_apart (ledger : Ledger M table (cells :: chains) lost) {c : Nat}
    (member : c ∈ cells) : c ∉ chains.flatten ++ lost := by
  have apart := ledger.apart
  rw [List.flatten_cons, List.append_assoc] at apart
  exact List.disjoint_of_nodup_append apart member

theorem ledger_head_nodup (ledger : Ledger M table (cells :: chains) lost) : cells.Nodup := by
  have apart := ledger.apart
  rw [List.flatten_cons, List.append_assoc] at apart
  exact apart.of_append_left

/-- An assignment to a cell of the first chain does not touch the others. -/
theorem linked_others (ledger : Ledger M table (cells :: chains) lost)
    (assign : Assigns M table table' p v) (member : p ∈ cells) {others : List Nat}
    (inside : others ∈ chains) : Linked table' others := by
  refine linked_assign ledger assign (List.mem_cons_of_mem _ inside) fun inner => ?_
  exact ledger_head_apart ledger member (List.mem_append_left _
    (List.mem_flatten.mpr ⟨others, inside, List.dropLast_subset _ inner⟩))

theorem ledger_take (ledger : Ledger M table chains lost) (bound : i < M.limit)
    (free : table i = M.free) (assign : Assigns M table table' i v) (used : v ≠ M.free) :
    Ledger M table' ([i] :: chains) lost := by
  have fresh := (ledger.free i (Nat.lt_of_lt_of_le bound M.limit_count)).mp free
  refine ⟨fun cells inside => ?_, ?_, fun c member => ?_, fun j small => ?_⟩
  · rcases List.mem_cons.mp inside with same | inside
    · rw [same]
      exact List.isChain_singleton i
    · refine linked_assign ledger assign inside fun inner => fresh ?_
      exact List.mem_append_left _
        (List.mem_flatten.mpr ⟨cells, inside, List.dropLast_subset _ inner⟩)
  · exact List.nodup_cons.mpr ⟨fresh, ledger.apart⟩
  · rcases List.mem_cons.mp member with same | member
    · rwa [same]
    · exact ledger.low c member
  · rw [assign j small]
    by_cases here : j = i
    · simp [here, used]
    · rw [if_neg here, ledger.free j small]
      simp [here]

/-- The last cell of the first chain gets another value in use. -/
theorem ledger_mark (ledger : Ledger M table ((front ++ [p]) :: chains) lost)
    (assign : Assigns M table table' p v) (used : v ≠ M.free) :
    Ledger M table' ((front ++ [p]) :: chains) lost := by
  have member : p ∈ front ++ [p] := List.mem_append_right _ List.mem_cons_self
  have single := ledger_head_nodup ledger
  refine ⟨fun cells inside => ?_, ledger.apart, ledger.low, fun j small => ?_⟩
  · rcases List.mem_cons.mp inside with same | inside
    · rw [same]
      refine linked_assign ledger assign List.mem_cons_self ?_
      rw [List.dropLast_concat]
      exact fun inner => List.disjoint_of_nodup_append single inner List.mem_cons_self
    · exact linked_others ledger assign member inside
  · rw [assign j small]
    by_cases here : j = p
    · rw [if_pos here, here]
      refine ⟨fun same => absurd same used, fun outside => absurd ?_ outside⟩
      exact List.mem_append_left _ (List.mem_flatten.mpr ⟨_, List.mem_cons_self, member⟩)
    · rw [if_neg here, ledger.free j small]

/-- The last cell of the first chain is linked to the second chain. -/
theorem ledger_join (ledger : Ledger M table ((front ++ [p]) :: (i :: back) :: chains) lost)
    (assign : Assigns M table table' p i) :
    Ledger M table' ((front ++ p :: i :: back) :: chains) lost := by
  have bound : i < M.limit :=
    ledger_low ledger (List.mem_cons_of_mem _ List.mem_cons_self) List.mem_cons_self
  have used : i ≠ M.free := Nat.ne_of_lt (Nat.lt_of_lt_of_le bound M.limit_free)
  have marked := ledger_mark ledger assign used
  have small := ledger_count ledger List.mem_cons_self
    (List.mem_append_right front (List.mem_singleton.mpr rfl))
  have same : ((front ++ p :: i :: back) :: chains).flatten ++ lost =
      ((front ++ [p]) :: (i :: back) :: chains).flatten ++ lost := by
    simp only [List.flatten_cons, List.append_assoc, List.cons_append, List.nil_append]
  refine ⟨fun cells inside => ?_, same ▸ marked.apart, same ▸ marked.low, same ▸ marked.free⟩
  rcases List.mem_cons.mp inside with here | inside
  · rw [here, linked_append_iff]
    refine ⟨marked.linked _ List.mem_cons_self, List.isChain_cons_cons.mpr ⟨?_, ?_⟩⟩
    · rw [assign p small, if_pos rfl]
    · exact marked.linked _ (List.mem_cons_of_mem _ List.mem_cons_self)
  · exact marked.linked cells (List.mem_cons_of_mem _ (List.mem_cons_of_mem _ inside))

/-- The first cell of the first chain becomes free. -/
theorem ledger_free_head (ledger : Ledger M table ((p :: cells) :: chains) lost)
    (assign : Assigns M table table' p M.free) : Ledger M table' (cells :: chains) lost := by
  have single := List.nodup_cons.mp (ledger_head_nodup ledger)
  have apart := List.nodup_cons.mp ledger.apart
  refine ⟨fun others inside => ?_, apart.2, fun c member => ?_, fun j small => ?_⟩
  · rcases List.mem_cons.mp inside with same | inside
    · rw [same]
      have whole := ledger.linked _ List.mem_cons_self
      refine linked_congr whole.tail fun c member => ?_
      have inner : c ∈ cells := List.dropLast_subset _ member
      rw [assign c (ledger_count ledger List.mem_cons_self (List.mem_cons_of_mem _ inner)), if_neg]
      rintro rfl
      exact single.1 inner
    · exact linked_others ledger assign List.mem_cons_self inside
  · exact ledger.low c (List.mem_cons_of_mem _ member)
  · rw [assign j small]
    by_cases here : j = p
    · rw [if_pos here, here]
      exact ⟨fun _ => apart.1, fun _ => rfl⟩
    · rw [if_neg here, ledger.free j small]
      simp [here]

/-! ### Room -/

/-- Every cell below the limit is counted once: as free or as used. -/
theorem ledger_room (ledger : Ledger M table chains lost) :
    M.room table + (chains.flatten ++ lost).length = M.limit := by
  have used : ((List.range M.limit).filter fun j => ¬ table j = M.free).Perm
      (chains.flatten ++ lost) := by
    refine (List.perm_ext_iff_of_nodup (List.nodup_range.filter _) ledger.apart).mpr fun j => ?_
    simp only [List.mem_filter, List.mem_range, decide_eq_true_eq]
    constructor
    · rintro ⟨small, busy⟩
      by_contra outside
      exact busy ((ledger.free j (Nat.lt_of_lt_of_le small M.limit_count)).mpr outside)
    · intro member
      have small := ledger.low j member
      refine ⟨small, fun free => ?_⟩
      exact (ledger.free j (Nat.lt_of_lt_of_le small M.limit_count)).mp free member
  have split := (List.range M.limit).length_eq_length_filter_add fun j => decide (table j = M.free)
  rw [List.length_range] at split
  rw [← used.length_eq, Markers.room]
  simp only [decide_not] at split ⊢
  exact split.symm

theorem exists_free (room : 0 < M.room table) : ∃ i < M.limit, table i = M.free := by
  obtain ⟨i, member⟩ := List.exists_mem_of_length_pos room
  rw [List.mem_filter, List.mem_range, decide_eq_true_eq] at member
  exact ⟨i, member⟩

end Ledger

end Delos.Lib
