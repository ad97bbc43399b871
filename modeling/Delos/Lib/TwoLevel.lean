import Mathlib.Logic.Function.Basic

/-!
# Two-level tables

A directory leads to tables, and each cell of a table holds a value or none. A lookup goes
through both levels. When no table is behind two directory entries, a cell that is set is
seen at one place only.
-/
namespace Delos.Lib

structure TwoLevel (ι τ κ φ : Type) where
  dir : ι → Option τ
  cell : τ → κ → Option φ

namespace TwoLevel

variable {ι τ κ φ : Type}

def empty : TwoLevel ι τ κ φ := ⟨fun _ => none, fun _ _ => none⟩

def look (m : TwoLevel ι τ κ φ) (i : ι) (j : κ) : Option φ := (m.dir i).bind fun t => m.cell t j

/-- No table is behind two directory entries. -/
def Apart (m : TwoLevel ι τ κ φ) : Prop := ∀ i i' t, m.dir i = some t → m.dir i' = some t → i = i'

/-- No value is in two cells. -/
def Separate (m : TwoLevel ι τ κ φ) : Prop :=
  ∀ t j t' j' f, m.cell t j = some f → m.cell t' j' = some f → t = t' ∧ j = j'

section
variable [DecidableEq ι] [DecidableEq τ] [DecidableEq κ] {m : TwoLevel ι τ κ φ} {i i' : ι} {t t' : τ} {j j' : κ} {f : φ}

def setDir (m : TwoLevel ι τ κ φ) (i : ι) (t : τ) : TwoLevel ι τ κ φ :=
  { m with dir := Function.update m.dir i (some t) }

def setCell (m : TwoLevel ι τ κ φ) (t : τ) (j : κ) (f : φ) : TwoLevel ι τ κ φ :=
  { m with cell := fun t' j' => if t' = t ∧ j' = j then some f else m.cell t' j' }

@[simp] theorem cell_setDir : (m.setDir i t).cell = m.cell := rfl

@[simp] theorem dir_setCell : (m.setCell t j f).dir = m.dir := rfl

theorem dir_setDir (m : TwoLevel ι τ κ φ) (i : ι) (t : τ) (i' : ι) :
    (m.setDir i t).dir i' = if i' = i then some t else m.dir i' := by
  by_cases same : i' = i
  · rw [if_pos same, same]
    exact Function.update_self ..
  · rw [if_neg same]
    exact Function.update_of_ne same ..

theorem cell_setCell (m : TwoLevel ι τ κ φ) (t : τ) (j : κ) (f : φ) (t' : τ) (j' : κ) :
    (m.setCell t j f).cell t' j' = if t' = t ∧ j' = j then some f else m.cell t' j' := rfl

theorem apart_setDir (apart : m.Apart) (new : ∀ i', m.dir i' ≠ some t) : (m.setDir i t).Apart := by
  intro a b t' first second
  rw [dir_setDir] at first second
  by_cases here : a = i
  · by_cases there : b = i
    · rw [here, there]
    · rw [if_pos here] at first
      rw [if_neg there] at second
      exact absurd (first ▸ second) (new b)
  · rw [if_neg here] at first
    by_cases there : b = i
    · rw [if_pos there] at second
      exact absurd (second ▸ first) (new a)
    · rw [if_neg there] at second
      exact apart a b t' first second

theorem separate_setCell (separate : m.Separate) (new : ∀ t' j', m.cell t' j' ≠ some f) : (m.setCell t j f).Separate := by
  intro a c b e g first second
  rw [cell_setCell] at first second
  by_cases here : a = t ∧ c = j
  · by_cases there : b = t ∧ e = j
    · exact ⟨here.1.trans there.1.symm, here.2.trans there.2.symm⟩
    · rw [if_pos here] at first
      rw [if_neg there] at second
      exact absurd (first ▸ second) (new b e)
  · rw [if_neg here] at first
    by_cases there : b = t ∧ e = j
    · rw [if_pos there] at second
      exact absurd (second ▸ first) (new a c)
    · rw [if_neg there] at second
      exact separate a c b e g first second

/-- A new table without cells is not seen. -/
theorem look_setDir (free : m.dir i = none) (empty : ∀ j, m.cell t j = none) (i' : ι) (j : κ) :
    (m.setDir i t).look i' j = m.look i' j := by
  rw [look, look, dir_setDir]
  by_cases same : i' = i
  · rw [if_pos same, same, free]
    exact empty j
  · rw [if_neg same]
    rfl

theorem look_setCell (apart : m.Apart) (here : m.dir i = some t) (i' : ι) (j' : κ) :
    (m.setCell t j f).look i' j' = if i' = i ∧ j' = j then some f else m.look i' j' := by
  rw [look, look, dir_setCell]
  cases entry : m.dir i' with
  | none =>
    rw [if_neg fun same => by rw [same.1, here] at entry; cases entry]
    rfl
  | some u =>
    have same : u = t ↔ i' = i := by
      constructor
      · rintro rfl
        exact apart i' i u entry here
      · rintro rfl
        exact Option.some.inj (entry.symm.trans here)
    show (if u = t ∧ j' = j then some f else m.cell u j') = _
    simp only [same]
    rfl

end

section
variable [DecidableEq ι] [DecidableEq τ] {m : TwoLevel ι τ Nat φ} {i : ι} {t : τ}

/-- The cells of one table from `j` on. -/
def setCells (m : TwoLevel ι τ Nat φ) (t : τ) (j : Nat) : List φ → TwoLevel ι τ Nat φ
  | [] => m
  | f :: rest => (m.setCell t j f).setCells t (j + 1) rest

@[simp] theorem dir_setCells (m : TwoLevel ι τ Nat φ) (t : τ) (j : Nat) (values : List φ) :
    (m.setCells t j values).dir = m.dir := by
  induction values generalizing m j with
  | nil => rfl
  | cons f rest ih => exact ih (m.setCell t j f) (j + 1)

theorem look_setCells (apart : m.Apart) (here : m.dir i = some t) (j : Nat) (values : List φ) (i' : ι) (j' : Nat) :
    (m.setCells t j values).look i' j' =
      if i' = i ∧ j ≤ j' ∧ j' < j + values.length then values[j' - j]? else m.look i' j' := by
  induction values generalizing m j with
  | nil => rw [if_neg (by rw [List.length_nil]; omega)]; rfl
  | cons f rest ih =>
    rw [setCells, ih (m := m.setCell t j f) apart here (j + 1), look_setCell apart here, List.length_cons]
    by_cases table : i' = i
    · by_cases first : j' = j
      · rw [if_neg (by omega), if_pos ⟨table, first⟩, if_pos ⟨table, by omega, by omega⟩, first, Nat.sub_self]
        rfl
      · by_cases later : j + 1 ≤ j' ∧ j' < j + 1 + rest.length
        · rw [if_pos ⟨table, later⟩, if_pos ⟨table, by omega, by omega⟩, show j' - j = j' - (j + 1) + 1 by omega]
          rfl
        · rw [if_neg fun both => later both.2, if_neg fun both => first both.2, if_neg fun both => later (by omega)]
    · rw [if_neg fun both => table both.1, if_neg fun both => table both.1, if_neg fun both => table both.1]

end

end TwoLevel

end Delos.Lib
