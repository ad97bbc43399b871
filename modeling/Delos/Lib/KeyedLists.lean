import Mathlib.Data.List.Nodup

/-!
# Lists of values with different keys

The values stand in the order in which they were added. What is done to the value with a
key is done at its position.
-/
namespace Delos.Lib

section Positions
variable {ν κ : Type} [DecidableEq κ] {key : ν → κ} {l : List ν} {i j : Nat} {k : κ}

theorem position_unique (unique : (l.map key).Nodup) (small : i < l.length) (small' : j < l.length)
    (same : key l[i] = key l[j]) : i = j := by
  rw [← List.getElem_map key (h := by simpa using small), ← List.getElem_map key (h := by simpa using small')] at same
  exact (List.Nodup.getElem_inj_iff unique).mp same

theorem map_key_eq_set (unique : (l.map key).Nodup) (small : i < l.length) (named : key l[i] = k) (f : ν → ν) :
    (l.map fun v => if key v = k then f v else v) = l.set i (f l[i]) := by
  apply List.ext_getElem
  · simp
  · intro j h h'
    rw [List.getElem_map, List.getElem_set]
    have small' : j < l.length := by simpa using h
    by_cases here : i = j
    · subst here
      simp [named]
    · have other : key l[j] ≠ k := fun same => here (position_unique unique small small' (named.trans same.symm))
      simp [here, other]

theorem filter_key_eq_eraseIdx (unique : (l.map key).Nodup) (small : i < l.length) (named : key l[i] = k) :
    l.filter (fun v => key v ≠ k) = l.eraseIdx i := by
  induction l generalizing i with
  | nil => rfl
  | cons v rest ih =>
    rw [List.map_cons, List.nodup_cons] at unique
    cases i with
    | zero =>
      have kept : ∀ w ∈ rest, key w ≠ k := by
        rintro w inside rfl
        exact unique.1 (List.mem_map.mpr ⟨w, inside, named.symm⟩)
      rw [List.getElem_cons_zero] at named
      rw [List.filter_cons_of_neg (by simpa using named), List.eraseIdx_cons_zero, List.filter_eq_self]
      simpa using kept
    | succ i =>
      have small' : i < rest.length := Nat.lt_of_succ_lt_succ small
      have other : key v ≠ k := by
        rintro rfl
        exact unique.1 (List.mem_map.mpr ⟨rest[i], List.getElem_mem small', named⟩)
      rw [List.filter_cons_of_pos (by simpa using other), List.eraseIdx_cons_succ, ih unique.2 small' named]

end Positions

structure Keyed {ν κ : Type} (key : ν → κ) where
  items : List ν
  unique : (items.map key).Nodup

namespace Keyed
variable {ν κ : Type} [DecidableEq κ] {key : ν → κ} {t : Keyed key} {i : Nat} {k : κ} {v w : ν}

@[ext] theorem ext {t t' : Keyed key} (same : t.items = t'.items) : t = t' := by
  cases t
  cases t'
  cases same
  rfl

def find (t : Keyed key) (k : κ) : Option ν := t.items.find? fun v => key v = k

def add (t : Keyed key) (v : ν) (fresh : t.find (key v) = none) : Keyed key where
  items := t.items ++ [v]
  unique := by
    rw [List.map_append, List.nodup_append]
    refine ⟨t.unique, List.nodup_singleton _, ?_⟩
    rintro _ inside _ last rfl
    obtain ⟨w, inside, same⟩ := List.mem_map.mp inside
    have other := List.find?_eq_none.mp fresh w inside
    rw [List.map_singleton, List.mem_singleton] at last
    exact other (by simpa using same.trans last)

/-- The key stays the same. -/
def change (t : Keyed key) (k : κ) (f : ν → ν) (same : ∀ v, key (f v) = key v) : Keyed key where
  items := t.items.map fun v => if key v = k then f v else v
  unique := by
    have keys : key ∘ (fun v => if key v = k then f v else v) = key := by
      funext v
      by_cases here : key v = k <;> simp [here, same]
    rw [List.map_map, keys]
    exact t.unique

def remove (t : Keyed key) (k : κ) : Keyed key where
  items := t.items.filter fun v => key v ≠ k
  unique := (List.Sublist.map key List.filter_sublist).nodup t.unique

theorem find_some (found : t.find k = some v) : v ∈ t.items ∧ key v = k :=
  ⟨List.mem_of_find?_eq_some found, of_decide_eq_true (List.find?_some found :)⟩

theorem find_none : t.find k = none ↔ ∀ v ∈ t.items, key v ≠ k := by
  simp [find]

/-- The value found is the only one. -/
theorem find_iff : t.find k = some v ↔ v ∈ t.items ∧ key v = k := by
  constructor
  · exact find_some
  · rintro ⟨inside, rfl⟩
    cases found : t.find (key v) with
    | none => exact absurd rfl (find_none.mp found v inside)
    | some w =>
      obtain ⟨inside', same⟩ := find_some found
      rw [List.inj_on_of_nodup_map t.unique inside' inside same]

theorem find_getElem (small : i < t.items.length) : t.find (key t.items[i]) = some t.items[i] :=
  find_iff.mpr ⟨List.getElem_mem small, rfl⟩

@[simp] theorem items_add (fresh : t.find (key v) = none) : (t.add v fresh).items = t.items ++ [v] := rfl

theorem items_change {f : ν → ν} {same : ∀ v, key (f v) = key v} (small : i < t.items.length)
    (named : key t.items[i] = k) : (t.change k f same).items = t.items.set i (f t.items[i]) :=
  map_key_eq_set t.unique small named f

theorem items_remove (small : i < t.items.length) (named : key t.items[i] = k) :
    (t.remove k).items = t.items.eraseIdx i :=
  filter_key_eq_eraseIdx t.unique small named

/-- The other keys are left alone. -/
theorem find_add_other {k' : κ} (fresh : t.find (key v) = none) (found : t.find k' = some w) :
    (t.add v fresh).find k' = some w := by
  obtain ⟨inside, named⟩ := find_iff.mp found
  exact find_iff.mpr ⟨List.mem_append_left _ inside, named⟩

theorem find_remove_other {k' : κ} (other : k' ≠ k) (found : t.find k' = some w) : (t.remove k).find k' = some w := by
  obtain ⟨inside, rfl⟩ := find_iff.mp found
  exact find_iff.mpr ⟨List.mem_filter.mpr ⟨inside, by simpa using other⟩, rfl⟩

theorem find_change {f : ν → ν} {same : ∀ v, key (f v) = key v} {k' : κ} (found : t.find k' = some w) :
    (t.change k f same).find k' = some (if k' = k then f w else w) := by
  obtain ⟨inside, rfl⟩ := find_iff.mp found
  refine find_iff.mpr ⟨List.mem_map.mpr ⟨w, inside, rfl⟩, ?_⟩
  split <;> simp [same]

theorem map_missing {f : ν → ν} (missing : t.find k = none) :
    (t.items.map fun v => if key v = k then f v else v) = t.items := by
  have other := find_none.mp missing
  conv_rhs => rw [← List.map_id t.items]
  apply List.map_congr_left
  intro v inside
  exact if_neg (other v inside)

theorem change_missing {f : ν → ν} {same : ∀ v, key (f v) = key v} (missing : t.find k = none) :
    t.change k f same = t := ext (map_missing missing)

theorem find_add (fresh : t.find (key v) = none) : (t.add v fresh).find (key v) = some v :=
  find_iff.mpr ⟨List.mem_append_right _ (List.mem_singleton.mpr rfl), rfl⟩

/-- A value may be changed before it is added. -/
theorem change_add {f : ν → ν} {same : ∀ v, key (f v) = key v} (fresh : t.find (key v) = none) :
    (t.add v fresh).change (key v) f same = t.add (f v) (by rwa [same]) := by
  apply ext
  simp only [change, add, List.map_append, map_missing fresh, List.map_singleton, if_true]

/-- What is added and removed again leaves nothing behind. -/
theorem remove_add (fresh : t.find (key v) = none) : (t.add v fresh).remove (key v) = t := by
  apply ext
  have kept := find_none.mp fresh
  simp only [remove, add, List.filter_append]
  rw [List.filter_eq_self.mpr (by simpa using kept)]
  simp

end Keyed

end Delos.Lib
