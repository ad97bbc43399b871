import Mathlib.Data.List.Basic

/-!
# Doubly linked segments

`LinkedSegment next prev p as q` says that the elements of `as` are linked in both directions, with
`p` in front of them and `q` behind them. A segment splits at every place, and what is changed
at the border of a part changes what the part is linked to.
-/
namespace Delos.Lib

section
variable {α : Type} {next prev next' prev' : α → α} {p p' q q' a : α} {as l r : List α}

def LinkedSegment (next prev : α → α) : α → List α → α → Prop
  | _, [], _ => True
  | p, a :: rest, q => prev a = p ∧ next a = rest.headD q ∧ LinkedSegment next prev a rest q

/-- The elements met from `a` on until `null`. -/
def Follows (next : α → α) (null : α) : α → List α → Prop
  | a, [] => a = null
  | a, b :: rest => a = b ∧ b ≠ null ∧ Follows next null (next b) rest

theorem headD_append (l r : List α) (q : α) : (l ++ r).headD q = l.headD (r.headD q) := by
  cases l <;> rfl

theorem getLastD_cons_append (p a : α) (l : List α) : (a :: l).getLastD p = l.getLastD a := by
  cases l <;> rfl

theorem segment_append : LinkedSegment next prev p (l ++ r) q ↔
    LinkedSegment next prev p l (r.headD q) ∧ LinkedSegment next prev (l.getLastD p) r q := by
  induction l generalizing p with
  | nil => simp [LinkedSegment]
  | cons a l ih =>
    rw [List.cons_append, LinkedSegment, LinkedSegment, ih, headD_append, getLastD_cons_append]
    simp only [and_assoc]

theorem segment_congr (same : ∀ a ∈ as, next' a = next a ∧ prev' a = prev a) :
    LinkedSegment next' prev' p as q ↔ LinkedSegment next prev p as q := by
  induction as generalizing p with
  | nil => exact Iff.rfl
  | cons a rest ih =>
    obtain ⟨nexts, prevs⟩ := same a List.mem_cons_self
    rw [LinkedSegment, LinkedSegment, nexts, prevs, ih fun b member => same b (List.mem_cons_of_mem _ member)]

/-- Another element in front. -/
theorem LinkedSegment.front (linked : LinkedSegment next prev p as q) (head : ∀ a, as.head? = some a → prev' a = p')
    (nexts : ∀ a ∈ as, next' a = next a) (prevs : ∀ a ∈ as.tail, prev' a = prev a) : LinkedSegment next' prev' p' as q := by
  cases as with
  | nil => trivial
  | cons a rest =>
    obtain ⟨_, behind, tail⟩ := linked
    refine ⟨head a rfl, (nexts a List.mem_cons_self).trans behind, ?_⟩
    exact (segment_congr fun b member => ⟨nexts b (List.mem_cons_of_mem _ member), prevs b member⟩).mpr tail

/-- Another element behind. -/
theorem LinkedSegment.back (linked : LinkedSegment next prev p as q) (last : ∀ a, as.getLast? = some a → next' a = q')
    (nexts : ∀ a ∈ as.dropLast, next' a = next a) (prevs : ∀ a ∈ as, prev' a = prev a) :
    LinkedSegment next' prev' p as q' := by
  rcases List.eq_nil_or_concat as with rfl | ⟨front, a, rfl⟩
  · trivial
  · rw [List.concat_eq_append] at *
    rw [List.dropLast_concat] at nexts
    obtain ⟨before, here, _, _⟩ := segment_append.mp linked
    refine segment_append.mpr ⟨?_, (prevs a (by simp)).trans here, last a (by simp), trivial⟩
    exact (segment_congr fun b member => ⟨nexts b member, prevs b (by simp [member])⟩).mpr before

theorem segment_reverse (linked : LinkedSegment next prev p as q) : LinkedSegment prev next q as.reverse p := by
  induction as generalizing p with
  | nil => trivial
  | cons a rest ih =>
    obtain ⟨before, behind, tail⟩ := linked
    rw [List.reverse_cons]
    refine segment_append.mpr ⟨ih tail, ?_, before, trivial⟩
    rw [behind]
    cases rest with
    | nil => rfl
    | cons b rest => simp [List.getLastD_eq_getLast?]

theorem segment_follows {null : α} (linked : LinkedSegment next prev p as null) (valid : null ∉ as) :
    Follows next null (as.headD null) as := by
  induction as generalizing p with
  | nil => rfl
  | cons a rest ih =>
    obtain ⟨_, behind, tail⟩ := linked
    refine ⟨rfl, fun same => valid (same ▸ List.mem_cons_self), ?_⟩
    rw [behind]
    exact ih tail fun member => valid (List.mem_cons_of_mem _ member)

/-- Links lead to one sequence. -/
theorem Follows.unique {null : α} {as bs : List α} (first : Follows next null a as) (second : Follows next null a bs) :
    as = bs := by
  induction as generalizing a bs with
  | nil =>
    cases bs with
    | nil => rfl
    | cons b bs => exact absurd (second.1.symm.trans first) second.2.1
  | cons c as ih =>
    cases bs with
    | nil => exact absurd (first.1.symm.trans second) first.2.1
    | cons b bs =>
      obtain rfl : c = b := first.1.symm.trans second.1
      rw [ih first.2.2 second.2.2]

end

end Delos.Lib
