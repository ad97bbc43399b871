import Mathlib.Order.Defs.Unbundled
import Delos.Lib.Program

/-!
# What a program can do to the state at most

`Along rel x` says that every run of `x` that ends goes along `rel`. For a preorder the
judgment is closed under the ways in which programs are put together.
-/
namespace Delos.Lib

section
variable {σ ε α β : Type} {rel : σ → σ → Prop}

def Along (rel : σ → σ → Prop) (x : Program σ ε α) : Prop := ∀ s a s', x s = .ok (a, s') → rel s s'

theorem along_throw {e : ε} : Along rel (throw e : Program σ ε α) := fun _ _ _ run => nomatch run

theorem along_modify {f : σ → σ} (change : ∀ s, rel s (f s)) : Along rel (modify f : Program σ ε PUnit) := by
  intro s _ s' run
  cases run
  exact change s

theorem along_pure [Std.Refl rel] (a : α) : Along rel (pure a : Program σ ε α) := by
  intro s _ s' run
  cases run
  exact refl s

theorem along_get [Std.Refl rel] : Along rel (get : Program σ ε σ) := by
  intro s _ s' run
  cases run
  exact refl s

theorem along_bind [IsTrans σ rel] {x : Program σ ε α} {f : α → Program σ ε β} (first : Along rel x)
    (rest : ∀ a, Along rel (f a)) : Along rel (x >>= f) := by
  intro s b s' run
  obtain ⟨a, s1, step, run⟩ := bind_run run
  exact IsTrans.trans _ _ _ (first s a s1 step) (rest a s1 b s' run)

theorem along_ite {c : Prop} [Decidable c] {x y : Program σ ε α} (yes : c → Along rel x)
    (no : ¬ c → Along rel y) : Along rel (if c then x else y) := by
  split
  next holds => exact yes holds
  next fails => exact no fails

end

end Delos.Lib
