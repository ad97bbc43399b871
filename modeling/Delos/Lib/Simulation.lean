import Delos.Lib.Program

/-!
# Programs that behave like a simpler machine

A `Machine` answers calls and says which calls it admits. A program that answers every
admitted call as the machine does, and ends in a state that the machine's state stands for,
does so along every list of calls.
-/
namespace Delos.Lib

structure Machine (ι α τ : Type) where
  admits : τ → ι → Prop
  answer : ι → τ → α × τ

section
variable {ι α σ τ ε : Type} {allowed : ε → Prop} {machine : Machine ι α τ} {run : ι → Program σ ε α} {s : σ} {t : τ}
  {calls : List ι}

namespace Machine

def answers (machine : Machine ι α τ) : List ι → τ → List α × τ
  | [], t => ([], t)
  | call :: rest, t =>
    let (a, t) := machine.answer call t
    let (as, t) := machine.answers rest t
    (a :: as, t)

/-- Every call is admitted when it is made. -/
def Admits (machine : Machine ι α τ) : List ι → τ → Prop
  | [], _ => True
  | call :: rest, t => machine.admits t call ∧ machine.Admits rest (machine.answer call t).2

theorem answers_append (machine : Machine ι α τ) (calls more : List ι) (t : τ) :
    machine.answers (calls ++ more) t = ((machine.answers calls t).1 ++ (machine.answers more (machine.answers calls t).2).1,
      (machine.answers more (machine.answers calls t).2).2) := by
  induction calls generalizing t with
  | nil => rfl
  | cons call rest ih => simp only [List.cons_append, answers, ih]

theorem admits_append (machine : Machine ι α τ) (calls more : List ι) (t : τ) :
    machine.Admits (calls ++ more) t ↔ machine.Admits calls t ∧ machine.Admits more (machine.answers calls t).2 := by
  induction calls generalizing t with
  | nil => simp [Admits, answers]
  | cons call rest ih => simp only [List.cons_append, Admits, answers, ih, and_assoc]

/-- What every admitted call keeps holds behind all of them. -/
theorem answers_keep {inv : τ → Prop} {allowed : ι → Prop}
    (keep : ∀ t call, inv t → allowed call → inv (machine.answer call t).2) (here : inv t)
    (every : ∀ call ∈ calls, allowed call) : inv (machine.answers calls t).2 := by
  induction calls generalizing t with
  | nil => exact here
  | cons call rest ih =>
    exact ih (keep t call here (every call List.mem_cons_self)) fun later inside =>
      every later (List.mem_cons_of_mem _ inside)

end Machine

/-- One call after the other, with all their answers. -/
def runCalls (run : ι → Program σ ε α) : List ι → Program σ ε (List α)
  | [] => pure []
  | call :: rest => do
    let a ← run call
    let as ← runCalls run rest
    pure (a :: as)

/-- One call of the program is one of the machine. -/
def Simulates (allowed : ε → Prop) (run : ι → Program σ ε α) (machine : Machine ι α τ) (shows : σ → τ → Prop) : Prop :=
  ∀ s t call, shows s t → machine.admits t call →
    Meets allowed (run call) s fun a s' => a = (machine.answer call t).1 ∧ shows s' (machine.answer call t).2

/-- The run lemma of a simulation. -/
theorem simulates_calls {shows : σ → τ → Prop} (simulates : Simulates allowed run machine shows)
    (here : shows s t) (admitted : machine.Admits calls t) :
    Meets allowed (runCalls run calls) s fun as s' => as = (machine.answers calls t).1 ∧ shows s' (machine.answers calls t).2 := by
  induction calls generalizing s t with
  | nil => exact ⟨rfl, here⟩
  | cons call rest ih =>
    obtain ⟨first, later⟩ := admitted
    apply meets_call (simulates s t call here first)
    rintro a s' ⟨rfl, there⟩
    apply meets_call (ih there later)
    rintro as s'' ⟨rfl, there'⟩
    exact meets_pure.mpr ⟨rfl, there'⟩

end

end Delos.Lib
