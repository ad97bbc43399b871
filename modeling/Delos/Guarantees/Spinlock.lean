import Delos.Lib.Guards
import Delos.Lib.Runs
import Delos.Source.Spinlock

/-!
# One thread at a time

In every interleaving of the instructions at most one thread is behind `spinlock_acquire`,
and the lock is set exactly while one is. As long as nobody has the lock, a thread that
asks for it gets it with at most seven instructions of its own.
-/
namespace Delos.Guarantees
open Lib Source

/-- From the exchange of the bit that found it clear up to the store of the release. -/
def HasLock (t : SpinThread) : Prop :=
  match t.place with
  | .jc => t.carryFlag = false
  | .acquireRet | .inside | .releaseArgument | .store => True
  | _ => False

/-- In `spinlock_acquire` and without the lock. -/
def Asks (t : SpinThread) : Prop :=
  match t.place with
  | .acquireArgument | .pause | .test | .jnz | .bts => True
  | .jc => t.carryFlag = true
  | _ => False

structure Locked {ι : Type} (s : Spinning ι) : Prop where
  word : s.lock = 0#32 ∨ s.lock = 1#32
  guards : Guards (s.lock = 1#32) fun i => HasLock (s.threads i)

section
variable {ι : Type} [DecidableEq ι] {s s' : Spinning ι} {i : ι}

theorem locked_start (start : s.Start) : Locked s := by
  refine ⟨.inl start.lock, guards_free ?_ ?_⟩
  · rw [start.lock]
    decide
  · intro i
    simp [HasLock, start.outside]

/-- The thread has the lock as before, and the word is the same. -/
theorem locked_keep {t : SpinThread} (locked : Locked s) (same : HasLock t ↔ HasLock (s.threads i)) :
    Locked { s with threads := Function.update s.threads i t } := by
  refine ⟨locked.word, locked.guards.keep Iff.rfl fun j => ?_⟩
  by_cases here : j = i
  · subst here
    simpa using same
  · simp [here]

theorem locked_call (zeroFlag carryFlag : Bool) (locked : Locked s) :
    Locked (s.next (.call i zeroFlag carryFlag)) := by
  apply locked_keep locked
  unfold SpinThread.call
  split
  next place => simp [HasLock, place]
  next place => simp [HasLock, place]
  next => exact Iff.rfl

theorem locked_bts (locked : Locked s) (place : (s.threads i).place = .bts) :
    Locked (s.next (.instruction i)) := by
  have free : ¬ HasLock (s.threads i) := by simp [HasLock, place]
  rcases locked.word with clear | set
  · -- the bit was clear: the thread has the lock from now on
    have next : s.next (.instruction i) = ⟨1#32, Function.update s.threads i
        { s.threads i with place := .jc, carryFlag := false }⟩ := by
      simp [Spinning.next, SpinThread.execute, place, clear]
    rw [next]
    refine ⟨.inr rfl, locked.guards.take (i := i) (by rw [clear]; decide) rfl fun j => ?_⟩
    by_cases here : j = i
    · subst here
      simp [HasLock]
    · simp [here]
  · have next : s.next (.instruction i) =
        ⟨s.lock, Function.update s.threads i { s.threads i with place := .jc, carryFlag := true }⟩ := by
      simp [Spinning.next, SpinThread.execute, place, set]
    rw [next]
    apply locked_keep locked
    simp [HasLock, place]

theorem locked_store (locked : Locked s) (place : (s.threads i).place = .store) :
    Locked (s.next (.instruction i)) := by
  have owner : HasLock (s.threads i) := by simp [HasLock, place]
  have next : s.next (.instruction i) = ⟨0#32, Function.update s.threads i
      { s.threads i with place := .releaseRet }⟩ := by
    simp [Spinning.next, SpinThread.execute, place]
  rw [next]
  refine ⟨.inl rfl, locked.guards.give (i := i) owner (by simp) fun j here => ?_⟩
  by_cases same : j = i
  · subst same
    simp [HasLock] at here
  · exact ⟨same, by simpa [same] using here⟩

/-- The step lemma: two instructions change who has the lock, the others do not. -/
theorem locked_instruction (locked : Locked s) : Locked (s.next (.instruction i)) := by
  by_cases exchange : (s.threads i).place = .bts
  · exact locked_bts locked exchange
  by_cases release : (s.threads i).place = .store
  · exact locked_store locked release
  have same : s.next (.instruction i) =
      { s with threads := Function.update s.threads i ((s.threads i).execute s.lock).1 } := by
    unfold Spinning.next SpinThread.execute
    cases place : (s.threads i).place <;> simp_all
  rw [same]
  apply locked_keep locked
  unfold SpinThread.execute
  cases place : (s.threads i).place with
  | bts => exact absurd place exchange
  | store => exact absurd place release
  | jnz => cases flag : (s.threads i).zeroFlag <;> simp [HasLock, place]
  | jc => cases flag : (s.threads i).carryFlag <;> simp [HasLock, place, flag]
  | _ => simp [HasLock, place]

theorem locked_run (run : Run Spinning.Start (fun _ _ => True) (fun s e s' => s' = s.next e) s) : Locked s := by
  apply run.invariant
  · exact fun s start => locked_start start
  · rintro s e _ locked _ rfl
    cases e with
    | call i zeroFlag carryFlag => exact locked_call zeroFlag carryFlag locked
    | instruction i => exact locked_instruction locked

/-! ## Getting a free lock -/

/-- How many instructions of its own a thread is away from the lock when it is free. -/
def distance (t : SpinThread) : Nat :=
  match t.place with
  | .acquireArgument => 7
  | .pause => 6
  | .test => 5
  | .jnz => if t.zeroFlag then 4 else 7
  | .bts => 3
  | .jc => if t.carryFlag then 7 else 2
  | .acquireRet => 1
  | _ => 0

/-- The thread will not spin: it has the lock already, or finds it free. -/
def Gets (t : SpinThread) (lock : BitVec 32) : Prop :=
  Asks t ∧ lock = 0#32 ∨ t.place = .jc ∧ t.carryFlag = false ∨ t.place = .acquireRet

theorem distance_le (t : SpinThread) : distance t ≤ 7 := by
  cases place : t.place with
  | jnz => cases flag : t.zeroFlag <;> simp [distance, place, flag]
  | jc => cases flag : t.carryFlag <;> simp [distance, place, flag]
  | _ => simp [distance, place]

/-- One instruction closer, or there. -/
theorem gets_execute {t : SpinThread} {lock : BitVec 32} (gets : Gets t lock) :
    distance (t.execute lock).1 + 1 = distance t ∧
      (Gets (t.execute lock).1 (t.execute lock).2 ∨ (t.execute lock).1.place = .inside) := by
  rcases gets with ⟨asks, rfl⟩ | ⟨place, flag⟩ | place
  · cases place : t.place with
    | jnz => cases flag : t.zeroFlag <;> simp [Gets, Asks, distance, SpinThread.execute, place, flag]
    | jc =>
      have flag : t.carryFlag = true := by simpa [Asks, place] using asks
      simp [Gets, Asks, distance, SpinThread.execute, place, flag]
    | acquireArgument | pause | test | bts => simp [Gets, Asks, distance, SpinThread.execute, place]
    | _ => simp [Asks, place] at asks
  · simp [Gets, distance, SpinThread.execute, place, flag]
  · simp [distance, SpinThread.execute, place]

@[simp] theorem next_instruction (s : Spinning ι) (i : ι) :
    (s.next (.instruction i)).threads i = ((s.threads i).execute s.lock).1 ∧
      (s.next (.instruction i)).lock = ((s.threads i).execute s.lock).2 := by
  simp [Spinning.next]

theorem gets_alone {n : Nat} (gets : Gets (s.threads i) s.lock) (far : distance (s.threads i) = n) :
    ((s.alone i n).threads i).place = .inside := by
  induction n generalizing s with
  | zero =>
    have closer := (gets_execute gets).1
    omega
  | succ n ih =>
    obtain ⟨closer, there⟩ := gets_execute gets
    obtain ⟨thread, lock⟩ := next_instruction s i
    rw [Spinning.alone]
    rcases there with gets' | inside
    · apply ih
      · rwa [thread, lock]
      · rw [thread]
        omega
    · -- the return was the last instruction
      have last : n = 0 := by
        have none : distance ((s.threads i).execute s.lock).1 = 0 := by simp [distance, inside]
        omega
      rw [last, Spinning.alone, thread]
      exact inside

/-! ## Spinning -/

theorem asks_execute {t : SpinThread} {lock : BitVec 32} (asks : Asks t) (set : lock = 1#32) :
    Asks (t.execute lock).1 ∧ (t.execute lock).2 = 1#32 := by
  subst set
  cases place : t.place with
  | jnz => cases flag : t.zeroFlag <;> simp [Asks, SpinThread.execute, place, flag]
  | jc =>
    have flag : t.carryFlag = true := by simpa [Asks, place] using asks
    simp [Asks, SpinThread.execute, place, flag]
  | acquireArgument | pause | test | bts => simp [Asks, SpinThread.execute, place]
  | _ => simp [Asks, place] at asks

theorem asks_alone {n : Nat} (asks : Asks (s.threads i)) (set : s.lock = 1#32) : Asks ((s.alone i n).threads i) := by
  induction n generalizing s with
  | zero => exact asks
  | succ n ih =>
    obtain ⟨thread, lock⟩ := next_instruction s i
    obtain ⟨asks', set'⟩ := asks_execute asks set
    rw [Spinning.alone]
    apply ih
    · rwa [thread]
    · rwa [lock]

/-! ## The guarantee -/

/-- Mutual exclusion in every interleaving, a free lock is had after a bounded number of instructions,
and one that is not free after none. -/
theorem spinlock_exclusive (run : Run Spinning.Start (fun _ _ => True) (fun s e s' => s' = s.next e) s) :
    (∀ i j, HasLock (s.threads i) → HasLock (s.threads j) → i = j) ∧
      (s.lock = 0#32 ∧ (∀ i, ¬ HasLock (s.threads i)) ∨ s.lock = 1#32 ∧ ∃ i, HasLock (s.threads i)) ∧
        ∀ i, Asks (s.threads i) →
          (s.lock = 0#32 → ∃ n ≤ 7, ((s.alone i n).threads i).place = .inside) ∧
            (s.lock = 1#32 → ∀ n, Asks ((s.alone i n).threads i)) := by
  obtain ⟨word, guards⟩ := locked_run run
  refine ⟨guards.unique, ?_, fun i asks => ⟨fun free => ?_, fun set n => asks_alone asks set⟩⟩
  · rcases word with clear | set
    · refine .inl ⟨clear, fun i owner => ?_⟩
      have set := guards.set.mpr ⟨i, owner⟩
      exact absurd (clear.symm.trans set) (by decide)
    · exact .inr ⟨set, guards.set.mp set⟩
  · exact ⟨_, distance_le (s.threads i), gets_alone (.inl ⟨asks, free⟩) rfl⟩

end

/-- Two threads, one of which has called `spinlock_acquire`. -/
theorem spinlock_exclusive_two : ∃ s : Spinning Bool, Asks (s.threads true) ∧ s.lock = 0#32 ∧
    ∃ n ≤ 7, ((s.alone true n).threads true).place = .inside := by
  let start : Spinning Bool := ⟨0#32, fun _ => ⟨.outside, false, false⟩⟩
  have run : Run Spinning.Start (fun _ _ => True) (fun s e s' => s' = s.next e)
      (start.next (.call true false false)) := .step (.init ⟨rfl, fun _ => rfl⟩) trivial rfl
  have asks : Asks ((start.next (.call true false false)).threads true) := trivial
  exact ⟨_, asks, rfl, ((spinlock_exclusive run).2.2 true asks).1 rfl⟩

end Delos.Guarantees
