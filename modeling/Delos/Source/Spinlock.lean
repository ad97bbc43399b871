import Mathlib.Logic.Function.Basic

/-!
# spinlock.asm

Any number of threads use one lock, the word at an address that each of them passes. A
step is one instruction of one thread; every instruction meets the word at most once. A
thread goes on to release the lock only when it has it.
-/
namespace Delos.Source

/-- The instruction that a thread executes next. -/
inductive SpinPlace where
  /-- code of the thread, without the lock -/
  | outside
  | acquireArgument
  | pause
  | test
  | jnz
  | bts
  | jc
  | acquireRet
  /-- code of the thread, with the lock -/
  | inside
  | releaseArgument
  | store
  | releaseRet
  deriving DecidableEq, Repr

structure SpinThread where
  place : SpinPlace
  zeroFlag : Bool
  carryFlag : Bool
  deriving DecidableEq, Repr

/-- `spinlock_acquire` and `spinlock_release`, one instruction at a time. -/
def SpinThread.execute (t : SpinThread) (lock : BitVec 32) : SpinThread × BitVec 32 :=
  match t.place with
  | .outside | .inside => (t, lock)
  | .acquireArgument => ({ t with place := .pause }, lock)
  | .pause => ({ t with place := .test }, lock)
  | .test => ({ place := .jnz, zeroFlag := lock &&& 1#32 = 0#32, carryFlag := false }, lock)
  | .jnz => ({ t with place := if t.zeroFlag then .bts else .pause }, lock)
  | .bts => ({ t with place := .jc, carryFlag := lock.getLsbD 0 }, lock ||| 1#32)
  | .jc => ({ t with place := if t.carryFlag then .pause else .acquireRet }, lock)
  | .acquireRet => ({ t with place := .inside }, lock)
  | .releaseArgument => ({ t with place := .store }, lock)
  | .store => ({ t with place := .releaseRet }, 0#32)
  | .releaseRet => ({ t with place := .outside }, lock)

/-- A thread calls the function that is due; its own code has left the flags in any state. -/
def SpinThread.call (zeroFlag carryFlag : Bool) (t : SpinThread) : SpinThread :=
  match t.place with
  | .outside => ⟨.acquireArgument, zeroFlag, carryFlag⟩
  | .inside => ⟨.releaseArgument, zeroFlag, carryFlag⟩
  | _ => t

structure Spinning (ι : Type) where
  lock : BitVec 32
  threads : ι → SpinThread

inductive SpinStep (ι : Type) where
  | call (i : ι) (zeroFlag carryFlag : Bool)
  | instruction (i : ι)

section
variable {ι : Type} [DecidableEq ι]

def Spinning.next (s : Spinning ι) : SpinStep ι → Spinning ι
  | .call i zeroFlag carryFlag =>
    { s with threads := Function.update s.threads i ((s.threads i).call zeroFlag carryFlag) }
  | .instruction i =>
    let (t, lock) := (s.threads i).execute s.lock
    { lock := lock, threads := Function.update s.threads i t }

/-- The next instructions are all those of one thread. -/
def Spinning.alone (i : ι) : Nat → Spinning ι → Spinning ι
  | 0, s => s
  | left + 1, s => Spinning.alone i left (s.next (.instruction i))

/-- Behind `spinlock_init`, which stores what `spinlock_release` does. -/
structure Spinning.Start (s : Spinning ι) : Prop where
  lock : s.lock = 0#32
  outside : ∀ i, (s.threads i).place = .outside

end

end Delos.Source
