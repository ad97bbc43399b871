import Delos.Invariants.BlockedProcesses

/-!
# Who waits for a process that has ended

`wake_up_parent_process` is called before every `kill_process` but one: a process that
makes an unknown system call is killed and its parent goes on waiting. Nor is anyone
woken who waits for a process and is not its parent.
-/
namespace Delos.Guarantees
open Lib Source Invariants

section
variable {o o' : System × (Nat → Option Nat)} {e : Nat × Event}

/-- The four ways in which a process can end. -/
def Dies (o : System × (Nat → Option Nat)) (event : Event) (P : Nat) : Prop :=
  (∃ code, Terminates o.1 event P code) ∨ P = o.1.sched.runningProcess ∧ UnknownCall event

/-- Whoever waits for a process that ends can go on. -/
def WaiterGoesOn (o : System × (Nat → Option Nat)) (event : Event) (s' : System) : Prop :=
  ∀ W P, W ∈ o.1.sched.lists .blockedOnProcess → o.2 W = some P → Dies o event P →
    W ∉ s'.sched.lists .blockedOnProcess ∧ (W ∈ s'.sched.lists .ready ∨ W = s'.sched.runningProcess)

/-- A process for which another one waits makes no unknown system call, and when it ends the
one that waits is the first with the pid of its parent. -/
def WaitedForByParent (o : System × (Nat → Option Nat)) (e : Nat × Event) : Prop :=
  ∀ W P, W ∈ o.1.sched.lists .blockedOnProcess → o.2 W = some P →
    ¬ (P = o.1.sched.runningProcess ∧ UnknownCall e.2) ∧
    ((∃ code, Terminates o.1 e.2 P code) → W ≠ P ∧
      (o.1.sched.lists .blockedOnProcess).find?
        (fun i => (o.1.sched.pcbs i).pid = (o.1.sched.pcbs P).ppid) = some W)

/-- Every process that waits does so for one that is alive. -/
def WaitsForAlive (o : System × (Nat → Option Nat)) : Prop :=
  ∀ W ∈ o.1.sched.lists .blockedOnProcess, ∃ P ∈ o.1.sched.lists .all, o.2 W = some P

theorem unknown_not_terminates {s : System} {event : Event} {D code : Nat} (unknown : UnknownCall event)
    (terminates : Terminates s event D code) : False := by
  cases terminates with
  | exit call =>
    have outside : _ < 100 ∨ 126 < _ ∨ _ = 108 := unknown
    omega
  | fault | pageFault _ | abort _ => exact unknown

theorem wait_kills_nobody {s : System} {event : Event} (call : WaitCall s event) :
    ¬ UnknownCall event ∧ ∀ D code, ¬ Terminates s event D code := by
  cases event with
  | systemCall cpu user =>
    have number : cpu.eax = 121 := call.1
    constructor
    · intro outside
      have outside : cpu.eax < 100 ∨ 126 < cpu.eax ∨ cpu.eax = 108 := outside
      omega
    · intro D code terminates
      cases terminates with
      | exit exits => omega
  | _ => exact absurd call id

theorem waitsForAlive_step (before : WaitingRun WaitedForByParent o) (alive : WaitsForAlive o)
    (condition : WaitedForByParent o e) (step : Recorded noteWait o e o') : WaitsForAlive o' := by
  intro W blocked
  obtain ⟨taken, note⟩ := step
  obtain ⟨⟨_, idle⟩, next⟩ := taken_interrupted taken
  have scheduled := scheduled_withRoom e.1 (scheduled_anyhow (recorded_run before) idle)
  have nodup := scheduled.queued.nodup (q := .blockedOnProcess) (by decide)
  rw [note]
  rcases enters_blocked scheduled next blocked with old | ⟨here, call⟩
  · obtain ⟨P, inside, waits⟩ := alive W old
    refine ⟨P, ?_, ?_⟩
    · by_contra dead
      obtain ⟨known, parent⟩ := condition W P old waits
      rcases killed_by scheduled next inside dead with ⟨code, terminates⟩ | unknown
      · obtain ⟨_, first⟩ := parent ⟨code, terminates_withRoom.mp terminates⟩
        rw [(terminates_ended scheduled terminates next).blocked] at blocked
        exact ((mem_stillBlocked nodup).mp (List.mem_of_mem_erase blocked)).2 first
      · exact known unknown
    · have other := running_free scheduled old
      rw [noteWait_other (s := o.1) other]
      exact waits
  · obtain ⟨P, inside, waits⟩ := noteWait_call (s := withRoom e.1 o.1) call
    obtain ⟨known, nobody⟩ := wait_kills_nobody call
    refine ⟨P, ?_, ?_⟩
    · by_contra dead
      rcases killed_by scheduled next inside dead with ⟨code, terminates⟩ | unknown
      · exact nobody P code terminates
      · exact known unknown.2
    · rw [here]
      exact waits

/-- A process that is killed is nowhere afterwards. -/
theorem waiter_killed {s s' : System} {room : Nat} {event : Event} {W code : Nat}
    (scheduled : Scheduled False (withRoom room s).sched) (happens : Happens s event)
    (next : Interrupted (withRoom room s) event s') (blocked : W ∈ s.sched.lists .blockedOnProcess)
    (terminates : Terminates (withRoom room s) event W code) :
    W ∉ s'.sched.lists .ready ∧ W ≠ s'.sched.runningProcess := by
  have dead := (terminates_ended scheduled terminates next).dead
  have spared : ¬ KillsIdle (withRoom room s) event := by
    intro kills
    cases terminates with
    | pageFault _ => exact absurd rfl (running_free scheduled blocked)
    | exit _ | fault | abort _ => exact kills
  have after := scheduled.step (fun impossible => impossible.elim) (happens_withRoom happens) spared next
  constructor
  · exact fun ready => dead (after.queued.alive _ W ready)
  · rintro rfl
    exact dead after.alive

theorem waiterGoesOn_iff (run : Run Started Anyhow Taken o.1) (step : Recorded noteWait o e o') :
    WaiterGoesOn o e.2 o'.1 ↔ WaitedForByParent o e := by
  obtain ⟨⟨_, idle⟩, next⟩ := taken_interrupted step.1
  have scheduled := scheduled_withRoom e.1 (scheduled_anyhow run idle)
  have nodup := scheduled.queued.nodup (q := .blockedOnProcess) (by decide)
  constructor
  · intro goesOn W P blocked waits
    constructor
    · intro unknown
      obtain ⟨left, _⟩ := goesOn W P blocked waits (.inr unknown)
      rcases terminates_or_continues scheduled next with ⟨D, code, terminates⟩ | continues
      · exact unknown_not_terminates unknown.2 terminates
      · exact left (continues.stay W blocked)
    · rintro ⟨code, terminates⟩
      obtain ⟨left, place⟩ := goesOn W P blocked waits (.inl ⟨code, terminates⟩)
      have terminates' : Terminates (withRoom e.1 o.1) e.2 P code := terminates_withRoom.mpr terminates
      have other : W ≠ P := by
        rintro rfl
        obtain ⟨unready, stopped⟩ := waiter_killed scheduled step.1.1 next blocked terminates'
        exact place.elim unready stopped
      refine ⟨other, ?_⟩
      by_contra none
      apply left
      rw [(terminates_ended scheduled terminates' next).blocked]
      exact (List.mem_erase_of_ne other).mpr ((mem_stillBlocked nodup).mpr ⟨blocked, none⟩)
  · intro condition W P blocked waits dies
    obtain ⟨known, parent⟩ := condition W P blocked waits
    obtain ⟨code, terminates⟩ := dies.resolve_right known
    obtain ⟨other, first⟩ := parent ⟨code, terminates⟩
    have ended := terminates_ended scheduled (terminates_withRoom.mpr terminates) next
    refine ⟨?_, (ended.woken W first other).2⟩
    rw [ended.blocked]
    intro still
    exact ((mem_stillBlocked nodup).mp (List.mem_of_mem_erase still)).2 first

end

end Delos.Guarantees
