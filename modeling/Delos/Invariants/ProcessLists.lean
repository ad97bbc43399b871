import Delos.Invariants.InterruptEffects

/-!
# Where the processes are

`Queued out` says of the lists that every process but the idle one is in exactly one
queue, unless it is in `out`: the process on the CPU, and the ones a handler has
just taken from a queue or created. Each operation of the scheduler has one lemma.
-/
namespace Delos.Invariants
open Lib Source

/-- How often a process occurs in the three queues. -/
def listed (σ : Sched) (i : Nat) : Nat :=
  (σ.lists .ready).count i + (σ.lists .blockedOnProcess).count i + (σ.lists .blockedOnKeyboard).count i

/-- The state field of the processes in a queue. -/
def queueState : ProcessList → ProcessState
  | .ready => .ready
  | _ => .waiting

/-- `full` is for runs in which no node was missing for a process. -/
structure Queued (full : Prop) (out : List Nat) (σ : Sched) : Prop where
  idle : σ.idleProcess ∈ σ.lists .all
  unique : (σ.lists .all).Nodup
  created : ∀ i ∈ σ.lists .all, i < σ.created
  alive : ∀ q, ∀ i ∈ σ.lists q, i ∈ σ.lists .all
  once : ∀ i, listed σ i ≤ 1
  gone : ∀ i ∈ out, i ≠ σ.idleProcess → listed σ i = 0
  complete : full → ∀ i ∈ σ.lists .all, i ∉ out → i ≠ σ.idleProcess → 1 ≤ listed σ i
  unblocked : ∀ q, σ.idleProcess ∈ σ.lists q → q = .all ∨ q = .ready
  states : ∀ q, q ≠ .all → ∀ i ∈ σ.lists q, (σ.pcbs i).state = queueState q
  terminal : ∀ i ∈ σ.lists .all, i ≠ σ.idleProcess →
    1 ≤ (σ.pcbs i).shellId ∧ (σ.pcbs i).shellId ≤ numberOfTerminals
  latest : ∀ t < numberOfTerminals, σ.latestRunning t = σ.idleProcess ∨
    (σ.latestRunning t ∈ σ.lists .all ∧ (σ.pcbs (σ.latestRunning t)).shellId = t + 1)

section Operations
variable {full : Prop} {σ σ' : Sched} {p i : Nat} {out : List Nat} {q : ProcessList}

/-! ## The operations on lists and PCBs -/

theorem listAddLast_room (room : 0 < σ.room) : σ.listAddLast q p =
    { σ with lists := Function.update σ.lists q (σ.lists q ++ [p]), room := σ.room - 1 } := by
  rw [Sched.listAddLast, if_neg (Nat.ne_of_gt room)]

theorem listAddFirst_room (room : 0 < σ.room) : σ.listAddFirst q p =
    { σ with lists := Function.update σ.lists q (p :: σ.lists q), room := σ.room - 1 } := by
  rw [Sched.listAddFirst, if_neg (Nat.ne_of_gt room)]

theorem listRemoveData_mem (inside : p ∈ σ.lists q) : σ.listRemoveData q p =
    { σ with lists := Function.update σ.lists q ((σ.lists q).erase p), room := σ.room + 1 } := by
  rw [Sched.listRemoveData, if_pos inside]

/-- The lists behind a removal, whether or not the process was there. -/
theorem lists_listRemoveData (q' : ProcessList) : (σ.listRemoveData q p).lists q' =
    if q' = q then (σ.lists q).erase p else σ.lists q' := by
  unfold Sched.listRemoveData
  split
  · exact Function.update_apply _ _ _ _
  next outside =>
    split
    next same => rw [same, List.erase_of_not_mem outside]
    · rfl

theorem listRemoveData_fields : ∃ lists room, σ.room ≤ room ∧ (p ∈ σ.lists q → σ.room < room) ∧
    σ.listRemoveData q p = { σ with lists := lists, room := room } := by
  unfold Sched.listRemoveData
  split
  · exact ⟨_, _, Nat.le_succ _, fun _ => Nat.lt_succ_self _, rfl⟩
  next outside => exact ⟨σ.lists, σ.room, Nat.le_refl _, fun inside => absurd inside outside, rfl⟩

@[simp] theorem pcbs_listRemoveData : (σ.listRemoveData q p).pcbs = σ.pcbs := by
  obtain ⟨_, _, _, _, fields⟩ := listRemoveData_fields (σ := σ) (q := q) (p := p)
  rw [fields]

/-- A field of a PCB that an update leaves alone. -/
theorem pcbs_setPcb {α : Type} {f : Pcb → Pcb} (field : Pcb → α) (same : ∀ p, field (f p) = field p) :
    field ((σ.setPcb p f).pcbs i) = field (σ.pcbs i) := by
  show field (Function.update σ.pcbs p (f (σ.pcbs p)) i) = _
  by_cases here : i = p
  · rw [here, Function.update_self, same]
  · rw [Function.update_of_ne here]

theorem terminal_setState {state : ProcessState} :
    ((σ.setState p state).pcbs i).shellId = (σ.pcbs i).shellId :=
  pcbs_setPcb Pcb.shellId fun _ => rfl

theorem state_setState {state : ProcessState} : ((σ.setState p state).pcbs p).state = state := by
  show (Function.update σ.pcbs p _ p).state = _
  rw [Function.update_self]

theorem state_setState_other {state : ProcessState} (other : i ≠ p) :
    ((σ.setState p state).pcbs i).state = (σ.pcbs i).state := by
  show (Function.update σ.pcbs p _ i).state = _
  rw [Function.update_of_ne other]

/-- Processes have moved between the queues; of the PCBs only the state, EAX and the open
files may have changed. -/
structure Moved (σ σ' : Sched) : Prop where
  all : σ'.lists .all = σ.lists .all
  idle : σ'.idleProcess = σ.idleProcess
  created : σ'.created = σ.created
  running : σ'.runningProcess = σ.runningProcess
  focused : σ'.focusedTerminal = σ.focusedTerminal
  latest : σ'.latestRunning = σ.latestRunning
  pids : σ'.pids = σ.pids
  pcbs : ∀ i, ∃ state eax openFiles, σ'.pcbs i = { σ.pcbs i with
    state := state, regs := { (σ.pcbs i).regs with eax := eax }, openFiles := openFiles }

theorem Moved.trans {σ'' : Sched} (first : Moved σ σ') (second : Moved σ' σ'') : Moved σ σ'' := by
  constructor
  · rw [second.all, first.all]
  · rw [second.idle, first.idle]
  · rw [second.created, first.created]
  · rw [second.running, first.running]
  · rw [second.focused, first.focused]
  · rw [second.latest, first.latest]
  · rw [second.pids, first.pids]
  · intro i
    obtain ⟨state, eax, openFiles, before⟩ := first.pcbs i
    obtain ⟨state', eax', openFiles', after⟩ := second.pcbs i
    refine ⟨state', eax', openFiles', ?_⟩
    rw [after, before]

theorem moved_refl : Moved σ σ := ⟨rfl, rfl, rfl, rfl, rfl, rfl, rfl, fun _ => ⟨_, _, _, rfl⟩⟩

theorem moved_setPcb {f : Pcb → Pcb} (small : ∀ p : Pcb, ∃ state eax openFiles, f p = { p with
    state := state, regs := { p.regs with eax := eax }, openFiles := openFiles }) :
    Moved σ (σ.setPcb p f) := by
  refine ⟨rfl, rfl, rfl, rfl, rfl, rfl, rfl, fun i => ?_⟩
  show ∃ state eax openFiles, Function.update σ.pcbs p (f (σ.pcbs p)) i = _
  by_cases here : i = p
  · rw [here, Function.update_self]
    exact small (σ.pcbs p)
  · rw [Function.update_of_ne here]
    exact ⟨_, _, _, rfl⟩

theorem moved_setState {state : ProcessState} : Moved σ (σ.setState p state) :=
  moved_setPcb fun _ => ⟨_, _, _, rfl⟩

theorem moved_setEax {eax : Nat} : Moved σ (σ.setEax p eax) := moved_setPcb fun _ => ⟨_, _, _, rfl⟩

theorem moved_listAddLast (queue : q ≠ .all) : Moved σ (σ.listAddLast q p) := by
  unfold Sched.listAddLast
  split
  · exact moved_refl
  · exact ⟨Function.update_of_ne queue.symm _ _, rfl, rfl, rfl, rfl, rfl, rfl, fun _ => ⟨_, _, _, rfl⟩⟩

theorem moved_listAddFirst (queue : q ≠ .all) : Moved σ (σ.listAddFirst q p) := by
  unfold Sched.listAddFirst
  split
  · exact moved_refl
  · exact ⟨Function.update_of_ne queue.symm _ _, rfl, rfl, rfl, rfl, rfl, rfl, fun _ => ⟨_, _, _, rfl⟩⟩

theorem moved_listRemoveData (queue : q ≠ .all) : Moved σ (σ.listRemoveData q p) := by
  unfold Sched.listRemoveData
  split
  · exact ⟨Function.update_of_ne queue.symm _ _, rfl, rfl, rfl, rfl, rfl, rfl, fun _ => ⟨_, _, _, rfl⟩⟩
  · exact moved_refl

theorem moved_setReady : Moved σ (σ.setProcessAsReady p) := by
  unfold Sched.setProcessAsReady
  split
  · exact moved_refl
  · exact moved_setState.trans (moved_listAddLast (by decide))

theorem moved_unblock : Moved σ (Sched.unblock p q σ) := by
  unfold Sched.unblock
  split
  · exact moved_refl
  · exact moved_setReady

theorem moved_wake {ppid exitCode : Nat} : Moved σ (σ.wakeUpParentProcess ppid exitCode) := by
  unfold Sched.wakeUpParentProcess
  split
  · exact moved_refl
  · exact ((moved_listRemoveData (by decide)).trans moved_setEax).trans moved_unblock

theorem moved_answered (answered : Answered p σ σ') : Moved σ σ' := by
  obtain ⟨⟨eax, openFiles, caller⟩, lists, pids, created, running, idle, latest, focused, _⟩ := answered
  refine ⟨by rw [lists], idle, created, running, focused, latest, pids, fun i => ?_⟩
  rw [caller]
  by_cases here : i = p
  · rw [here, Function.update_self]
    exact ⟨_, _, _, rfl⟩
  · rw [Function.update_of_ne here]
    exact ⟨_, _, _, rfl⟩

/-! ## The operations of the scheduler -/

/-- Two states with the same processes in each list, whatever these do with their PCBs. -/
structure SameLists (σ σ' : Sched) : Prop where
  lists : ∀ q, (σ'.lists q).Perm (σ.lists q)
  idle : σ'.idleProcess = σ.idleProcess
  created : σ'.created = σ.created
  latest : σ'.latestRunning = σ.latestRunning
  states : ∀ i, (σ'.pcbs i).state = (σ.pcbs i).state
  terminals : ∀ i, (σ'.pcbs i).shellId = (σ.pcbs i).shellId

theorem listed_lists (same : ∀ q, (σ'.lists q).Perm (σ.lists q)) (i : Nat) : listed σ' i = listed σ i := by
  rw [listed, listed, (same _).count_eq, (same _).count_eq, (same _).count_eq]

theorem Queued.same (queued : Queued full out σ) (same : SameLists σ σ') : Queued full out σ' := by
  obtain ⟨lists, idle, created, latest, states, terminals⟩ := same
  have mem : ∀ q i, i ∈ σ'.lists q ↔ i ∈ σ.lists q := fun q i => (lists q).mem_iff
  constructor
  · rw [mem, idle]
    exact queued.idle
  · exact (lists .all).nodup_iff.mpr queued.unique
  · intro i inside
    rw [created]
    exact queued.created i ((mem _ _).mp inside)
  · intro q i inside
    exact (mem _ _).mpr (queued.alive q i ((mem _ _).mp inside))
  · intro i
    rw [listed_lists lists]
    exact queued.once i
  · intro i gone other
    rw [idle] at other
    rw [listed_lists lists]
    exact queued.gone i gone other
  · intro enough i inside here other
    rw [idle] at other
    rw [listed_lists lists]
    exact queued.complete enough i ((mem _ _).mp inside) here other
  · intro q inside
    rw [idle, mem] at inside
    exact queued.unblocked q inside
  · intro q queue i inside
    rw [states]
    exact queued.states q queue i ((mem _ _).mp inside)
  · intro i inside other
    rw [idle] at other
    rw [terminals]
    exact queued.terminal i ((mem _ _).mp inside) other
  · intro t small
    rw [latest, idle, mem, terminals]
    exact queued.latest t small

theorem sameLists_setRegs {f : Regs → Regs} : SameLists σ (σ.setRegs p f) :=
  ⟨fun _ => .refl _, rfl, rfl, rfl, fun _ => pcbs_setPcb Pcb.state fun _ => rfl,
    fun _ => pcbs_setPcb Pcb.shellId fun _ => rfl⟩

theorem sameLists_answered (answered : Answered p σ σ') : SameLists σ σ' := by
  obtain ⟨⟨eax, openFiles, caller⟩, lists, _, created, _, idle, latest, _, _⟩ := answered
  refine ⟨fun q => by rw [lists], idle, created, latest, fun i => ?_, fun i => ?_⟩
  · rw [caller]
    by_cases here : i = p
    · rw [here, Function.update_self]
    · rw [Function.update_of_ne here]
  · rw [caller]
    by_cases here : i = p
    · rw [here, Function.update_self]
    · rw [Function.update_of_ne here]

/-- Where a process that is listed nowhere is not. -/
theorem notListed (none : listed σ p = 0) (queue : q ≠ .all) : p ∉ σ.lists q := by
  rw [← List.count_eq_zero]
  unfold listed at none
  cases q with
  | all => exact absurd rfl queue
  | ready | blockedOnProcess | blockedOnKeyboard => omega

theorem listed_pos (inside : p ∈ σ.lists q) (queue : q ≠ .all) : 1 ≤ listed σ p := by
  apply Nat.pos_of_ne_zero
  intro none
  exact notListed none queue inside

theorem Queued.dead (queued : Queued full out σ) (dead : p ∉ σ.lists .all) : listed σ p = 0 := by
  have outside : ∀ q, (σ.lists q).count p = 0 :=
    fun q => List.count_eq_zero.mpr fun inside => dead (queued.alive q p inside)
  rw [listed, outside, outside, outside]

/-- A process in one queue is not in another. -/
theorem Queued.elsewhere (queued : Queued full out σ) {q' : ProcessList} (inside : p ∈ σ.lists q)
    (queue : q ≠ .all) (queue' : q' ≠ .all) (other : q' ≠ q) : p ∉ σ.lists q' := by
  intro both
  have once := queued.once p
  have first := List.count_pos_iff.mpr inside
  have second := List.count_pos_iff.mpr both
  unfold listed at once
  cases q <;> cases q' <;> first | exact queue rfl | exact queue' rfl | exact other rfl | omega

theorem Queued.nodup (queued : Queued full out σ) (queue : q ≠ .all) : (σ.lists q).Nodup := by
  rw [List.nodup_iff_count]
  intro i
  have once := queued.once i
  unfold listed at once
  cases q with
  | all => exact absurd rfl queue
  | ready | blockedOnProcess | blockedOnKeyboard => omega

/-- The members of `out` count, not their order. -/
theorem Queued.congr {out' : List Nat} (queued : Queued full out σ)
    (same : ∀ i, i ≠ σ.idleProcess → (i ∈ out ↔ i ∈ out')) : Queued full out' σ := by
  refine { queued with gone := fun i gone other => ?_, complete := fun enough i inside here other => ?_ }
  · exact queued.gone i ((same i other).mpr gone) other
  · exact queued.complete enough i inside (fun gone => here ((same i other).mp gone)) other

/-- A process gets the state of a queue and, if there is a node for it, a place in it. -/
structure Enqueued (full : Prop) (q : ProcessList) (p : Nat) (σ σ' : Sched) : Prop where
  place : 0 < σ.room ∧ (σ'.lists q).Perm (p :: σ.lists q) ∨ ¬ full ∧ σ'.lists q = σ.lists q
  others : ∀ q', q' ≠ q → σ'.lists q' = σ.lists q'
  idle : σ'.idleProcess = σ.idleProcess
  created : σ'.created = σ.created
  latest : σ'.latestRunning = σ.latestRunning
  state : (σ'.pcbs p).state = queueState q
  states : ∀ i, i ≠ p → (σ'.pcbs i).state = (σ.pcbs i).state
  terminals : ∀ i, (σ'.pcbs i).shellId = (σ.pcbs i).shellId

theorem enqueued_last (room : full → 0 < σ.room) :
    Enqueued full q p σ ((σ.setState p (queueState q)).listAddLast q p) := by
  unfold Sched.listAddLast
  split
  next empty =>
    have empty : σ.room = 0 := empty
    refine ⟨.inr ⟨fun enough => ?_, rfl⟩, fun _ _ => rfl, rfl, rfl, rfl, state_setState,
      fun _ => state_setState_other, fun _ => terminal_setState⟩
    exact Nat.ne_of_gt (room enough) empty
  next some =>
    refine ⟨.inl ⟨Nat.pos_of_ne_zero some, ?_⟩, fun q' other => Function.update_of_ne other _ _, rfl, rfl, rfl, state_setState,
      fun _ => state_setState_other, fun _ => terminal_setState⟩
    simp only [Function.update_self]
    exact List.perm_append_comm

theorem enqueued_first (room : full → 0 < σ.room) :
    Enqueued full q p σ ((σ.setState p (queueState q)).listAddFirst q p) := by
  unfold Sched.listAddFirst
  split
  next empty =>
    have empty : σ.room = 0 := empty
    refine ⟨.inr ⟨fun enough => ?_, rfl⟩, fun _ _ => rfl, rfl, rfl, rfl, state_setState,
      fun _ => state_setState_other, fun _ => terminal_setState⟩
    exact Nat.ne_of_gt (room enough) empty
  next some =>
    refine ⟨.inl ⟨Nat.pos_of_ne_zero some, ?_⟩, fun q' other => Function.update_of_ne other _ _, rfl, rfl, rfl, state_setState,
      fun _ => state_setState_other, fun _ => terminal_setState⟩
    simp only [Function.update_self]
    exact List.Perm.refl _

section Insertion
variable (enqueued : Enqueued full q p σ σ') (queue : q ≠ .all)
include enqueued queue

theorem listed_enqueued : (∀ i, listed σ' i = listed σ i + if i = p then 1 else 0) ∨
    ¬ full ∧ ∀ i, listed σ' i = listed σ i := by
  rcases enqueued.place with ⟨_, place⟩ | ⟨lacking, same⟩
  · left
    intro i
    have count : (σ'.lists q).count i = (σ.lists q).count i + if i = p then 1 else 0 := by
      rw [place.count_eq i, List.count_cons]
      by_cases same : i = p
      · simp [same]
      · rw [if_neg same, if_neg fun same' => same (beq_iff_eq.mp same').symm]
    unfold listed
    cases q with
    | all => exact absurd rfl queue
    | ready =>
      rw [enqueued.others .blockedOnProcess (by decide), enqueued.others .blockedOnKeyboard (by decide)]
      omega
    | blockedOnProcess =>
      rw [enqueued.others .ready (by decide), enqueued.others .blockedOnKeyboard (by decide)]
      omega
    | blockedOnKeyboard =>
      rw [enqueued.others .ready (by decide), enqueued.others .blockedOnProcess (by decide)]
      omega
  · right
    refine ⟨lacking, listed_lists fun q' => ?_⟩
    by_cases here : q' = q
    · rw [here, same]
    · rw [enqueued.others q' here]

/-- Who is in a list afterwards. -/
theorem mem_enqueued {q' : ProcessList} (inside : i ∈ σ'.lists q') :
    i ∈ σ.lists q' ∨ q' = q ∧ i = p ∧ 0 < σ.room := by
  by_cases here : q' = q
  · subst here
    rcases enqueued.place with ⟨room, place⟩ | ⟨_, same⟩
    · rw [place.mem_iff, List.mem_cons] at inside
      exact inside.symm.imp_right fun same => ⟨rfl, same, room⟩
    · rw [same] at inside
      exact .inl inside
  · rw [enqueued.others q' here] at inside
    exact .inl inside

theorem Queued.insert (queued : Queued full (p :: out) σ) (alive : 0 < σ.room → p ∈ σ.lists .all)
    (fresh : p ∉ out) (none : listed σ p = 0) (user : q ≠ .ready → p ≠ σ.idleProcess) : Queued full out σ' := by
  have all : σ'.lists .all = σ.lists .all := enqueued.others .all fun same => queue same.symm
  have count := listed_enqueued enqueued queue
  constructor
  · rw [all, enqueued.idle]
    exact queued.idle
  · rw [all]
    exact queued.unique
  · rw [all, enqueued.created]
    exact queued.created
  · intro q' i inside
    rw [all]
    rcases mem_enqueued enqueued queue inside with before | ⟨_, rfl, room⟩
    · exact queued.alive q' i before
    · exact alive room
  · intro i
    have once := queued.once i
    rcases count with count | ⟨_, count⟩
    · rw [count]
      by_cases here : i = p
      · subst here
        simp [none]
      · rw [if_neg here]
        exact once
    · rw [count]
      exact once
  · intro i gone other
    rw [enqueued.idle] at other
    have before := queued.gone i (List.mem_cons_of_mem _ gone) other
    have here : i ≠ p := fun same => fresh (same ▸ gone)
    rcases count with count | ⟨_, count⟩
    · rw [count, before, if_neg here]
    · rw [count, before]
  · intro enough i inside here other
    rw [all] at inside
    rw [enqueued.idle] at other
    rcases count with count | ⟨lacking, _⟩
    · rw [count]
      by_cases same : i = p
      · rw [if_pos same]
        exact Nat.le_add_left _ _
      · rw [if_neg same]
        exact queued.complete enough i inside (List.not_mem_cons_of_ne_of_not_mem same here) other
    · exact absurd enough lacking
  · intro q' inside
    rw [enqueued.idle] at inside
    rcases mem_enqueued enqueued queue inside with before | ⟨rfl, same, _⟩
    · exact queued.unblocked q' before
    · by_contra other
      exact user (fun ready => other (.inr ready)) same.symm
  · intro q' queue' i inside
    rcases mem_enqueued enqueued queue inside with before | ⟨rfl, rfl, _⟩
    · have here : i ≠ p := fun same => notListed none queue' (same ▸ before)
      rw [enqueued.states i here]
      exact queued.states q' queue' i before
    · exact enqueued.state
  · rw [all, enqueued.idle]
    intro i inside other
    rw [enqueued.terminals]
    exact queued.terminal i inside other
  · intro t small
    rw [enqueued.latest, enqueued.idle, all, enqueued.terminals]
    exact queued.latest t small

end Insertion

theorem Queued.setReady (queued : Queued full (p :: out) σ) (alive : 0 < σ.room → p ∈ σ.lists .all)
    (fresh : p ∉ out) (room : full → 0 < σ.room) : Queued full out (σ.setProcessAsReady p) := by
  unfold Sched.setProcessAsReady
  split
  next inside =>
    have idle : p = σ.idleProcess := by
      by_contra other
      exact notListed (queued.gone p List.mem_cons_self other) (by decide) inside
    refine queued.congr fun i other => ?_
    rw [← idle] at other
    simp [other]
  next outside =>
    apply queued.insert (enqueued_last room) (by decide) alive fresh
    · by_cases idle : p = σ.idleProcess
      · have offProcess : p ∉ σ.lists .blockedOnProcess := fun inside =>
          absurd (queued.unblocked _ (idle ▸ inside)) (by decide)
        have offKeyboard : p ∉ σ.lists .blockedOnKeyboard := fun inside =>
          absurd (queued.unblocked _ (idle ▸ inside)) (by decide)
        rw [listed, List.count_eq_zero.mpr outside, List.count_eq_zero.mpr offProcess,
          List.count_eq_zero.mpr offKeyboard]
      · exact queued.gone p List.mem_cons_self idle
    · exact fun other => absurd rfl other

section Blocking
variable (queued : Queued full (p :: out) σ) (alive : p ∈ σ.lists .all) (fresh : p ∉ out)
  (room : full → 0 < σ.room) (user : p ≠ σ.idleProcess)
include queued alive fresh room user

theorem Queued.blockOnProcess : Queued full out (σ.blockProcessOnAnotherProcess p) :=
  queued.insert (enqueued_last room) (by decide) (fun _ => alive) fresh
    (queued.gone p List.mem_cons_self user) fun _ => user

theorem Queued.blockOnKeyboard : Queued full out (σ.blockProcessOnKeyboard p) :=
  queued.insert (enqueued_first room) (by decide) (fun _ => alive) fresh
    (queued.gone p List.mem_cons_self user) fun _ => user

end Blocking

/-! ## Processes that leave a queue -/

theorem count_listRemoveData (q' : ProcessList) : ((σ.listRemoveData q p).lists q').count i =
    (σ.lists q').count i - if q' = q ∧ i = p then 1 else 0 := by
  rw [lists_listRemoveData]
  by_cases same : q' = q
  · rw [if_pos same, same, List.count_erase]
    by_cases here : i = p
    · simp [here]
    · rw [if_neg fun same' => here (beq_iff_eq.mp same').symm, if_neg fun both => here both.2]
  · rw [if_neg same, if_neg fun both => same both.1, Nat.sub_zero]

theorem mem_listRemoveData {q' : ProcessList} (inside : i ∈ (σ.listRemoveData q p).lists q') :
    i ∈ σ.lists q' := by
  rw [lists_listRemoveData] at inside
  split at inside
  next same => rw [same]; exact List.mem_of_mem_erase inside
  next => exact inside

/-- The removal of a process from one of the queues. -/
theorem listed_listRemoveData (inside : p ∈ σ.lists q) (queue : q ≠ .all) :
    listed (σ.listRemoveData q p) i = listed σ i - if i = p then 1 else 0 := by
  have some := List.count_pos_iff.mpr inside
  unfold listed
  rw [count_listRemoveData, count_listRemoveData, count_listRemoveData]
  by_cases here : i = p
  · subst here
    cases q with
    | all => exact absurd rfl queue
    | ready => simp; omega
    | blockedOnProcess => simp; omega
    | blockedOnKeyboard => simp; omega
  · simp only [here, and_false, if_false, Nat.sub_zero]

/-- A process that is taken from a queue of blocked ones. -/
theorem Queued.remove (queued : Queued full out σ) (queue : q ≠ .all) (blocked : q ≠ .ready)
    (inside : p ∈ σ.lists q) : Queued full (p :: out) (σ.listRemoveData q p) ∧ p ∉ out ∧
      p ≠ σ.idleProcess := by
  have user : p ≠ σ.idleProcess := by
    intro idle
    exact (queued.unblocked q (idle ▸ inside)).elim queue blocked
  have some := listed_pos inside queue
  have fresh : p ∉ out := by
    intro gone
    have none := queued.gone p gone user
    omega
  refine ⟨?_, fresh, user⟩
  have all : (σ.listRemoveData q p).lists .all = σ.lists .all := by
    rw [lists_listRemoveData, if_neg fun same => queue same.symm]
  have pcbs := pcbs_listRemoveData (σ := σ) (q := q) (p := p)
  obtain ⟨lists, room, _, _, fields⟩ := listRemoveData_fields (σ := σ) (q := q) (p := p)
  have idle : (σ.listRemoveData q p).idleProcess = σ.idleProcess := by rw [fields]
  have created : (σ.listRemoveData q p).created = σ.created := by rw [fields]
  have latest : (σ.listRemoveData q p).latestRunning = σ.latestRunning := by rw [fields]
  constructor
  · rw [all, idle]
    exact queued.idle
  · rw [all]
    exact queued.unique
  · rw [all, created]
    exact queued.created
  · intro q' i member
    rw [all]
    exact queued.alive q' i (mem_listRemoveData member)
  · intro i
    rw [listed_listRemoveData inside queue]
    exact Nat.le_trans (Nat.sub_le _ _) (queued.once i)
  · intro i gone other
    rw [idle] at other
    rw [listed_listRemoveData inside queue]
    rcases List.mem_cons.mp gone with here | gone
    · have once := queued.once i
      rw [if_pos here]
      omega
    · rw [queued.gone i gone other, Nat.zero_sub]
  · intro enough i member here other
    rw [all] at member
    rw [idle] at other
    obtain ⟨differs, here⟩ := List.ne_and_not_mem_of_not_mem_cons here
    rw [listed_listRemoveData inside queue, if_neg differs, Nat.sub_zero]
    exact queued.complete enough i member here other
  · intro q' member
    rw [idle] at member
    exact queued.unblocked q' (mem_listRemoveData member)
  · intro q' queue' i member
    rw [pcbs]
    exact queued.states q' queue' i (mem_listRemoveData member)
  · rw [all, idle, pcbs]
    exact queued.terminal
  · rw [all, idle, pcbs, latest]
    exact queued.latest

/-- A blocked process becomes ready. -/
theorem Queued.unblock (queued : Queued full out σ) (queue : q ≠ .all) (blocked : q ≠ .ready)
    (inside : p ∈ σ.lists q) {σ1 : Sched} (same : SameLists (σ.listRemoveData q p) σ1)
    (room : 0 < σ1.room) : Queued full out (Sched.unblock p q σ1) ∧
      Sched.unblock p q σ1 = σ1.setProcessAsReady p := by
  obtain ⟨removed, fresh, user⟩ := queued.remove queue blocked inside
  have removed := removed.same same
  have user : p ≠ σ1.idleProcess := by
    obtain ⟨_, _, _, _, fields⟩ := listRemoveData_fields (σ := σ) (q := q) (p := p)
    rw [same.idle, fields]
    exact user
  have alive : p ∈ σ1.lists .all := by
    rw [(same.lists _).mem_iff, lists_listRemoveData, if_neg fun other => queue other.symm]
    exact queued.alive q p inside
  have none := removed.gone p List.mem_cons_self user
  have elsewhere : Sched.isBlockedElsewhere p q σ1 = false := by
    have offProcess : p ∉ σ1.lists .blockedOnProcess := notListed none (by decide)
    have offKeyboard : p ∉ σ1.lists .blockedOnKeyboard := notListed none (by decide)
    simp [Sched.isBlockedElsewhere, offProcess, offKeyboard]
  have result : Sched.unblock p q σ1 = σ1.setProcessAsReady p := by
    rw [Sched.unblock, elsewhere]
    rfl
  rw [result]
  exact ⟨removed.setReady (fun _ => alive) fresh fun _ => room, rfl⟩

theorem Queued.wake (queued : Queued full out σ) (ppid exitCode : Nat) :
    Queued full out (σ.wakeUpParentProcess ppid exitCode) := by
  unfold Sched.wakeUpParentProcess
  split
  · exact queued
  next parent found =>
    have inside := List.mem_of_find?_eq_some found
    refine (queued.unblock (by decide) (by decide) inside sameLists_setRegs ?_).1
    show 0 < (σ.listRemoveData .blockedOnProcess parent).room
    rw [listRemoveData_mem inside]
    exact Nat.succ_pos _

/-- The lists of a killed process. -/
theorem lists_forgetProcess (q : ProcessList) :
    (Sched.forgetProcess p σ).lists q = (σ.lists q).erase p := by
  unfold Sched.forgetProcess
  cases q <;> simp [lists_listRemoveData]

theorem forgetProcess_fields : ∃ lists room, σ.room ≤ room ∧ (p ∈ σ.lists .all → σ.room < room) ∧
    Sched.forgetProcess p σ = { σ with lists := lists, room := room } := by
  obtain ⟨_, r1, m1, _, e1⟩ := listRemoveData_fields (σ := σ) (q := .ready) (p := p)
  obtain ⟨_, r2, m2, n2, e2⟩ := listRemoveData_fields (σ := σ.listRemoveData .ready p) (q := .all) (p := p)
  obtain ⟨_, r3, m3, _, e3⟩ := listRemoveData_fields
    (σ := (σ.listRemoveData .ready p).listRemoveData .all p) (q := .blockedOnProcess) (p := p)
  obtain ⟨l4, r4, m4, _, e4⟩ := listRemoveData_fields
    (σ := ((σ.listRemoveData .ready p).listRemoveData .all p).listRemoveData .blockedOnProcess p)
    (q := .blockedOnKeyboard) (p := p)
  have first : (σ.listRemoveData .ready p).room = r1 := by rw [e1]
  have second : ((σ.listRemoveData .ready p).listRemoveData .all p).room = r2 := by rw [e2]
  have third : (((σ.listRemoveData .ready p).listRemoveData .all p).listRemoveData
      .blockedOnProcess p).room = r3 := by rw [e3]
  have all : (σ.listRemoveData .ready p).lists .all = σ.lists .all := by
    rw [lists_listRemoveData, if_neg (by decide)]
  rw [first] at m2 n2
  rw [second] at m3
  rw [third] at m4
  rw [all] at n2
  refine ⟨l4, r4, by omega, fun inside => ?_, ?_⟩
  · have more := n2 inside
    omega
  · rw [Sched.forgetProcess, e4, e3, e2, e1]

theorem terminalIndex_succ {t : Nat} (few : t < numberOfTerminals) : Sched.terminalIndex (t + 1) = t := by
  unfold numberOfTerminals at few
  unfold Sched.terminalIndex wordModulus
  omega

/-- The state that `kill_process` leaves, in terms of the one before. -/
theorem killed_fields : ∃ pcbs room, σ.room ≤ room ∧ (p ∈ σ.lists .all → σ.room < room) ∧
    (∀ i, (pcbs i).state = (σ.pcbs i).state ∧ (pcbs i).shellId = (σ.pcbs i).shellId) ∧
    Sched.killed p σ = { σ with
      pcbs := pcbs
      pids := Function.update σ.pids (σ.pcbs p).pid false
      lists := fun q => (σ.lists q).erase p
      room := room
      latestRunning := Function.update σ.latestRunning
        (Sched.terminalIndex (σ.pcbs p).shellId) σ.idleProcess } := by
  obtain ⟨lists, room, more, freed, fields⟩ := forgetProcess_fields (p := p) (σ := freePid (σ.pcbs p).pid σ)
  have erased : lists = fun q => (σ.lists q).erase p := by
    funext q
    have here := lists_forgetProcess (p := p) (σ := freePid (σ.pcbs p).pid σ) q
    rw [fields] at here
    exact here
  refine ⟨Function.update σ.pcbs p { σ.pcbs p with openFiles := [] }, room, more, freed,
    fun i => ?_, ?_⟩
  · constructor
    · exact pcbs_setPcb (f := fun p => { p with openFiles := [] }) Pcb.state fun _ => rfl
    · exact pcbs_setPcb (f := fun p => { p with openFiles := [] }) Pcb.shellId fun _ => rfl
  · rw [Sched.killed, fields, erased]
    rfl

theorem listed_erase (everywhere : ∀ q, σ'.lists q = (σ.lists q).erase p) (once : listed σ p ≤ 1)
    (i : Nat) : listed σ' i = if i = p then 0 else listed σ i := by
  unfold listed at once ⊢
  rw [everywhere, everywhere, everywhere]
  by_cases here : i = p
  · subst here
    rw [List.count_erase_self, List.count_erase_self, List.count_erase_self, if_pos rfl]
    omega
  · rw [List.count_erase_of_ne here, List.count_erase_of_ne here, List.count_erase_of_ne here,
      if_neg here]

theorem mem_killed {q' : ProcessList} (inside : i ∈ (Sched.killed p σ).lists q') : i ∈ σ.lists q' := by
  obtain ⟨_, _, _, _, _, fields⟩ := killed_fields (σ := σ) (p := p)
  rw [fields] at inside
  exact List.mem_of_mem_erase inside

theorem Queued.killed (queued : Queued full out σ) (user : p ≠ σ.idleProcess)
    (alive : p ∈ σ.lists .all) : Queued full out (Sched.killed p σ) := by
  obtain ⟨pcbs, room, _, _, same, fields⟩ := killed_fields (σ := σ) (p := p)
  have count : ∀ i, listed (Sched.killed p σ) i = if i = p then 0 else listed σ i := by
    intro i
    apply listed_erase _ (queued.once p)
    intro q
    rw [fields]
  have small : 1 ≤ (σ.pcbs p).shellId ∧ (σ.pcbs p).shellId ≤ numberOfTerminals :=
    queued.terminal p alive user
  constructor
  · rw [fields]
    exact (List.mem_erase_of_ne user.symm).mpr queued.idle
  · rw [fields]
    exact queued.unique.erase p
  · intro i inside
    have before := queued.created i (mem_killed inside)
    rw [fields]
    exact before
  · intro q i inside
    have before := queued.alive q i (mem_killed inside)
    have survives : i ≠ p := by
      intro dead
      by_cases queue : q = .all
      · rw [queue, fields, dead] at inside
        exact queued.unique.not_mem_erase inside
      · have none := count i
        rw [if_pos dead] at none
        exact notListed none queue inside
    rw [fields]
    exact (List.mem_erase_of_ne survives).mpr before
  · intro i
    rw [count]
    split
    · exact Nat.zero_le _
    · exact queued.once i
  · intro i gone other
    rw [count]
    split
    · rfl
    · refine queued.gone i gone ?_
      rw [fields] at other
      exact other
  · intro enough i inside here other
    rw [count]
    rw [fields] at inside other
    split
    next dead => exact absurd (dead ▸ inside) queued.unique.not_mem_erase
    next => exact queued.complete enough i (List.mem_of_mem_erase inside) here other
  · intro q inside
    have before := mem_killed inside
    rw [fields] at before
    exact queued.unblocked q before
  · intro q queue i inside
    have before := queued.states q queue i (mem_killed inside)
    rw [fields]
    exact (same i).1.trans before
  · intro i inside other
    have before := mem_killed inside
    rw [fields] at other ⊢
    rw [(same i).2]
    exact queued.terminal i before other
  · intro t few
    rw [fields]
    simp only
    by_cases here : t = Sched.terminalIndex (σ.pcbs p).shellId
    · rw [here, Function.update_self]
      exact .inl rfl
    · rw [Function.update_of_ne here]
      refine (queued.latest t few).imp_right ?_
      rintro ⟨inside, shell⟩
      rw [(same _).2]
      refine ⟨(List.mem_erase_of_ne fun dead => here ?_).mpr inside, shell⟩
      rw [← dead, shell, terminalIndex_succ few]

/-- A process that is not alive is out of the queues anyway. -/
theorem Queued.drop (queued : Queued full (p :: out) σ) (dead : p ∉ σ.lists .all) : Queued full out σ := by
  refine { queued with gone := fun i gone other => ?_, complete := fun enough i inside here other => ?_ }
  · exact queued.gone i (List.mem_cons_of_mem _ gone) other
  · refine queued.complete enough i inside (List.not_mem_cons_of_ne_of_not_mem ?_ here) other
    exact fun same => dead (same ▸ inside)

/-- The process on the CPU is killed. -/
theorem Queued.killedRunning (queued : Queued full (p :: out) σ) (user : p ≠ σ.idleProcess)
    (alive : p ∈ σ.lists .all) : Queued full out (Sched.killed p σ) := by
  apply (queued.killed user alive).drop
  obtain ⟨_, _, _, _, _, fields⟩ := killed_fields (σ := σ) (p := p)
  rw [fields]
  exact queued.unique.not_mem_erase

theorem Queued.aborted (queued : Queued full out σ) (user : p ≠ σ.idleProcess)
    (alive : p ∈ σ.lists .all) : Queued full out (Sched.aborted p σ) := by
  have moved : Moved σ (σ.wakeUpParentProcess (σ.pcbs p).ppid 1) := moved_wake
  apply (queued.wake (σ.pcbs p).ppid 1).killed
  · rw [moved.idle]
    exact user
  · rw [moved.all]
    exact alive

/-! ## New processes -/

/-- What is known of the PCB of a new process. -/
structure NewPcb (ppid shellId : Nat) (σ : Sched) (pcb : Pcb) : Prop where
  pid : pcb.pid = (allocatePid σ).1
  ppid : pcb.ppid = ppid
  terminal : pcb.shellId = shellId
  files : pcb.openFiles = []

theorem newPcb_fields (filename : CString) (ppid : Nat) (stdout : CString) (shellId entry cr3 : Nat)
    (σ : Sched) : ∃ pcb, NewPcb ppid shellId σ pcb ∧ newPcb filename ppid stdout shellId entry cr3 σ =
      { σ with
        pids := (allocatePid σ).2.pids, created := σ.created + 1
        pcbs := Function.update σ.pcbs σ.created pcb } := by
  unfold newPcb
  split
  next pid σ1 found =>
    have pid' : pid = (allocatePid σ).1 := by rw [found]
    have rest : σ1 = { σ with pids := (allocatePid σ).2.pids } := by
      have after : σ1 = (allocatePid σ).2 := by rw [found]
      rw [after]
      unfold allocatePid
      split <;> rfl
    rw [rest]
    exact ⟨_, ⟨pid', rfl, rfl, rfl⟩, rfl⟩

/-- Without a node the new process is not even among all processes. -/
theorem withProcess_fields (filename : CString) (ppid : Nat) (stdout : CString)
    (shellId entry cr3 : Nat) (σ : Sched) : ∃ pcb all, NewPcb ppid shellId σ pcb ∧
      (σ.room = 0 ∧ all = σ.lists .all ∨ 0 < σ.room ∧ all = σ.lists .all ++ [σ.created]) ∧
      Sched.withProcess filename ppid stdout shellId entry cr3 σ = { σ with
        pids := (allocatePid σ).2.pids, created := σ.created + 1
        pcbs := Function.update σ.pcbs σ.created pcb
        lists := Function.update σ.lists .all all, room := σ.room - 1 } := by
  obtain ⟨pcb, shell, fields⟩ := newPcb_fields filename ppid stdout shellId entry cr3 σ
  unfold Sched.withProcess Sched.listAddLast
  rw [fields]
  split
  next none =>
    have none : σ.room = 0 := none
    refine ⟨pcb, σ.lists .all, shell, .inl ⟨none, rfl⟩, ?_⟩
    rw [Function.update_eq_self, none]
  next some => exact ⟨pcb, _, shell, .inr ⟨Nat.pos_of_ne_zero some, rfl⟩, rfl⟩

theorem Queued.withProcess (filename : CString) (ppid : Nat) (stdout : CString)
    {shellId : Nat} (entry cr3 : Nat) (queued : Queued full out σ) (shell : 1 ≤ shellId ∧ shellId ≤ numberOfTerminals) :
    Queued full (σ.created :: out) (Sched.withProcess filename ppid stdout shellId entry cr3 σ) := by
  obtain ⟨pcb, all, new, added, fields⟩ := withProcess_fields filename ppid stdout
    shellId entry cr3 σ
  have fresh : σ.created ∉ σ.lists .all := fun inside => Nat.lt_irrefl _ (queued.created _ inside)
  have old : ∀ i ∈ σ.lists .all, i ≠ σ.created := fun i inside same => fresh (same ▸ inside)
  have grown : σ.lists .all ⊆ all := by
    rcases added with ⟨_, rfl⟩ | ⟨_, rfl⟩
    · exact List.Subset.refl _
    · exact List.subset_append_left _ _
  have members : ∀ i ∈ all, i ∈ σ.lists .all ∨ i = σ.created := by
    intro i inside
    rcases added with ⟨_, rfl⟩ | ⟨_, rfl⟩
    · exact .inl inside
    · simpa using inside
  have queues : ∀ q, q ≠ .all → Function.update σ.lists .all all q = σ.lists q :=
    fun q queue => Function.update_of_ne queue _ _
  have count : ∀ i, listed (Sched.withProcess filename ppid stdout shellId entry cr3 σ) i = listed σ i := by
    intro i
    rw [fields, listed, listed]
    simp only [queues _ (show ProcessList.ready ≠ .all by decide),
      queues _ (show ProcessList.blockedOnProcess ≠ .all by decide),
      queues _ (show ProcessList.blockedOnKeyboard ≠ .all by decide)]
  constructor
  · rw [fields]
    simp only [Function.update_self]
    exact grown queued.idle
  · rw [fields]
    simp only [Function.update_self]
    rcases added with ⟨_, rfl⟩ | ⟨_, rfl⟩
    · exact queued.unique
    · rw [List.nodup_append]
      exact ⟨queued.unique, by simp, fun i inside _ new => by simp at new; exact new ▸ old i inside⟩
  · intro i inside
    rw [fields] at inside ⊢
    simp only [Function.update_self] at inside ⊢
    rcases members i inside with before | rfl
    · exact Nat.lt_succ_of_lt (queued.created i before)
    · exact Nat.lt_succ_self _
  · intro q i inside
    rw [fields] at inside ⊢
    simp only [Function.update_self] at inside ⊢
    by_cases queue : q = .all
    · rw [queue, Function.update_self] at inside
      exact inside
    · rw [queues q queue] at inside
      exact grown (queued.alive q i inside)
  · intro i
    rw [count]
    exact queued.once i
  · intro i gone other
    rw [count]
    rcases List.mem_cons.mp gone with rfl | gone
    · exact queued.dead fresh
    · refine queued.gone i gone ?_
      rw [fields] at other
      exact other
  · intro enough i inside here other
    rw [count]
    rw [fields] at inside other
    simp only [Function.update_self] at inside
    obtain ⟨differs, here⟩ := List.ne_and_not_mem_of_not_mem_cons here
    exact queued.complete enough i ((members i inside).resolve_right differs) here other
  · intro q inside
    rw [fields] at inside
    by_cases queue : q = .all
    · exact .inl queue
    · simp only [queues q queue] at inside
      exact queued.unblocked q inside
  · intro q queue i inside
    rw [fields] at inside ⊢
    simp only [queues q queue] at inside ⊢
    rw [Function.update_of_ne (old i (queued.alive q i inside))]
    exact queued.states q queue i inside
  · intro i inside other
    rw [fields] at inside other ⊢
    simp only [Function.update_self] at inside ⊢
    rcases members i inside with before | rfl
    · rw [Function.update_of_ne (old i before)]
      exact queued.terminal i before other
    · rw [Function.update_self, new.terminal]
      exact shell
  · intro t few
    rw [fields]
    simp only [Function.update_self]
    refine (queued.latest t few).imp_right ?_
    rintro ⟨inside, same⟩
    rw [Function.update_of_ne (old _ inside)]
    exact ⟨grown inside, same⟩

theorem withProcess_alive (filename : CString) (ppid : Nat) (stdout : CString) (shellId entry cr3 : Nat)
    (room : 0 < σ.room) :
    σ.created ∈ (Sched.withProcess filename ppid stdout shellId entry cr3 σ).lists .all := by
  obtain ⟨_, all, _, added, fields⟩ := withProcess_fields filename ppid stdout shellId entry cr3 σ
  rw [fields]
  simp only [Function.update_self]
  rcases added with ⟨none, _⟩ | ⟨_, rfl⟩
  · omega
  · simp

theorem withProcess_keeps (filename : CString) (ppid : Nat) (stdout : CString) (shellId entry cr3 : Nat)
    (inside : i ∈ σ.lists .all) :
    i ∈ (Sched.withProcess filename ppid stdout shellId entry cr3 σ).lists .all := by
  obtain ⟨_, all, _, added, fields⟩ := withProcess_fields filename ppid stdout shellId entry cr3 σ
  rw [fields]
  simp only [Function.update_self]
  rcases added with ⟨_, rfl⟩ | ⟨_, rfl⟩
  · exact inside
  · exact List.mem_append_left _ inside

theorem withProcess_new (filename : CString) (ppid : Nat) (stdout : CString) (shellId entry cr3 : Nat) :
    NewPcb ppid shellId σ
      ((Sched.withProcess filename ppid stdout shellId entry cr3 σ).pcbs σ.created) := by
  obtain ⟨pcb, _, new, _, fields⟩ := withProcess_fields filename ppid stdout shellId entry cr3 σ
  rw [fields]
  simp only [Function.update_self]
  exact new

theorem withProcess_created (filename : CString) (ppid : Nat) (stdout : CString)
    (shellId entry cr3 : Nat) :
    (Sched.withProcess filename ppid stdout shellId entry cr3 σ).created = σ.created + 1 := by
  obtain ⟨_, _, _, _, fields⟩ := withProcess_fields filename ppid stdout shellId entry cr3 σ
  rw [fields]

theorem withProcess_room (filename : CString) (ppid : Nat) (stdout : CString) (shellId entry cr3 : Nat) :
    (Sched.withProcess filename ppid stdout shellId entry cr3 σ).room = σ.room - 1 := by
  obtain ⟨_, _, _, _, fields⟩ := withProcess_fields filename ppid stdout shellId entry cr3 σ
  rw [fields]

/-! ## Dispatch -/

theorem nextProcess_cases (idle : Nat) (l : List Nat) :
    (∀ i ∈ l, i = idle) ∧ Sched.nextProcess idle l = (idle, []) ∨
      ∃ skipped next rest, l = skipped ++ next :: rest ∧ (∀ i ∈ skipped, i = idle) ∧ next ≠ idle ∧
        Sched.nextProcess idle l = (next, rest) := by
  induction l with
  | nil => exact .inl ⟨by simp, rfl⟩
  | cons p rest ih =>
    by_cases here : p = idle
    · rw [Sched.nextProcess, if_pos here]
      rcases ih with ⟨all, none⟩ | ⟨skipped, next, rest', split', before, other, some⟩
      · exact .inl ⟨List.forall_mem_cons.mpr ⟨here, all⟩, none⟩
      · refine .inr ⟨p :: skipped, next, rest', by rw [split', List.cons_append], ?_, other, some⟩
        exact List.forall_mem_cons.mpr ⟨here, before⟩
    · exact .inr ⟨[], p, rest, rfl, by simp, here, by rw [Sched.nextProcess, if_neg here]⟩

/-- What is known of the process that is dispatched. -/
structure Dispatched (σ σ' : Sched) : Prop where
  all : σ'.lists .all = σ.lists .all
  idle : σ'.idleProcess = σ.idleProcess
  running : (σ'.pcbs σ'.runningProcess).state = .running
  next : (σ'.runningProcess = σ.idleProcess ∧ (∀ i ∈ σ.lists .ready, i = σ.idleProcess) ∧
      σ'.lists .ready = []) ∨
    ∃ skipped, σ.lists .ready = skipped ++ σ'.runningProcess :: σ'.lists .ready ∧
      (∀ i ∈ skipped, i = σ.idleProcess) ∧ σ'.runningProcess ≠ σ.idleProcess

theorem switched_fields : ∃ room, σ.room ≤ room ∧ Sched.switched σ = { σ with
    runningProcess := (Sched.nextProcess σ.idleProcess (σ.lists .ready)).1
    lists := Function.update σ.lists .ready (Sched.nextProcess σ.idleProcess (σ.lists .ready)).2
    room := room
    latestRunning := if (Sched.nextProcess σ.idleProcess (σ.lists .ready)).1 = σ.idleProcess then
        σ.latestRunning
      else Function.update σ.latestRunning
        (Sched.terminalIndex (σ.pcbs (Sched.nextProcess σ.idleProcess (σ.lists .ready)).1).shellId)
        (Sched.nextProcess σ.idleProcess (σ.lists .ready)).1
    pcbs := Function.update σ.pcbs (Sched.nextProcess σ.idleProcess (σ.lists .ready)).1
      { σ.pcbs (Sched.nextProcess σ.idleProcess (σ.lists .ready)).1 with state := .running } } := by
  refine ⟨σ.room + ((σ.lists .ready).length -
    (Sched.nextProcess σ.idleProcess (σ.lists .ready)).2.length), Nat.le_add_right _ _, ?_⟩
  unfold Sched.switched dispatchNext
  simp only
  split
  · rfl
  · rfl

theorem update_ready (rest : List Nat) : Function.update σ.lists .ready rest .all = σ.lists .all :=
  Function.update_of_ne (show ProcessList.all ≠ .ready by decide) _ _

theorem dispatched_switched : Dispatched σ (Sched.switched σ) := by
  obtain ⟨room, _, fields⟩ := switched_fields (σ := σ)
  rw [fields]
  rcases nextProcess_cases σ.idleProcess (σ.lists .ready) with
    ⟨only, next⟩ | ⟨skipped, p, rest, ready, before, other, next⟩
  · rw [next]
    refine ⟨update_ready [], rfl, ?_, .inl ⟨rfl, only, ?_⟩⟩
    · simp only [Function.update_self]
    · simp only [Function.update_self]
  · rw [next]
    refine ⟨update_ready rest, rfl, ?_, .inr ⟨skipped, ?_, before, other⟩⟩
    · simp only [Function.update_self]
    · simp only [Function.update_self]
      exact ready

theorem Dispatched.sublist (dispatched : Dispatched σ σ') :
    (σ'.lists .ready).Sublist (σ.lists .ready) := by
  rcases dispatched.next with ⟨_, _, none⟩ | ⟨skipped, ready, _, _⟩
  · rw [none]
    exact List.nil_sublist _
  · rw [ready]
    exact ((List.sublist_cons_self _ _).trans (List.sublist_append_right _ _))

theorem Dispatched.alive (dispatched : Dispatched σ σ') (queued : Queued full out σ) :
    σ'.runningProcess ∈ σ.lists .all := by
  rcases dispatched.next with ⟨idle, _, _⟩ | ⟨skipped, ready, _, _⟩
  · rw [idle]
    exact queued.idle
  · apply queued.alive .ready
    rw [ready]
    simp

/-- How often a process is in the ready list behind the dispatch. -/
theorem Dispatched.count (dispatched : Dispatched σ σ') (other : i ≠ σ.idleProcess) :
    (σ.lists .ready).count i = (σ'.lists .ready).count i + if i = σ'.runningProcess then 1 else 0 := by
  rcases dispatched.next with ⟨idle, only, none⟩ | ⟨skipped, ready, before, user⟩
  · have outside : i ∉ σ.lists .ready := fun inside => other (only i inside)
    rw [none, List.count_eq_zero.mpr outside, idle, if_neg other]
    simp
  · have outside : i ∉ skipped := fun inside => other (before i inside)
    rw [ready, List.count_append, List.count_eq_zero.mpr outside, List.count_cons, Nat.zero_add]
    by_cases here : i = σ'.runningProcess
    · rw [if_pos here, if_pos (beq_iff_eq.mpr here.symm)]
    · rw [if_neg here, if_neg fun same => here (beq_iff_eq.mp same).symm]

/-- The dispatched process leaves the ready list, where it was first but for the idle one. -/
theorem Queued.switched (queued : Queued full [] σ) :
    Queued full [(Sched.switched σ).runningProcess] (Sched.switched σ) := by
  have dispatched := dispatched_switched (σ := σ)
  have alive := dispatched.alive queued
  obtain ⟨room, _, fields⟩ := switched_fields (σ := σ)
  generalize (Sched.nextProcess σ.idleProcess (σ.lists .ready)) = taken at fields
  obtain ⟨next, rest⟩ := taken
  have running : (Sched.switched σ).runningProcess = next := by rw [fields]
  have ready : (Sched.switched σ).lists .ready = rest := by rw [fields]; simp only [Function.update_self]
  have queues : ∀ q, q ≠ .ready → (Sched.switched σ).lists q = σ.lists q := by
    intro q queue
    rw [fields]
    exact Function.update_of_ne queue _ _
  have states : ∀ i, i ≠ next → (Sched.switched σ).pcbs i = σ.pcbs i := by
    intro i differs
    rw [fields]
    exact Function.update_of_ne differs _ _
  have terminals : ∀ i, ((Sched.switched σ).pcbs i).shellId = (σ.pcbs i).shellId := by
    intro i
    rw [fields]
    exact pcbs_setPcb (f := fun p => { p with state := .running }) Pcb.shellId fun _ => rfl
  have small : ∀ i, listed (Sched.switched σ) i ≤ listed σ i := by
    intro i
    have fewer := dispatched.sublist.count_le i
    rw [listed, listed, queues .blockedOnProcess (by decide),
      queues .blockedOnKeyboard (by decide)]
    omega
  have count : ∀ i, i ≠ σ.idleProcess →
      listed σ i = listed (Sched.switched σ) i + if i = next then 1 else 0 := by
    intro i other
    have exact' := dispatched.count other
    rw [running] at exact'
    rw [listed, listed, queues .blockedOnProcess (by decide),
      queues .blockedOnKeyboard (by decide)]
    omega
  rw [running] at alive ⊢
  constructor
  · rw [dispatched.all, dispatched.idle]
    exact queued.idle
  · rw [dispatched.all]
    exact queued.unique
  · rw [dispatched.all, fields]
    exact queued.created
  · intro q i inside
    rw [dispatched.all]
    by_cases queue : q = .ready
    · rw [queue] at inside
      exact queued.alive _ i (dispatched.sublist.subset inside)
    · rw [queues q queue] at inside
      exact queued.alive q i inside
  · exact fun i => Nat.le_trans (small i) (queued.once i)
  · intro i gone other
    rw [dispatched.idle] at other
    have once := queued.once i
    rw [count i other, if_pos (List.mem_singleton.mp gone)] at once
    omega
  · intro enough i inside here other
    rw [dispatched.all] at inside
    rw [dispatched.idle] at other
    have before := queued.complete enough i inside (by simp) other
    rw [count i other, if_neg fun same => here (List.mem_singleton.mpr same)] at before
    exact before
  · intro q inside
    rw [dispatched.idle] at inside
    by_cases queue : q = .ready
    · exact .inr queue
    · rw [queues q queue] at inside
      exact queued.unblocked q inside
  · intro q queue i inside
    have before : i ∈ σ.lists q := by
      by_cases queue : q = .ready
      · rw [queue] at inside ⊢
        exact dispatched.sublist.subset inside
      · rwa [queues q queue] at inside
    have differs : i ≠ next := by
      rintro rfl
      by_cases idle : i = σ.idleProcess
      · rcases dispatched.next with ⟨_, _, none⟩ | ⟨_, _, _, user⟩
        · have ready := (queued.unblocked q (idle ▸ before)).resolve_left queue
          rw [ready, none] at inside
          exact absurd inside List.not_mem_nil
        · rw [running] at user
          exact user idle
      · have once := queued.once i
        have some := listed_pos inside queue
        rw [count i idle, if_pos rfl] at once
        omega
    rw [states i differs]
    exact queued.states q queue i before
  · intro i inside other
    rw [dispatched.all] at inside
    rw [dispatched.idle] at other
    rw [terminals]
    exact queued.terminal i inside other
  · intro t few
    have before := queued.latest t few
    rw [dispatched.idle, dispatched.all, terminals]
    rw [fields]
    simp only
    split
    · exact before
    next user =>
      by_cases here : t = Sched.terminalIndex (σ.pcbs next).shellId
      · right
        obtain ⟨least, most⟩ := queued.terminal next alive user
        rw [here, Function.update_self]
        refine ⟨alive, ?_⟩
        unfold numberOfTerminals at most
        unfold Sched.terminalIndex wordModulus
        omega
      · rw [Function.update_of_ne here]
        exact before

/-! ## The lists that an operation leaves alone -/

variable {q' : ProcessList}

theorem lists_listAddLast (other : q' ≠ q) : (σ.listAddLast q p).lists q' = σ.lists q' := by
  unfold Sched.listAddLast
  split
  · rfl
  · exact Function.update_of_ne other _ _

theorem lists_listAddFirst (other : q' ≠ q) : (σ.listAddFirst q p).lists q' = σ.lists q' := by
  unfold Sched.listAddFirst
  split
  · rfl
  · exact Function.update_of_ne other _ _

theorem lists_setReady (other : q ≠ .ready) : (σ.setProcessAsReady p).lists q = σ.lists q := by
  unfold Sched.setProcessAsReady
  split
  · rfl
  · exact lists_listAddLast other

theorem lists_unblock (other : q ≠ .ready) : (Sched.unblock p q' σ).lists q = σ.lists q := by
  unfold Sched.unblock
  split
  · rfl
  · exact lists_setReady other

theorem lists_withProcess {filename stdout : CString} {ppid shellId entry cr3 : Nat} (other : q ≠ .all) :
    (Sched.withProcess filename ppid stdout shellId entry cr3 σ).lists q = σ.lists q := by
  obtain ⟨_, _, _, _, fields⟩ := withProcess_fields filename ppid stdout shellId entry cr3 σ
  rw [fields]
  simp only [Function.update_of_ne other]

theorem lists_killed : (Sched.killed p σ).lists q = (σ.lists q).erase p := by
  obtain ⟨_, _, _, _, _, fields⟩ := killed_fields (σ := σ) (p := p)
  rw [fields]

theorem lists_switched (other : q ≠ .ready) : (Sched.switched σ).lists q = σ.lists q := by
  obtain ⟨_, _, fields⟩ := switched_fields (σ := σ)
  rw [fields]
  exact Function.update_of_ne other _ _

end Operations

end Delos.Invariants
