import Delos.Invariants.SchedulerRuns

/-!
# The processes that are blocked on another process

Who enters and who leaves the list, and what happens meanwhile to the saved registers:
only EAX is ever set behind the back of a process.
-/
namespace Delos.Invariants
open Lib Source

/-- The registers stay the same but for EAX, and that too where `strict` holds. -/
def RegsKept (strict : Prop) (p : Nat) (σ σ' : Sched) : Prop :=
  ∃ eax, (σ'.pcbs p).regs = { (σ.pcbs p).regs with eax := eax } ∧
    (strict → eax = (σ.pcbs p).regs.eax)

section Registers
variable {strict : Prop} {σ σ' σ'' : Sched} {i p pcb n : Nat} {q : ProcessList}

theorem regsKept_same (same : (σ'.pcbs p).regs = (σ.pcbs p).regs) : RegsKept strict p σ σ' :=
  ⟨(σ.pcbs p).regs.eax, same, fun _ => rfl⟩

theorem RegsKept.trans (first : RegsKept strict p σ σ') (second : RegsKept strict p σ' σ'') :
    RegsKept strict p σ σ'' := by
  obtain ⟨eax, before, kept⟩ := first
  obtain ⟨eax', after, kept'⟩ := second
  refine ⟨eax', ?_, fun still => ?_⟩
  · rw [after, before]
  · rw [kept' still, before, kept still]

theorem regs_setReady : ((σ.setProcessAsReady p).pcbs i).regs = (σ.pcbs i).regs := by
  have state : ((σ.setState p .ready).pcbs i).regs = (σ.pcbs i).regs :=
    pcbs_setPcb Pcb.regs fun _ => rfl
  unfold Sched.setProcessAsReady
  split
  · rfl
  · unfold Sched.listAddLast
    split
    · exact state
    · exact state

theorem regs_unblock : ((Sched.unblock p q σ).pcbs i).regs = (σ.pcbs i).regs := by
  unfold Sched.unblock
  split
  · rfl
  · exact regs_setReady

theorem regs_listAddLast : ((σ.listAddLast q p).pcbs i).regs = (σ.pcbs i).regs := by
  unfold Sched.listAddLast
  split <;> rfl

theorem regs_listAddFirst : ((σ.listAddFirst q p).pcbs i).regs = (σ.pcbs i).regs := by
  unfold Sched.listAddFirst
  split <;> rfl

theorem regsKept_setEax {eax : Nat} (other : strict → p ≠ i) : RegsKept strict p σ (σ.setEax i eax) := by
  by_cases here : p = i
  · subst here
    refine ⟨eax, ?_, fun still => absurd rfl (other still)⟩
    show (Function.update σ.pcbs p _ p).regs = _
    rw [Function.update_self]
  · apply regsKept_same
    show (Function.update σ.pcbs i _ p).regs = _
    rw [Function.update_of_ne here]

theorem regs_setRegs_other {f : Regs → Regs} (other : p ≠ i) :
    ((σ.setRegs i f).pcbs p).regs = (σ.pcbs p).regs := by
  show (Function.update σ.pcbs i _ p).regs = _
  rw [Function.update_of_ne other]

theorem regsKept_wake {ppid exitCode : Nat} (free : strict → p ∉ σ.lists .blockedOnProcess) :
    RegsKept strict p σ (σ.wakeUpParentProcess ppid exitCode) := by
  unfold Sched.wakeUpParentProcess
  split
  · exact regsKept_same rfl
  next parent found =>
    have inside := List.mem_of_find?_eq_some found
    have removed : RegsKept strict p σ (σ.listRemoveData .blockedOnProcess parent) :=
      regsKept_same (by rw [pcbs_listRemoveData])
    have set : RegsKept strict p (σ.listRemoveData .blockedOnProcess parent)
        ((σ.listRemoveData .blockedOnProcess parent).setEax parent exitCode) := by
      apply regsKept_setEax
      rintro still rfl
      exact free still inside
    exact (removed.trans set).trans (regsKept_same regs_unblock)

theorem regs_killed : ((Sched.killed p σ).pcbs i).regs = (σ.pcbs i).regs := by
  obtain ⟨_, _, _, _, fields⟩ := forgetProcess_fields (p := p) (σ := freePid (σ.pcbs p).pid σ)
  rw [Sched.killed, fields]
  exact pcbs_setPcb (f := fun p => { p with openFiles := [] }) Pcb.regs fun _ => rfl

theorem regs_withProcess {filename stdout : CString} {ppid shellId entry cr3 : Nat} (old : p < σ.created) :
    ((Sched.withProcess filename ppid stdout shellId entry cr3 σ).pcbs p).regs = (σ.pcbs p).regs := by
  obtain ⟨_, _, _, _, fields⟩ := withProcess_fields filename ppid stdout shellId entry cr3 σ
  rw [fields]
  simp only [Function.update_of_ne (Nat.ne_of_lt old)]

theorem regs_switched : ((Sched.switched σ).pcbs i).regs = (σ.pcbs i).regs := by
  obtain ⟨_, _, fields⟩ := switched_fields (σ := σ)
  rw [fields]
  exact pcbs_setPcb (f := fun p => { p with state := .running }) Pcb.regs fun _ => rfl

/-- A system call sets EAX of its caller and of a parent that it wakes. -/
theorem regsKept_effect (old : p < σ.created)
    (apart : strict → p ≠ pcb ∧ p ∉ σ.lists .blockedOnProcess) (effect : CallEffect pcb σ n σ') :
    RegsKept strict p σ σ' := by
  have caller : strict → p ≠ pcb := fun still => (apart still).1
  have child : p ≠ σ.created := Nat.ne_of_lt old
  have ready : ∀ σ1 i, RegsKept strict p σ1 (σ1.setProcessAsReady i) := fun _ _ => regsKept_same regs_setReady
  cases effect with
  | @answer _ σ1 answered _ _ =>
    obtain ⟨eax, openFiles, same⟩ := answered.caller
    have first : RegsKept strict p σ σ1 := by
      by_cases here : p = pcb
      · refine ⟨eax, ?_, fun still => absurd here (caller still)⟩
        rw [same, here, Function.update_self]
      · apply regsKept_same
        rw [same, Function.update_of_ne here]
    exact first.trans (ready _ _)
  | @exec _ _ _ σ0 σ1 before _ made =>
    have first : RegsKept strict p σ σ0 := by
      rw [before]
      exact (ready _ _).trans (regsKept_setEax caller)
    have number : σ0.created = σ.created := by
      rw [before]
      exact moved_setReady.created
    have second : RegsKept strict p σ0 σ1 := by
      rw [made]
      exact regsKept_same (regs_withProcess (number ▸ old))
    exact ((first.trans second).trans (regsKept_setEax caller)).trans (ready _ _)
  | execFailed => exact (ready _ _).trans (regsKept_setEax caller)
  | @fork _ _ σ1 _ made =>
    have first : RegsKept strict p σ σ1 := by
      rw [made]
      exact regsKept_same (regs_withProcess old)
    have copied : RegsKept strict p σ1 (σ1.setRegs σ.created (forkRegs (σ.pcbs pcb).regs)) :=
      regsKept_same (regs_setRegs_other child)
    exact ((((first.trans copied).trans (regsKept_setEax caller)).trans
      (regsKept_setEax fun _ => child)).trans (ready _ _)).trans (ready _ _)
  | wait _ =>
    exact regsKept_same (regs_listAddLast.trans (pcbs_setPcb Pcb.regs fun _ => rfl))
  | readLine =>
    exact regsKept_same (regs_listAddFirst.trans (pcbs_setPcb Pcb.regs fun _ => rfl))
  | exit =>
    exact (regsKept_wake fun still => (apart still).2).trans (regsKept_same regs_killed)
  | unknown _ => exact regsKept_same regs_killed

theorem regsKept_aborted (free : strict → p ∉ σ.lists .blockedOnProcess) :
    RegsKept strict p σ (Sched.aborted i σ) :=
  (regsKept_wake free).trans (regsKept_same regs_killed)

end Registers

section Waiting
variable {full : Prop} {σ σ' : Sched} {out : List Nat} {s s' : System} {event : Event} {W D p n code : Nat}

/-! ## Waking a parent -/

/-- The blocked processes without the one that waits with the pid. -/
def stillBlocked (ppid : Nat) (σ : Sched) : List Nat :=
  match σ.waitingParent ppid with
  | none => σ.lists .blockedOnProcess
  | some parent => (σ.lists .blockedOnProcess).erase parent

theorem blocked_wake (ppid exitCode : Nat) :
    (σ.wakeUpParentProcess ppid exitCode).lists .blockedOnProcess = stillBlocked ppid σ := by
  unfold Sched.wakeUpParentProcess stillBlocked
  cases σ.waitingParent ppid with
  | none => rfl
  | some parent =>
    dsimp only
    rw [lists_unblock (by decide)]
    show (σ.listRemoveData .blockedOnProcess parent).lists .blockedOnProcess = _
    rw [lists_listRemoveData, if_pos rfl]

theorem eax_wake (ppid exitCode : Nat) (found : σ.waitingParent ppid = some W) :
    ((σ.wakeUpParentProcess ppid exitCode).pcbs W).regs.eax = exitCode := by
  unfold Sched.wakeUpParentProcess
  rw [found]
  simp only
  rw [regs_unblock]
  show (Function.update (σ.listRemoveData .blockedOnProcess W).pcbs W _ W).regs.eax = exitCode
  rw [Function.update_self]

theorem mem_setReady (room : 0 < σ.room) : p ∈ (σ.setProcessAsReady p).lists .ready := by
  unfold Sched.setProcessAsReady
  split
  next inside => exact inside
  next =>
    rw [listAddLast_room (show 0 < (σ.setState p .ready).room from room)]
    simp only [Function.update_self]
    exact List.mem_append_right _ (List.mem_singleton.mpr rfl)

theorem ready_wake (queued : Queued full out σ) (ppid exitCode : Nat)
    (found : σ.waitingParent ppid = some W) :
    W ∈ (σ.wakeUpParentProcess ppid exitCode).lists .ready := by
  have inside := List.mem_of_find?_eq_some found
  have room : 0 < ((σ.listRemoveData .blockedOnProcess W).setEax W exitCode).room := by
    show 0 < (σ.listRemoveData .blockedOnProcess W).room
    rw [listRemoveData_mem inside]
    exact Nat.succ_pos _
  have result := (queued.unblock (by decide) (by decide) inside sameLists_setRegs room).2
  unfold Sched.wakeUpParentProcess
  rw [found]
  simp only
  rw [Sched.setEax, result]
  exact mem_setReady room

theorem mem_stillBlocked {ppid : Nat} (nodup : (σ.lists .blockedOnProcess).Nodup) :
    W ∈ stillBlocked ppid σ ↔ W ∈ σ.lists .blockedOnProcess ∧ σ.waitingParent ppid ≠ some W := by
  unfold stillBlocked
  split
  next none => simp [none]
  next parent some =>
    rw [nodup.mem_erase_iff, some]
    constructor
    · rintro ⟨other, inside⟩
      exact ⟨inside, fun same => other (Option.some.inj same).symm⟩
    · rintro ⟨inside, other⟩
      exact ⟨fun same => other (same ▸ rfl), inside⟩

/-! ## Who is killed -/

/-- The first reader belongs to the terminal that has the focus. -/
def ReaderFocused (σ : Sched) : Prop :=
  ∃ pcb, (σ.lists .blockedOnKeyboard).head? = some pcb ∧ (σ.pcbs pcb).shellId = σ.focusedTerminal

/-- The process that an event ends, and the exit code that its parent is woken with. -/
inductive Terminates (s : System) : Event → Nat → Nat → Prop
  | exit {cpu : Cpu} {user : UserSpace} (call : cpu.eax = 100) :
      Terminates s (.systemCall cpu user) s.sched.runningProcess cpu.ebx
  | fault {fault : Fault} : Terminates s (.fault fault) s.sched.runningProcess 1
  | pageFault {line : CString} (focused : ReaderFocused s.sched) :
      Terminates s (.enter line false) s.sched.runningProcess 1
  | abort {cpu : Cpu}
      (later : (s.sched.pcbs s.sched.getLatestRunningNonIdleProcess).pid ∉ [0, 1, 2, 3, 4]) :
      Terminates s (.abort cpu) s.sched.getLatestRunningNonIdleProcess 1

/-- The number is in no case of the switch. -/
def UnknownCall : Event → Prop
  | .systemCall cpu _ => cpu.eax < 100 ∨ 126 < cpu.eax ∨ cpu.eax = 108
  | _ => False

/-- `SYSCALL_WAIT` with the pid of a process that exists. -/
def WaitCall (s : System) : Event → Prop
  | .systemCall cpu _ => cpu.eax = 121 ∧ s.sched.existsProcess cpu.ebx = true
  | _ => False

/-- The lists behind the end of a process. -/
structure Ended (σ : Sched) (D code : Nat) (σ' : Sched) : Prop where
  dead : D ∉ σ'.lists .all
  others : ∀ p ∈ σ.lists .all, p ≠ D → p ∈ σ'.lists .all
  blocked : σ'.lists .blockedOnProcess = (stillBlocked (σ.pcbs D).ppid σ).erase D
  woken : ∀ W, σ.waitingParent (σ.pcbs D).ppid = some W → W ≠ D →
    (σ'.pcbs W).regs.eax = code ∧ (W ∈ σ'.lists .ready ∨ W = σ'.runningProcess)

/-- Before the switch. -/
structure Ending (σ : Sched) (D code : Nat) (σ' : Sched) : Prop where
  idle : σ'.idleProcess = σ.idleProcess
  dead : D ∉ σ'.lists .all
  others : ∀ p ∈ σ.lists .all, p ≠ D → p ∈ σ'.lists .all
  blocked : σ'.lists .blockedOnProcess = (stillBlocked (σ.pcbs D).ppid σ).erase D
  woken : ∀ W, σ.waitingParent (σ.pcbs D).ppid = some W → W ≠ D →
    (σ'.pcbs W).regs.eax = code ∧ W ∈ σ'.lists .ready

theorem ending_killed (queued : Queued full out σ) :
    Ending σ D code (Sched.killed D (σ.wakeUpParentProcess (σ.pcbs D).ppid code)) := by
  have moved : Moved σ (σ.wakeUpParentProcess (σ.pcbs D).ppid code) := moved_wake
  constructor
  · exact lasting_killed.idle.trans moved.idle
  · rw [lists_killed, moved.all]
    exact queued.unique.not_mem_erase
  · intro p inside other
    rw [lists_killed, moved.all]
    exact (List.mem_erase_of_ne other).mpr inside
  · rw [lists_killed, blocked_wake]
  · intro W found other
    rw [lists_killed, regs_killed]
    refine ⟨eax_wake _ _ found, ?_⟩
    exact (List.mem_erase_of_ne other).mpr (ready_wake queued _ _ found)

theorem Ending.setReady (ending : Ending σ D code σ') (p : Nat) :
    Ending σ D code (σ'.setProcessAsReady p) := by
  obtain ⟨idle, dead, others, blocked, woken⟩ := ending
  have moved : Moved σ' (σ'.setProcessAsReady p) := moved_setReady
  constructor
  · rw [moved.idle, idle]
  · rwa [moved.all]
  · rwa [moved.all]
  · rw [lists_setReady (by decide), blocked]
  · intro W found other
    obtain ⟨eax, inside⟩ := woken W found other
    rw [regs_setReady]
    refine ⟨eax, ?_⟩
    unfold Sched.setProcessAsReady
    split
    · exact inside
    · unfold Sched.listAddLast
      split
      · exact inside
      · simp only [Function.update_self]
        exact List.mem_append_left _ inside

theorem Ending.switched (ending : Ending σ D code σ') (unblocked : σ.idleProcess ∉ σ.lists .blockedOnProcess) :
    Ended σ D code (Sched.switched σ') := by
  obtain ⟨idle, dead, others, blocked, woken⟩ := ending
  have dispatched := dispatched_switched (σ := σ')
  constructor
  · rwa [dispatched.all]
  · rwa [dispatched.all]
  · rw [lists_switched (by decide), blocked]
  · intro W found other
    obtain ⟨eax, inside⟩ := woken W found other
    have user : W ≠ σ'.idleProcess := by
      rw [idle]
      rintro rfl
      exact unblocked (List.mem_of_find?_eq_some found)
    rw [regs_switched]
    refine ⟨eax, ?_⟩
    rcases dispatched.next with ⟨_, only, _⟩ | ⟨skipped, ready, before, _⟩
    · exact absurd (only W inside) user
    · rw [ready] at inside
      rcases List.mem_append.mp inside with passed | here
      · exact absurd (before W passed) user
      · exact (List.mem_cons.mp here).symm

theorem pcbs_saved {α : Type} (field : Pcb → α) (plain : ∀ p regs, field { p with regs := regs } = field p)
    (cpu : Cpu) (n i : Nat) : field ((Sched.saved cpu n σ).pcbs i) = field (σ.pcbs i) := by
  rw [saved_regs]
  by_cases here : i = σ.runningProcess
  · subst here
    rw [Function.update_self]
    exact plain _ _
  · rw [Function.update_of_ne here]

theorem waitingParent_saved (cpu : Cpu) (n ppid : Nat) :
    (Sched.saved cpu n σ).waitingParent ppid = σ.waitingParent ppid := by
  have pids : ∀ i, ((Sched.saved cpu n σ).pcbs i).pid = (σ.pcbs i).pid :=
    pcbs_saved Pcb.pid (fun _ _ => rfl) cpu n
  unfold Sched.waitingParent
  simp only [pids]
  rfl

theorem Ended.ofSaved {cpu : Cpu} (ended : Ended (Sched.saved cpu n σ) D code σ') : Ended σ D code σ' := by
  obtain ⟨dead, others, blocked, woken⟩ := ended
  have ppid : ((Sched.saved cpu n σ).pcbs D).ppid = (σ.pcbs D).ppid :=
    pcbs_saved Pcb.ppid (fun _ _ => rfl) cpu n D
  have waiting := waitingParent_saved (σ := σ) cpu n (σ.pcbs D).ppid
  rw [ppid] at blocked woken
  constructor
  · exact dead
  · exact others
  · rw [blocked]
    unfold stillBlocked
    rw [waiting]
    rfl
  · rwa [waiting] at woken

theorem terminates_ended (scheduled : Scheduled full s.sched) (terminates : Terminates s event D code)
    (step : Interrupted s event s') : Ended s.sched D code s'.sched := by
  have queued := scheduled.queued
  have unblocked : s.sched.idleProcess ∉ s.sched.lists .blockedOnProcess :=
    fun inside => absurd (queued.unblocked _ inside) (by decide)
  cases terminates with
  | @exit cpu _ call =>
    cases step with
    | systemCall effect dispatch =>
      rw [call] at effect
      rw [dispatch.sched]
      cases effect with
      | answer _ _ other => exact absurd rfl other
      | unknown outside => omega
      | exit =>
        have saved := queued.same (sameLists_saved cpu 0x80)
        have number : ((Sched.saved cpu 0x80 s.sched).pcbs s.sched.runningProcess).regs.ebx = cpu.ebx := by
          rw [saved_regs, Function.update_self]
        rw [number]
        exact Ended.ofSaved ((ending_killed saved).switched unblocked)
  | fault =>
    cases step with
    | fault dispatch =>
      rw [dispatch.sched]
      exact (ending_killed queued).switched unblocked
  | pageFault focused =>
    cases step with
    | dropped _ _ nobody =>
      obtain ⟨pcb, first, here⟩ := focused
      exact absurd here (nobody pcb first)
    | pageFault _ _ dispatch =>
      rw [dispatch.sched]
      exact (ending_killed queued).switched unblocked
  | abort later =>
    cases step with
    | shell _ _ first => exact absurd first later
    | abort _ dispatch =>
      rw [dispatch.sched]
      have ending : Ending s.sched s.sched.getLatestRunningNonIdleProcess 1
          (Sched.aborted s.sched.getLatestRunningNonIdleProcess s.sched) := ending_killed queued
      unfold Sched.preempted
      split
      · exact (ending.setReady _).switched unblocked
      · exact ending.switched unblocked

/-! ## Every other interrupt -/

/-- Nobody leaves the list, and only the caller of `SYSCALL_WAIT` enters it. -/
structure CallContinues (pcb : Nat) (σ : Sched) (n : Nat) (σ' : Sched) : Prop where
  stay : ∀ W ∈ σ.lists .blockedOnProcess, W ∈ σ'.lists .blockedOnProcess
  enter : ∀ W ∈ σ'.lists .blockedOnProcess, W ∈ σ.lists .blockedOnProcess ∨
    W = pcb ∧ n = 121 ∧ σ.existsProcess (σ.pcbs pcb).regs.ebx = true
  alive : ∀ p ∈ σ.lists .all, p ∈ σ'.lists .all ∨ p = pcb ∧ (n < 100 ∨ 126 < n ∨ n = 108)

theorem callContinues_same {pcb : Nat}
    (blocked : σ'.lists .blockedOnProcess = σ.lists .blockedOnProcess)
    (all : ∀ p ∈ σ.lists .all, p ∈ σ'.lists .all) : CallContinues pcb σ n σ' := by
  constructor
  · intro W inside
    rwa [blocked]
  · intro W inside
    rw [blocked] at inside
    exact .inl inside
  · exact fun p inside => .inl (all p inside)

theorem effect_continues {pcb : Nat} (running : pcb ∉ σ.lists .blockedOnProcess)
    (goesOn : n ≠ 100) (effect : CallEffect pcb σ n σ') : CallContinues pcb σ n σ' := by
  cases effect with
  | answer answered _ _ =>
    apply callContinues_same
    · rw [lists_setReady (by decide), answered.lists]
    · intro p inside
      rwa [moved_setReady.all, answered.lists]
  | @exec filename entry cr3 σ0 σ1 ready _ made =>
    have same : ∀ q, q ≠ .ready → σ0.lists q = σ.lists q := by
      intro q other
      rw [ready]
      exact lists_setReady other
    apply callContinues_same
    · rw [lists_setReady (by decide)]
      show σ1.lists .blockedOnProcess = _
      rw [made, lists_withProcess (by decide), same _ (by decide)]
    · intro p inside
      rw [moved_setReady.all]
      show p ∈ σ1.lists .all
      rw [made]
      apply withProcess_keeps
      rwa [same _ (by decide)]
  | execFailed =>
    apply callContinues_same
    · exact lists_setReady (by decide)
    · intro p inside
      show p ∈ (σ.setProcessAsReady pcb).lists .all
      rwa [moved_setReady.all]
  | @fork entry cr3 σ1 _ made =>
    apply callContinues_same
    · rw [lists_setReady (by decide), lists_setReady (by decide)]
      show σ1.lists .blockedOnProcess = _
      rw [made, lists_withProcess (by decide)]
    · intro p inside
      rw [moved_setReady.all, moved_setReady.all]
      show p ∈ σ1.lists .all
      rw [made]
      apply withProcess_keeps
      exact inside
  | wait known =>
    have blocked : ∀ W, W ∈ (σ.blockProcessOnAnotherProcess pcb).lists .blockedOnProcess →
        W ∈ σ.lists .blockedOnProcess ∨ W = pcb := by
      intro W inside
      unfold Sched.blockProcessOnAnotherProcess Sched.listAddLast at inside
      split at inside
      · exact .inl inside
      · simp only [Function.update_self] at inside
        exact (List.mem_append.mp inside).imp id List.mem_singleton.mp
    constructor
    · intro W inside
      unfold Sched.blockProcessOnAnotherProcess Sched.listAddLast
      split
      · exact inside
      · simp only [Function.update_self]
        exact List.mem_append_left _ inside
    · exact fun W inside => (blocked W inside).imp id fun here => ⟨here, rfl, known⟩
    · intro p inside
      refine .inl ?_
      rw [Sched.blockProcessOnAnotherProcess, lists_listAddLast (by decide)]
      exact inside
  | readLine =>
    apply callContinues_same
    · rw [Sched.blockProcessOnKeyboard, lists_listAddFirst (by decide)]
      rfl
    · intro p inside
      rwa [Sched.blockProcessOnKeyboard, lists_listAddFirst (by decide)]
  | exit => exact absurd rfl goesOn
  | unknown outside =>
    have blocked : (Sched.killed pcb σ).lists .blockedOnProcess = σ.lists .blockedOnProcess := by
      rw [lists_killed, List.erase_of_not_mem running]
    constructor
    · intro W inside
      rwa [blocked]
    · intro W inside
      rw [blocked] at inside
      exact .inl inside
    · intro p inside
      rw [lists_killed]
      by_cases here : p = pcb
      · exact .inr ⟨here, outside⟩
      · exact .inl ((List.mem_erase_of_ne here).mpr inside)

/-- What an interrupt does that ends no process in one of the ways of `Terminates`. -/
structure Continues (s : System) (event : Event) (s' : System) : Prop where
  stay : ∀ W ∈ s.sched.lists .blockedOnProcess, W ∈ s'.sched.lists .blockedOnProcess
  enter : ∀ W ∈ s'.sched.lists .blockedOnProcess, W ∈ s.sched.lists .blockedOnProcess ∨
    W = s.sched.runningProcess ∧ WaitCall s event
  alive : ∀ p ∈ s.sched.lists .all, p ∈ s'.sched.lists .all ∨
    p = s.sched.runningProcess ∧ UnknownCall event

theorem continues_same (blocked : ∀ W, W ∈ s'.sched.lists .blockedOnProcess ↔
      W ∈ s.sched.lists .blockedOnProcess)
    (all : ∀ p ∈ s.sched.lists .all, p ∈ s'.sched.lists .all) : Continues s event s' :=
  ⟨fun W => (blocked W).mpr, fun W inside => .inl ((blocked W).mp inside), fun p inside =>
    .inl (all p inside)⟩

theorem running_free (scheduled : Scheduled full s.sched) (blocked : W ∈ s.sched.lists .blockedOnProcess) :
    W ≠ s.sched.runningProcess := by
  have queued := scheduled.queued
  rintro rfl
  by_cases idle : s.sched.runningProcess = s.sched.idleProcess
  · exact absurd (queued.unblocked _ (idle ▸ blocked)) (by decide)
  · exact notListed (queued.gone _ List.mem_cons_self idle) (by decide) blocked

theorem terminates_or_continues (scheduled : Scheduled full s.sched) (step : Interrupted s event s') :
    (∃ D code, Terminates s event D code) ∨ Continues s event s' := by
  have running : s.sched.runningProcess ∉ s.sched.lists .blockedOnProcess :=
    fun inside => running_free scheduled inside rfl
  cases step with
  | tick sched _ | dropped sched _ _ | shell sched _ _ | noTerminal sched _ =>
    refine .inr (continues_same ?_ ?_)
    · rw [sched]
      exact fun _ => Iff.rfl
    · rw [sched]
      exact fun _ => id
  | timer dispatch =>
    refine .inr (continues_same ?_ ?_)
    · rw [dispatch.sched, lists_switched (by decide), lists_setReady (by decide)]
      exact fun _ => Iff.rfl
    · rw [dispatch.sched, lists_switched (by decide), lists_setReady (by decide)]
      exact fun _ => id
  | @systemCall cpu _ σ _ effect dispatch =>
    by_cases exits : cpu.eax = 100
    · exact .inl ⟨_, _, .exit exits⟩
    · obtain ⟨stay, enter, alive⟩ := effect_continues (σ := Sched.saved cpu 0x80 s.sched) running exits effect
      have same : ∀ q, q ≠ .ready → s'.sched.lists q = σ.lists q := by
        intro q other
        rw [dispatch.sched, lists_switched other]
      have pids : ∀ i, ((Sched.saved cpu 0x80 s.sched).pcbs i).pid = (s.sched.pcbs i).pid :=
        pcbs_saved Pcb.pid (fun _ _ => rfl) cpu 0x80
      have found : ∀ pid, (Sched.saved cpu 0x80 s.sched).existsProcess pid =
          s.sched.existsProcess pid := by
        intro pid
        unfold Sched.existsProcess
        simp only [pids]
        rfl
      rw [found, saved_regs, Function.update_self] at enter
      refine .inr ⟨?_, ?_, ?_⟩
      · rw [same _ (by decide)]
        exact stay
      · rw [same _ (by decide)]
        exact enter
      · rw [same _ (by decide)]
        exact alive
  | fault _ => exact .inl ⟨_, _, .fault⟩
  | delivered _ _ sched _ _ =>
    refine .inr (continues_same ?_ ?_)
    · rw [sched, lists_unblock (by decide), lists_listRemoveData, if_neg (by decide)]
      exact fun _ => Iff.rfl
    · rw [sched, lists_unblock (by decide), lists_listRemoveData, if_neg (by decide)]
      exact fun _ => id
  | pageFault first focused _ => exact .inl ⟨_, _, .pageFault ⟨_, first, focused⟩⟩
  | abort later _ => exact .inl ⟨_, _, .abort later⟩
  | @terminal number _ room sched _ =>
    have lists := (sameLists_focusedOn (t := number) room).lists
    rw [← sched] at lists
    exact .inr (continues_same (fun _ => (lists _).mem_iff) fun _ inside => (lists _).mem_iff.mpr inside)

theorem enters_blocked (scheduled : Scheduled full s.sched) (step : Interrupted s event s')
    (inside : W ∈ s'.sched.lists .blockedOnProcess) : W ∈ s.sched.lists .blockedOnProcess ∨
      W = s.sched.runningProcess ∧ WaitCall s event := by
  rcases terminates_or_continues scheduled step with ⟨D, code, terminates⟩ | continues
  · rw [(terminates_ended scheduled terminates step).blocked] at inside
    have still := List.mem_of_mem_erase inside
    unfold stillBlocked at still
    split at still
    · exact .inl still
    · exact .inl (List.mem_of_mem_erase still)
  · exact continues.enter W inside

theorem killed_by (scheduled : Scheduled full s.sched) (step : Interrupted s event s')
    (alive : p ∈ s.sched.lists .all) (dead : p ∉ s'.sched.lists .all) :
    (∃ code, Terminates s event p code) ∨ p = s.sched.runningProcess ∧ UnknownCall event := by
  rcases terminates_or_continues scheduled step with ⟨D, code, terminates⟩ | continues
  · by_cases here : p = D
    · exact .inl ⟨code, here ▸ terminates⟩
    · exact absurd ((terminates_ended scheduled terminates step).others p alive here) dead
  · exact .inr ((continues.alive p alive).resolve_left dead)

/-! ## Who waits for whom -/

/-- The first process with the pid. -/
def processWith (pid : Nat) (σ : Sched) : Option Nat :=
  (σ.lists .all).find? fun p => (σ.pcbs p).pid = pid

/-- The process that each caller of `SYSCALL_WAIT` has asked for last. -/
def noteWait (s : System) (event : Event) (waitsFor : Nat → Option Nat) : Nat → Option Nat :=
  match event with
  | .systemCall cpu _ =>
    if cpu.eax = 121 ∧ s.sched.existsProcess cpu.ebx = true then
      Function.update waitsFor s.sched.runningProcess (processWith cpu.ebx s.sched)
    else waitsFor
  | _ => waitsFor

abbrev WaitingRun (allowed : System × (Nat → Option Nat) → Nat × Event → Prop) :=
  Run (RecordedStart fun _ => none) allowed (Recorded noteWait)

variable {waitsFor : Nat → Option Nat}

theorem noteWait_other (other : W ≠ s.sched.runningProcess) :
    noteWait s event waitsFor W = waitsFor W := by
  unfold noteWait
  split
  · split
    · rw [Function.update_of_ne other]
    · rfl
  · rfl

theorem noteWait_call (call : WaitCall s event) : ∃ P ∈ s.sched.lists .all,
    noteWait s event waitsFor s.sched.runningProcess = some P := by
  cases event with
  | systemCall cpu user =>
    obtain ⟨number, known⟩ := call
    obtain ⟨i, inside, pid⟩ := List.any_eq_true.mp known
    have found : (processWith cpu.ebx s.sched).isSome := List.find?_isSome.mpr ⟨i, inside, pid⟩
    obtain ⟨P, found⟩ := Option.isSome_iff_exists.mp found
    refine ⟨P, List.mem_of_find?_eq_some found, ?_⟩
    rw [noteWait, if_pos ⟨number, known⟩, Function.update_self, found]
  | _ => exact absurd call id

theorem terminates_withRoom {room : Nat} :
    Terminates (withRoom room s) event D code ↔ Terminates s event D code := by
  constructor
  · intro terminates
    cases terminates with
    | exit call => exact .exit call
    | fault => exact .fault
    | pageFault focused => exact .pageFault focused
    | abort later => exact .abort later
  · intro terminates
    cases terminates with
    | exit call => exact .exit (s := withRoom room s) call
    | fault => exact .fault (s := withRoom room s)
    | pageFault focused => exact .pageFault (s := withRoom room s) focused
    | abort later => exact .abort (s := withRoom room s) later

theorem terminates_unique {D' code' : Nat} (terminates : Terminates s event D code)
    (again : Terminates s event D' code') : D = D' ∧ code = code' := by
  cases terminates <;> cases again <;> exact ⟨rfl, rfl⟩

/-- Who waits is known to wait for some process. -/
theorem waits_known {allowed : System × (Nat → Option Nat) → Nat × Event → Prop}
    {o : System × (Nat → Option Nat)} (run : WaitingRun allowed o)
    (idle : o.1.sched.idleProcess ∈ o.1.sched.lists .all) :
    ∀ W ∈ o.1.sched.lists .blockedOnProcess, ∃ P, o.2 W = some P := by
  revert idle
  induction run with
  | init started =>
    intro _ W blocked
    rw [(scheduled_start started.1).2.2 _ (by decide) (by decide)] at blocked
    exact absurd blocked List.not_mem_nil
  | @step o o' e before _ next ih =>
    intro _ W blocked
    obtain ⟨taken, note⟩ := next
    obtain ⟨⟨_, alive⟩, step⟩ := taken_interrupted taken
    have scheduled := scheduled_anyhow (recorded_run before) alive
    rw [note]
    rcases enters_blocked (scheduled_withRoom e.1 scheduled) step blocked with old | ⟨here, call⟩
    · rw [noteWait_other (running_free scheduled old)]
      exact ih alive W old
    · rw [here]
      obtain ⟨P, _, waits⟩ := noteWait_call (s := withRoom e.1 o.1) call
      exact ⟨P, waits⟩

end Waiting

/-! ## The second shell waits -/

/-- It has started a program, and the three other shells read a line. -/
def oneChild : List Event :=
  [callWith 107 0 0, callWith 102 0 userStart, callWith 102 0 userStart, callWith 102 0 userStart]

/-- Process 2 runs, and there is a process 5. -/
def aboutToWait (s : System) : Bool :=
  decide (s.sched.runningProcess = 2 ∧ s.sched.existsProcess 5 = true ∧ processWith 5 s.sched = some 5)

theorem waits_for_five {s s1 : System} (run : Run Started Anyhow Taken s) (about : aboutToWait s = true)
    (wait : Taken s (plenty, callWith 121 5 0) s1) : ∃ waitsFor,
      WaitingRun (fun _ _ => True) (s1, waitsFor) ∧ waitsFor 2 = some 5 := by
  obtain ⟨running, known, five⟩ := of_decide_eq_true about
  obtain ⟨waitsFor, recorded⟩ := run_recorded run noteWait fun _ => none
  refine ⟨noteWait s (callWith 121 5 0) waitsFor, .step (e := (plenty, callWith 121 5 0)) recorded trivial
    ⟨wait, rfl⟩, ?_⟩
  unfold noteWait callWith
  simp only
  rw [if_pos ⟨trivial, known⟩, running, Function.update_self, five]

end Delos.Invariants
