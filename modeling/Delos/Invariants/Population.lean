import Delos.Invariants.BlockedProcesses

/-!
# Who is alive

An interrupt leaves the processes as they are, or the running process gets a child, or
one process ends. The pid of a child is one that no process has. The pid, the terminal
and the stdout file of a process never change, and a child has the terminal and the
stdout file of its parent.
-/
namespace Delos.Invariants
open Lib Source

/-- What is fixed when a process is created. -/
structure SameIdentity (p p' : Pcb) : Prop where
  pid : p'.pid = p.pid
  terminal : p'.shellId = p.shellId
  stdout : p'.stdout = p.stdout

structure SamePopulation (σ σ' : Sched) : Prop where
  all : σ'.lists .all = σ.lists .all
  pids : σ'.pids = σ.pids
  created : σ'.created = σ.created
  idle : σ'.idleProcess = σ.idleProcess
  identity : ∀ i, SameIdentity (σ.pcbs i) (σ'.pcbs i)

/-- The process is new; there may be no memory for its node. -/
structure Born (parent : Nat) (σ σ' : Sched) : Prop where
  all : σ'.lists .all = σ.lists .all ∨ σ'.lists .all = σ.lists .all ++ [σ.created]
  created : σ'.created = σ.created + 1
  idle : σ'.idleProcess = σ.idleProcess
  unused : (σ'.pcbs σ.created).pid < maxNumberOfProcesses → σ.pids (σ'.pcbs σ.created).pid = false
  pids : ∀ pid < maxNumberOfProcesses,
    σ'.pids pid = true ↔ σ.pids pid = true ∨ pid = (σ'.pcbs σ.created).pid
  terminal : (σ'.pcbs σ.created).shellId = (σ.pcbs parent).shellId
  stdout : (σ'.pcbs σ.created).stdout = (σ.pcbs parent).stdout
  identity : ∀ i, i ≠ σ.created → SameIdentity (σ.pcbs i) (σ'.pcbs i)

structure Died (p : Nat) (σ σ' : Sched) : Prop where
  all : σ'.lists .all = (σ.lists .all).erase p
  created : σ'.created = σ.created
  idle : σ'.idleProcess = σ.idleProcess
  pids : σ'.pids = Function.update σ.pids (σ.pcbs p).pid false
  identity : ∀ i, SameIdentity (σ.pcbs i) (σ'.pcbs i)

/-- All that can happen while `parent` runs. -/
inductive Population (parent : Nat) (σ σ' : Sched) : Prop
  | same (same : SamePopulation σ σ')
  | born (user : parent ≠ σ.idleProcess) (born : Born parent σ σ')
  | died (p : Nat) (alive : p ∈ σ.lists .all) (died : Died p σ σ')

section
variable {σ σ' σ'' : Sched} {p i n pcb parent : Nat}

theorem sameIdentity_refl (q : Pcb) : SameIdentity q q := ⟨rfl, rfl, rfl⟩

theorem SameIdentity.trans {q q' q'' : Pcb} (first : SameIdentity q q') (second : SameIdentity q' q'') :
    SameIdentity q q'' :=
  ⟨second.pid.trans first.pid, second.terminal.trans first.terminal, second.stdout.trans first.stdout⟩

theorem samePopulation_refl : SamePopulation σ σ := ⟨rfl, rfl, rfl, rfl, fun _ => sameIdentity_refl _⟩

theorem SamePopulation.trans (first : SamePopulation σ σ') (second : SamePopulation σ' σ'') :
    SamePopulation σ σ'' := by
  constructor
  · rw [second.all, first.all]
  · rw [second.pids, first.pids]
  · rw [second.created, first.created]
  · rw [second.idle, first.idle]
  · exact fun i => (first.identity i).trans (second.identity i)

theorem samePopulation_moved (moved : Moved σ σ') : SamePopulation σ σ' := by
  refine ⟨moved.all, moved.pids, moved.created, moved.idle, fun i => ?_⟩
  obtain ⟨_, _, _, pcb⟩ := moved.pcbs i
  constructor <;> rw [pcb]

theorem sameIdentity_update {pcbs : Nat → Pcb} {q : Pcb} (same : SameIdentity (pcbs p) q) (i : Nat) :
    SameIdentity (pcbs i) (Function.update pcbs p q i) := by
  by_cases here : i = p
  · rw [here, Function.update_self]
    exact same
  · rw [Function.update_of_ne here]
    exact sameIdentity_refl _

theorem samePopulation_setRegs {f : Regs → Regs} : SamePopulation σ (σ.setRegs p f) :=
  ⟨rfl, rfl, rfl, rfl, sameIdentity_update ⟨rfl, rfl, rfl⟩⟩

theorem samePopulation_saved {cpu : Cpu} : SamePopulation σ (Sched.saved cpu n σ) := by
  unfold Sched.saved Sched.saveProcessContext
  exact samePopulation_setRegs

theorem samePopulation_switched : SamePopulation σ (Sched.switched σ) := by
  have all : (Sched.switched σ).lists .all = σ.lists .all := dispatched_switched.all
  obtain ⟨_, _, fields⟩ := switched_fields (σ := σ)
  rw [fields] at all ⊢
  exact ⟨all, rfl, rfl, rfl, sameIdentity_update ⟨rfl, rfl, rfl⟩⟩

theorem samePopulation_focusedOn (room : 0 < σ.room) : SamePopulation σ (Sched.focusedOn n σ) := by
  rw [focusedOn_fields room]
  exact ⟨rfl, rfl, rfl, rfl, fun _ => sameIdentity_refl _⟩

/-! ## Births and deaths -/

theorem allocatePid_spec : ((allocatePid σ).1 < maxNumberOfProcesses → σ.pids (allocatePid σ).1 = false) ∧
    ∀ pid < maxNumberOfProcesses, (allocatePid σ).2.pids pid = true ↔ σ.pids pid = true ∨ pid = (allocatePid σ).1 := by
  unfold allocatePid
  split
  next free found =>
    constructor
    · intro _
      have spare := List.find?_some found
      exact of_decide_eq_true spare
    · intro pid _
      by_cases here : pid = free
      · simp [here]
      · simp [here]
  next none =>
    have large : ∀ pid < maxNumberOfProcesses, pid ≠ wordModulus - 1 := by
      intro pid small
      unfold maxNumberOfProcesses at small
      unfold wordModulus
      omega
    constructor
    · exact fun small => absurd rfl (large _ small)
    · intro pid small
      simp [large pid small]

theorem born_withProcess (filename : CString) (ppid entry cr3 : Nat) :
    Born parent σ (Sched.withProcess filename ppid (σ.pcbs parent).stdout (σ.pcbs parent).shellId entry cr3 σ) := by
  have made : ((Sched.withProcess filename ppid (σ.pcbs parent).stdout (σ.pcbs parent).shellId entry cr3 σ).pcbs
      σ.created).stdout = (σ.pcbs parent).stdout := by
    unfold Sched.withProcess Sched.listAddLast newPcb
    split
    next pid σ1 found =>
      have number : σ1.created = σ.created := by
        have after : σ1 = (allocatePid σ).2 := by rw [found]
        rw [after]
        unfold allocatePid
        split <;> rfl
      rw [← number]
      split <;> simp only [Function.update_self]
  obtain ⟨pcb, all, new, added, fields⟩ :=
    withProcess_fields filename ppid (σ.pcbs parent).stdout (σ.pcbs parent).shellId entry cr3 σ
  obtain ⟨unused, pids⟩ := allocatePid_spec (σ := σ)
  rw [fields] at made ⊢
  simp only [Function.update_self] at made
  constructor
  · simp only [Function.update_self]
    exact added.imp And.right And.right
  · rfl
  · rfl
  · simp only [Function.update_self, new.pid]
    exact unused
  · simp only [Function.update_self, new.pid]
    exact pids
  · simp only [Function.update_self, new.terminal]
  · simp only [Function.update_self, made]
  · intro i other
    constructor <;> simp only [Function.update_of_ne other]

theorem died_killed : Died p σ (Sched.killed p σ) := by
  have all : (Sched.killed p σ).lists .all = (σ.lists .all).erase p := lists_killed
  obtain ⟨_, _, _, _, fields⟩ := forgetProcess_fields (p := p) (σ := freePid (σ.pcbs p).pid σ)
  rw [Sched.killed, fields] at all ⊢
  exact ⟨all, rfl, rfl, rfl, sameIdentity_update ⟨rfl, rfl, rfl⟩⟩

theorem Born.after (same : SamePopulation σ σ') (born : Born parent σ' σ'') : Born parent σ σ'' := by
  obtain ⟨all, created, idle, unused, pids, terminal, stdout, identity⟩ := born
  rw [same.all, same.created] at all
  rw [same.created] at created
  rw [same.created, same.pids] at unused pids
  rw [same.created, (same.identity parent).terminal] at terminal
  rw [same.created, (same.identity parent).stdout] at stdout
  rw [same.created] at identity
  exact ⟨all, created, idle.trans same.idle, unused, pids, terminal, stdout,
    fun i other => (same.identity i).trans (identity i other)⟩

theorem Born.before (born : Born parent σ σ') (same : SamePopulation σ' σ'') : Born parent σ σ'' := by
  obtain ⟨all, created, idle, unused, pids, terminal, stdout, identity⟩ := born
  have child := same.identity σ.created
  rw [← same.all] at all
  rw [← child.pid] at unused
  rw [← child.pid, ← same.pids] at pids
  exact ⟨all, same.created.trans created, same.idle.trans idle, unused, pids, child.terminal.trans terminal,
    child.stdout.trans stdout, fun i other => (identity i other).trans (same.identity i)⟩

theorem Died.after (same : SamePopulation σ σ') (died : Died p σ' σ'') : Died p σ σ'' := by
  obtain ⟨all, created, idle, pids, identity⟩ := died
  rw [same.all] at all
  rw [same.pids, (same.identity p).pid] at pids
  exact ⟨all, created.trans same.created, idle.trans same.idle, pids,
    fun i => (same.identity i).trans (identity i)⟩

theorem Died.before (died : Died p σ σ') (same : SamePopulation σ' σ'') : Died p σ σ'' := by
  obtain ⟨all, created, idle, pids, identity⟩ := died
  exact ⟨same.all.trans all, same.created.trans created, same.idle.trans idle, same.pids.trans pids,
    fun i => (identity i).trans (same.identity i)⟩

theorem Population.after (same : SamePopulation σ σ') (step : Population parent σ' σ'') :
    Population parent σ σ'' := by
  cases step with
  | same later => exact .same (same.trans later)
  | born user born => exact .born (same.idle ▸ user) (born.after same)
  | died p alive died => exact .died p (same.all ▸ alive) (died.after same)

theorem Population.before (step : Population parent σ σ') (same : SamePopulation σ' σ'') :
    Population parent σ σ'' := by
  cases step with
  | same earlier => exact .same (earlier.trans same)
  | born user born => exact .born user (born.before same)
  | died p alive died => exact .died p alive (died.before same)

/-! ## Calls and interrupts -/

theorem population_effect (alive : pcb ∈ σ.lists .all) (user : pcb ≠ σ.idleProcess) (effect : CallEffect pcb σ n σ') : Population pcb σ σ' := by
  cases effect with
  | answer answered _ _ => exact .same (samePopulation_moved ((moved_answered answered).trans moved_setReady))
  | @exec filename entry cr3 σ0 σ1 ready _ made =>
    have first : SamePopulation σ σ0 := by
      rw [ready]
      exact samePopulation_moved (moved_setReady.trans moved_setEax)
    have born : Born pcb σ0 σ1 := by
      rw [made, ← (first.identity pcb).stdout, ← (first.identity pcb).terminal]
      exact born_withProcess _ _ _ _
    exact (Population.born user (born.after first)).before (samePopulation_moved (moved_setEax.trans moved_setReady))
  | execFailed => exact .same (samePopulation_moved (moved_setReady.trans moved_setEax))
  | fork _ made =>
    subst made
    exact (Population.born user ((born_withProcess _ _ _ _).before samePopulation_setRegs)).before
      (samePopulation_moved (((moved_setEax.trans moved_setEax).trans moved_setReady).trans moved_setReady))
  | wait _ => exact .same (samePopulation_moved (moved_setState.trans (moved_listAddLast (by decide))))
  | readLine => exact .same (samePopulation_moved (moved_setState.trans (moved_listAddFirst (by decide))))
  | exit => exact .died pcb alive (died_killed.after (samePopulation_moved moved_wake))
  | unknown _ => exact .died pcb alive died_killed

theorem population_aborted (alive : p ∈ σ.lists .all) : Population parent σ (Sched.aborted p σ) :=
  .died p alive (died_killed.after (samePopulation_moved moved_wake))

theorem population_interrupted {full : Prop} {s s' : System} {event : Event} (scheduled : Scheduled full s.sched)
    (happens : Happens s event) (step : Interrupted s event s') : Population s.sched.runningProcess s.sched s'.sched := by
  cases step with
  | tick sched _ | dropped sched _ _ | shell sched _ _ | noTerminal sched _ =>
    rw [sched]
    exact .same samePopulation_refl
  | timer dispatch =>
    rw [dispatch.sched]
    exact .same ((samePopulation_saved.trans (samePopulation_moved moved_setReady)).trans samePopulation_switched)
  | @systemCall cpu _ _ _ effect dispatch =>
    have alive : s.sched.runningProcess ∈ (Sched.saved cpu 0x80 s.sched).lists .all := scheduled.alive
    rw [dispatch.sched]
    exact ((population_effect alive happens effect).after samePopulation_saved).before samePopulation_switched
  | fault dispatch | pageFault _ _ dispatch =>
    rw [dispatch.sched]
    exact (population_aborted scheduled.alive).before samePopulation_switched
  | delivered _ _ sched _ _ =>
    rw [sched]
    exact .same (samePopulation_moved ((moved_listRemoveData (by decide)).trans moved_unblock))
  | abort later dispatch =>
    have user : s.sched.getLatestRunningNonIdleProcess ≠ s.sched.idleProcess := by
      intro idle
      rw [idle, scheduled.idlePid] at later
      exact later (by decide)
    have aborted : Population s.sched.runningProcess s.sched
        (Sched.aborted s.sched.getLatestRunningNonIdleProcess s.sched) :=
      population_aborted (scheduled.queued.latestAlive scheduled.focus user).1
    rw [dispatch.sched]
    unfold Sched.preempted
    split
    · exact (aborted.before (samePopulation_moved moved_setReady)).before samePopulation_switched
    · exact aborted.before samePopulation_switched
  | terminal room sched _ =>
    rw [sched]
    exact .same (samePopulation_focusedOn room)

end

end Delos.Invariants
