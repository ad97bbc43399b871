import Delos.Invariants.SchedulerSteps

/-!
# Process ids

As long as no node is missing, the ids in use are those of the processes alive, and no
two of them are equal: there is memory for fewer processes than there are ids.
-/
namespace Delos.Invariants
open Lib Source

structure Numbered (σ : Sched) : Prop where
  unique : (σ.lists .all).Nodup
  created : ∀ i ∈ σ.lists .all, i < σ.created
  distinct : ∀ i ∈ σ.lists .all, ∀ j ∈ σ.lists .all, (σ.pcbs i).pid = (σ.pcbs j).pid → i = j
  taken : ∀ i ∈ σ.lists .all, (σ.pcbs i).pid < maxNumberOfProcesses ∧ σ.pids (σ.pcbs i).pid = true
  held : ∀ pid < maxNumberOfProcesses, σ.pids pid = true → ∃ i ∈ σ.lists .all, (σ.pcbs i).pid = pid

section
variable {σ σ' : Sched} {p pcb n : Nat}

/-- The same processes with the same ids. -/
theorem Numbered.same (numbered : Numbered σ) (all : (σ'.lists .all).Perm (σ.lists .all))
    (pids : σ'.pids = σ.pids) (lasting : Lasting σ σ') : Numbered σ' := by
  have same : ∀ i ∈ σ'.lists .all, i ∈ σ.lists .all ∧ (σ'.pcbs i).pid = (σ.pcbs i).pid := by
    intro i inside
    have before := all.mem_iff.mp inside
    exact ⟨before, lasting.pid i (numbered.created i before)⟩
  constructor
  · exact all.nodup_iff.mpr numbered.unique
  · exact fun i inside => Nat.lt_of_lt_of_le (numbered.created i (same i inside).1) lasting.created
  · intro i inside j inside' equal
    rw [(same i inside).2, (same j inside').2] at equal
    exact numbered.distinct i (same i inside).1 j (same j inside').1 equal
  · intro i inside
    rw [(same i inside).2, pids]
    exact numbered.taken i (same i inside).1
  · intro pid small held
    rw [pids] at held
    obtain ⟨i, inside, equal⟩ := numbered.held pid small held
    refine ⟨i, all.mem_iff.mpr inside, ?_⟩
    rw [lasting.pid i (numbered.created i inside), equal]

theorem Numbered.moved (numbered : Numbered σ) (moved : Moved σ σ') : Numbered σ' :=
  numbered.same (by rw [moved.all]) moved.pids (lasting_moved moved)

theorem Numbered.setRegs (numbered : Numbered σ) (i : Nat) (f : Regs → Regs) :
    Numbered (σ.setRegs i f) :=
  numbered.same (List.Perm.refl _) rfl lasting_setRegs

theorem framesTakenUp_few (few : framesTakenUp σ = false) :
    (σ.lists .all).length < maxNumberOfProcesses := by
  unfold framesTakenUp at few
  have bound := of_decide_eq_false few
  unfold mostProcessFrames leastProcessFrames at bound
  unfold maxNumberOfProcesses
  omega

/-- There is an id left, for otherwise each of them would belong to another process. -/
theorem Numbered.free (numbered : Numbered σ) (few : (σ.lists .all).length < maxNumberOfProcesses) :
    ∃ pid < maxNumberOfProcesses, σ.pids pid = false := by
  by_contra none
  have all : ∀ pid < maxNumberOfProcesses, σ.pids pid = true := by
    intro pid small
    by_contra other
    exact none ⟨pid, small, Bool.eq_false_of_not_eq_true other⟩
  have inside : List.range maxNumberOfProcesses ⊆ (σ.lists .all).map fun i => (σ.pcbs i).pid := by
    intro pid small
    have small := List.mem_range.mp small
    obtain ⟨i, alive, equal⟩ := numbered.held pid small (all pid small)
    exact List.mem_map.mpr ⟨i, alive, equal⟩
  have many := (List.nodup_range.subperm inside).length_le
  rw [List.length_range, List.length_map] at many
  omega

theorem allocatePid_free (free : ∃ pid < maxNumberOfProcesses, σ.pids pid = false) :
    ∃ pid < maxNumberOfProcesses, σ.pids pid = false ∧
      allocatePid σ = (pid, { σ with pids := Function.update σ.pids pid true }) := by
  unfold allocatePid
  split
  next pid found =>
    have member := List.mem_of_find?_eq_some found
    have spare := List.find?_some found
    exact ⟨pid, List.mem_range.mp member, of_decide_eq_true spare, rfl⟩
  next found =>
    obtain ⟨pid, small, spare⟩ := free
    have taken := List.find?_eq_none.mp found pid (List.mem_range.mpr small)
    simp [spare] at taken

theorem Numbered.withProcess (filename : CString) (ppid : Nat) (stdout : CString)
    (shellId entry cr3 : Nat) (numbered : Numbered σ) (room : 0 < σ.room)
    (few : (σ.lists .all).length < maxNumberOfProcesses) :
    Numbered (Sched.withProcess filename ppid stdout shellId entry cr3 σ) := by
  obtain ⟨pcb, all, new, added, fields⟩ := withProcess_fields filename ppid stdout shellId entry cr3 σ
  obtain ⟨pid, small, spare, allocated⟩ := allocatePid_free (numbered.free few)
  have newPid := new.pid
  have all := (added.resolve_left fun none => Nat.ne_of_gt room none.1).2
  subst all
  rw [allocated] at fields newPid
  have fresh : σ.created ∉ σ.lists .all := fun inside => Nat.lt_irrefl _ (numbered.created _ inside)
  have old : ∀ i ∈ σ.lists .all, i ≠ σ.created := fun i inside same => fresh (same ▸ inside)
  have other : ∀ i ∈ σ.lists .all, (σ.pcbs i).pid ≠ pid := by
    intro i inside same
    have taken := (numbered.taken i inside).2
    rw [same, spare] at taken
    exact absurd taken (by decide)
  have before : ∀ i ∈ σ.lists .all, Function.update σ.pcbs σ.created pcb i = σ.pcbs i :=
    fun i inside => Function.update_of_ne (old i inside) _ _
  have last : (Function.update σ.pcbs σ.created pcb σ.created).pid = pid := by
    rw [Function.update_self, newPid]
  have members : ∀ i ∈ σ.lists .all ++ [σ.created], i ∈ σ.lists .all ∨ i = σ.created := by simp
  rw [fields]
  constructor
  · simp only [Function.update_self]
    rw [List.nodup_append]
    exact ⟨numbered.unique, by simp, fun i inside _ last => by
      rw [List.mem_singleton.mp last]; exact old i inside⟩
  · simp only [Function.update_self]
    intro i inside
    rcases members i inside with inside | rfl
    · exact Nat.lt_succ_of_lt (numbered.created i inside)
    · exact Nat.lt_succ_self _
  · simp only [Function.update_self]
    intro i inside j inside' equal
    rcases members i inside with inside | rfl
    · rcases members j inside' with inside' | rfl
      · rw [before i inside, before j inside'] at equal
        exact numbered.distinct i inside j inside' equal
      · rw [before i inside, last] at equal
        exact absurd equal (other i inside)
    · rcases members j inside' with inside' | rfl
      · rw [before j inside', last] at equal
        exact absurd equal.symm (other j inside')
      · rfl
  · simp only [Function.update_self]
    intro i inside
    rcases members i inside with inside | rfl
    · rw [before i inside, Function.update_of_ne (other i inside)]
      exact numbered.taken i inside
    · rw [last, Function.update_self]
      exact ⟨small, rfl⟩
  · simp only [Function.update_self]
    intro q few' held
    by_cases here : q = pid
    · refine ⟨σ.created, by simp, ?_⟩
      rw [last, here]
    · rw [Function.update_of_ne here] at held
      obtain ⟨i, inside, equal⟩ := numbered.held q few' held
      refine ⟨i, List.mem_append_left _ inside, ?_⟩
      rw [before i inside, equal]

theorem Numbered.killed (numbered : Numbered σ) (alive : p ∈ σ.lists .all) :
    Numbered (Sched.killed p σ) := by
  have lasting : Lasting σ (Sched.killed p σ) := lasting_killed
  obtain ⟨pcbs, _, _, _, _, fields⟩ := killed_fields (σ := σ) (p := p)
  have all : (Sched.killed p σ).lists .all = (σ.lists .all).erase p := by rw [fields]
  have pids : (Sched.killed p σ).pids = Function.update σ.pids (σ.pcbs p).pid false := by rw [fields]
  have rest : ∀ i, i ∈ (Sched.killed p σ).lists .all ↔ i ≠ p ∧ i ∈ σ.lists .all := by
    intro i
    rw [all]
    exact numbered.unique.mem_erase_iff
  have same : ∀ i ∈ σ.lists .all, ((Sched.killed p σ).pcbs i).pid = (σ.pcbs i).pid :=
    fun i inside => lasting.pid i (numbered.created i inside)
  constructor
  · rw [all]
    exact numbered.unique.erase p
  · exact fun i inside => Nat.lt_of_lt_of_le (numbered.created i ((rest i).mp inside).2) lasting.created
  · intro i inside j inside' equal
    obtain ⟨_, inside⟩ := (rest i).mp inside
    obtain ⟨_, inside'⟩ := (rest j).mp inside'
    rw [same i inside, same j inside'] at equal
    exact numbered.distinct i inside j inside' equal
  · intro i inside
    obtain ⟨other, inside⟩ := (rest i).mp inside
    have differs : (σ.pcbs i).pid ≠ (σ.pcbs p).pid :=
      fun equal => other (numbered.distinct i inside p alive equal)
    rw [same i inside, pids, Function.update_of_ne differs]
    exact numbered.taken i inside
  · intro pid small held
    rw [pids] at held
    by_cases here : pid = (σ.pcbs p).pid
    · rw [here, Function.update_self] at held
      exact absurd held (by decide)
    · rw [Function.update_of_ne here] at held
      obtain ⟨i, inside, equal⟩ := numbered.held pid small held
      have other : i ≠ p := by
        rintro rfl
        exact here equal.symm
      exact ⟨i, (rest i).mpr ⟨other, inside⟩, (same i inside).trans equal⟩

theorem Numbered.aborted (numbered : Numbered σ) (alive : p ∈ σ.lists .all) :
    Numbered (Sched.aborted p σ) := by
  apply (numbered.moved moved_wake).killed
  rwa [moved_wake.all]

theorem Numbered.effect (numbered : Numbered σ) (alive : pcb ∈ σ.lists .all)
    (room : callNodes n ≤ σ.room) (effect : CallEffect pcb σ n σ') : Numbered σ' := by
  cases effect with
  | answer answered _ _ => exact (numbered.moved (moved_answered answered)).moved moved_setReady
  | exec ready few made =>
    subst made
    refine (Numbered.withProcess _ _ _ _ _ _ ?_ ?_ (framesTakenUp_few few)).moved (moved_setEax.trans moved_setReady)
    · rw [ready]
      exact numbered.moved (moved_setReady.trans moved_setEax)
    · have left := (room_setReady (σ := σ) (p := pcb)).1
      rw [ready]
      show 0 < (σ.setProcessAsReady pcb).room
      simp only [callNodes] at room
      omega
  | execFailed => exact numbered.moved (moved_setReady.trans moved_setEax)
  | @fork entry cr3 _ few made =>
    subst made
    have made := numbered.withProcess (σ.pcbs pcb).name (σ.pcbs pcb).pid (σ.pcbs pcb).stdout
      (σ.pcbs pcb).shellId entry cr3 (by simp only [callNodes] at room; omega) (framesTakenUp_few few)
    have copied := made.setRegs σ.created (forkRegs (σ.pcbs pcb).regs)
    exact copied.moved (((moved_setEax.trans moved_setEax).trans moved_setReady).trans moved_setReady)
  | wait _ => exact numbered.moved (moved_setState.trans (moved_listAddLast (by decide)))
  | readLine => exact numbered.moved (moved_setState.trans (moved_listAddFirst (by decide)))
  | exit =>
    apply (numbered.moved moved_wake).killed
    rwa [moved_wake.all]
  | unknown _ => exact numbered.killed alive

theorem Numbered.switched (numbered : Numbered σ) : Numbered (Sched.switched σ) := by
  have dispatched := dispatched_switched (σ := σ)
  refine numbered.same (by rw [dispatched.all]) ?_ lasting_switched
  obtain ⟨_, _, fields⟩ := switched_fields (σ := σ)
  rw [fields]

theorem Numbered.saved {cpu : Cpu} (numbered : Numbered σ) : Numbered (Sched.saved cpu n σ) :=
  numbered.same (List.Perm.refl _) rfl lasting_saved

theorem Numbered.step {s s' : System} {event : Event} (numbered : Numbered s.sched)
    (scheduled : Scheduled True s.sched) (room : eventNodes event ≤ s.sched.room)
    (step : Interrupted s event s') : Numbered s'.sched := by
  obtain ⟨_, lasting⟩ := lasting_interrupted step
  cases step with
  | tick sched _ | dropped sched _ _ | shell sched _ _ | noTerminal sched _ =>
    rw [sched]
    exact numbered
  | timer dispatch =>
    rw [dispatch.sched]
    exact (numbered.saved.moved moved_setReady).switched
  | systemCall effect dispatch =>
    rw [dispatch.sched]
    exact (numbered.saved.effect scheduled.alive room effect).switched
  | fault dispatch | pageFault _ _ dispatch =>
    rw [dispatch.sched]
    exact (numbered.aborted scheduled.alive).switched
  | delivered _ _ sched _ _ =>
    rw [sched]
    exact numbered.moved ((moved_listRemoveData (by decide)).trans moved_unblock)
  | abort later dispatch =>
    have user : s.sched.getLatestRunningNonIdleProcess ≠ s.sched.idleProcess := by
      intro idle
      rw [idle, scheduled.idlePid] at later
      exact later (by decide)
    have aborted := numbered.aborted (scheduled.queued.latestAlive scheduled.focus user).1
    rw [dispatch.sched]
    unfold Sched.preempted
    split
    · exact (aborted.moved moved_setReady).switched
    · exact aborted.switched
  | @terminal number _ room' sched _ =>
    rw [sched]
    have focused : Numbered { s.sched with focusedTerminal := number } :=
      ⟨numbered.unique, numbered.created, numbered.distinct, numbered.taken, numbered.held⟩
    refine focused.same ((sameLists_focusedOn room').lists _) ?_ (lasting_focusedOn room')
    rw [focusedOn_fields room']

end

end Delos.Invariants
