import Delos.Invariants.ProcessLists
import Mathlib.Data.List.Perm.Subperm

/-!
# Every interrupt keeps the processes where they belong

`Scheduled` is the invariant of the scheduler between two interrupts. Its step lemma
goes through the cases of `Interrupted`, and of `CallEffect` for the system calls.
-/
namespace Delos.Invariants
open Lib Source

section Terminals
variable {σ : Sched} {q : ProcessList} {t : Nat}

/-! ## Terminals -/

theorem removeAll_fields (l : List Nat) (σ : Sched) (inside : l.Subperm (σ.lists q)) :
    l.foldl (fun s pcb => s.listRemoveData q pcb) σ =
      { σ with lists := Function.update σ.lists q ((σ.lists q).diff l), room := σ.room + l.length } := by
  induction l generalizing σ with
  | nil => simp
  | cons p rest ih =>
    have member : p ∈ σ.lists q := inside.subset List.mem_cons_self
    have fewer : rest.Subperm ((σ.lists q).erase p) := by
      have erased := inside.erase p
      rwa [List.erase_cons_head] at erased
    rw [List.foldl_cons, listRemoveData_mem member, ih]
    · simp only [Function.update_self, Function.update_idem, List.diff_cons, List.length_cons]
      rw [Nat.add_assoc, Nat.add_comm 1]
    · simp only [Function.update_self]
      exact fewer

theorem addAll_fields (l : List Nat) (σ : Sched) (room : l.length ≤ σ.room) :
    l.foldr (fun pcb s => s.listAddFirst q pcb) σ =
      { σ with lists := Function.update σ.lists q (l ++ σ.lists q), room := σ.room - l.length } := by
  induction l with
  | nil => simp
  | cons p rest ih =>
    rw [List.length_cons] at room
    rw [List.foldr_cons, ih (by omega), listAddFirst_room]
    · simp only [Function.update_self, Function.update_idem, List.cons_append, List.length_cons]
      rw [Nat.sub_sub]
    · simp only
      omega

theorem ofTerminal_sublist : (Sched.ofTerminal t q σ).Sublist (σ.lists q) :=
  (List.take_sublist _ _).trans List.filter_sublist

/-- Nothing but the order of the list changes. -/
theorem rescheduleProcess_fields (room : 0 < σ.room) : σ.rescheduleProcess t q = { σ with
    lists := Function.update σ.lists q
      (Sched.ofTerminal t q σ ++ (σ.lists q).diff (Sched.ofTerminal t q σ)) } := by
  have few : (Sched.ofTerminal t q σ).length ≤ σ.room - 1 := by
    rw [Sched.ofTerminal, List.length_take]
    exact Nat.min_le_left _ _
  have inside : (Sched.ofTerminal t q σ).Subperm (σ.lists q) := ofTerminal_sublist.subperm
  have removed := removeAll_fields (Sched.ofTerminal t q σ)
    { σ with room := σ.room - 1 - (Sched.ofTerminal t q σ).length } inside
  unfold Sched.rescheduleProcess
  simp only
  rw [removed, addAll_fields]
  · simp only [Function.update_self, Function.update_idem]
    congr 1
    omega
  · simp only
    omega

theorem rescheduled_perm : (Sched.ofTerminal t q σ ++ (σ.lists q).diff (Sched.ofTerminal t q σ)).Perm
    (σ.lists q) :=
  List.subperm_append_diff_self_of_count_le fun i _ => ofTerminal_sublist.count_le i

/-- The lists behind a change of the terminal. -/
def rescheduled (t : Nat) (σ : Sched) (q : ProcessList) : List Nat :=
  if q = .blockedOnKeyboard ∨ q = .blockedOnProcess then
    Sched.ofTerminal t q σ ++ (σ.lists q).diff (Sched.ofTerminal t q σ)
  else σ.lists q

theorem focusedOn_fields (room : 0 < σ.room) : Sched.focusedOn t σ =
    { σ with focusedTerminal := t, lists := rescheduled t σ } := by
  have first : { σ with focusedTerminal := t }.rescheduleProcess t .blockedOnKeyboard = { σ with
      focusedTerminal := t
      lists := Function.update σ.lists .blockedOnKeyboard (rescheduled t σ .blockedOnKeyboard) } :=
    rescheduleProcess_fields room
  have second : ∀ lists, lists .blockedOnProcess = σ.lists .blockedOnProcess →
      { σ with focusedTerminal := t, lists := lists }.rescheduleProcess t .blockedOnProcess = { σ with
        focusedTerminal := t
        lists := Function.update lists .blockedOnProcess (rescheduled t σ .blockedOnProcess) } := by
    intro lists same
    have swap : Sched.ofTerminal t .blockedOnProcess { σ with focusedTerminal := t, lists := lists } =
        Sched.ofTerminal t .blockedOnProcess σ := by
      simp only [Sched.ofTerminal, same]
    rw [rescheduleProcess_fields (σ := { σ with focusedTerminal := t, lists := lists }) room, swap]
    simp only [same]
    rfl
  have lists : Function.update (Function.update σ.lists .blockedOnKeyboard
      (rescheduled t σ .blockedOnKeyboard)) .blockedOnProcess (rescheduled t σ .blockedOnProcess) =
      rescheduled t σ := by
    funext q
    cases q <;> rfl
  rw [Sched.focusedOn, first, second, lists]
  exact Function.update_of_ne (by decide) _ _

theorem perm_rescheduled (q : ProcessList) : (rescheduled t σ q).Perm (σ.lists q) := by
  unfold rescheduled
  split
  · exact rescheduled_perm
  · exact List.Perm.refl _

theorem sameLists_focusedOn (room : 0 < σ.room) : SameLists σ (Sched.focusedOn t σ) := by
  rw [focusedOn_fields room]
  exact ⟨perm_rescheduled, rfl, rfl, rfl, fun _ => rfl, fun _ => rfl⟩

end Terminals

section Identity
variable {σ σ' σ'' : Sched} {pcb p n : Nat}

/-! ## What never changes of a process -/

structure Lasting (σ σ' : Sched) : Prop where
  idle : σ'.idleProcess = σ.idleProcess
  created : σ.created ≤ σ'.created
  focused : σ'.focusedTerminal = σ.focusedTerminal
  pid : ∀ i < σ.created, (σ'.pcbs i).pid = (σ.pcbs i).pid
  ppid : ∀ i < σ.created, (σ'.pcbs i).ppid = (σ.pcbs i).ppid
  terminal : ∀ i < σ.created, (σ'.pcbs i).shellId = (σ.pcbs i).shellId
  survivors : ∀ i < σ.created, i ∈ σ'.lists .all → i ∈ σ.lists .all

theorem lasting_refl : Lasting σ σ :=
  ⟨rfl, Nat.le_refl _, rfl, fun _ _ => rfl, fun _ _ => rfl, fun _ _ => rfl, fun _ _ => id⟩

theorem Lasting.trans (first : Lasting σ σ') (second : Lasting σ' σ'') : Lasting σ σ'' := by
  have later : ∀ i < σ.created, i < σ'.created := fun i old => Nat.lt_of_lt_of_le old first.created
  constructor
  · rw [second.idle, first.idle]
  · exact Nat.le_trans first.created second.created
  · rw [second.focused, first.focused]
  · intro i old
    rw [second.pid i (later i old), first.pid i old]
  · intro i old
    rw [second.ppid i (later i old), first.ppid i old]
  · intro i old
    rw [second.terminal i (later i old), first.terminal i old]
  · exact fun i old alive => first.survivors i old (second.survivors i (later i old) alive)

theorem lasting_moved (moved : Moved σ σ') : Lasting σ σ' := by
  have same : ∀ i, (σ'.pcbs i).pid = (σ.pcbs i).pid ∧ (σ'.pcbs i).ppid = (σ.pcbs i).ppid ∧
      (σ'.pcbs i).shellId = (σ.pcbs i).shellId := by
    intro i
    obtain ⟨_, _, _, pcb⟩ := moved.pcbs i
    rw [pcb]
    exact ⟨rfl, rfl, rfl⟩
  exact ⟨moved.idle, Nat.le_of_eq moved.created.symm, moved.focused, fun i _ => (same i).1, fun i _ => (same i).2.1,
    fun i _ => (same i).2.2, fun i _ alive => by rwa [← moved.all]⟩

theorem lasting_setRegs {f : Regs → Regs} : Lasting σ (σ.setRegs p f) :=
  ⟨rfl, Nat.le_refl _, rfl, fun _ _ => pcbs_setPcb Pcb.pid fun _ => rfl,
    fun _ _ => pcbs_setPcb Pcb.ppid fun _ => rfl, fun _ _ => pcbs_setPcb Pcb.shellId fun _ => rfl,
    fun _ _ => id⟩

theorem lasting_saved {cpu : Cpu} : Lasting σ (Sched.saved cpu n σ) := by
  unfold Sched.saved Sched.saveProcessContext
  exact lasting_setRegs

theorem lasting_withProcess {filename stdout : CString} {ppid shellId entry cr3 : Nat} :
    Lasting σ (Sched.withProcess filename ppid stdout shellId entry cr3 σ) := by
  obtain ⟨_, all, _, added, fields⟩ := withProcess_fields filename ppid stdout shellId entry cr3 σ
  rw [fields]
  have old : ∀ i < σ.created, i ≠ σ.created := fun i small => Nat.ne_of_lt small
  constructor
  · rfl
  · exact Nat.le_succ _
  · rfl
  · intro i small
    simp only [Function.update_of_ne (old i small)]
  · intro i small
    simp only [Function.update_of_ne (old i small)]
  · intro i small
    simp only [Function.update_of_ne (old i small)]
  · intro i small
    simp only [Function.update_self]
    rcases added with ⟨_, rfl⟩ | ⟨_, rfl⟩
    · exact id
    · simp [old i small]

theorem lasting_killed : Lasting σ (Sched.killed p σ) := by
  have members : ∀ i < σ.created, i ∈ (Sched.killed p σ).lists .all → i ∈ σ.lists .all :=
    fun _ _ => mem_killed
  obtain ⟨_, _, _, _, fields⟩ := forgetProcess_fields (p := p) (σ := freePid (σ.pcbs p).pid σ)
  rw [Sched.killed, fields] at members ⊢
  constructor
  · rfl
  · exact Nat.le_refl _
  · rfl
  · exact fun _ _ => pcbs_setPcb (f := fun p => { p with openFiles := [] }) Pcb.pid fun _ => rfl
  · exact fun _ _ => pcbs_setPcb (f := fun p => { p with openFiles := [] }) Pcb.ppid fun _ => rfl
  · exact fun _ _ => pcbs_setPcb (f := fun p => { p with openFiles := [] }) Pcb.shellId fun _ => rfl
  · exact members

theorem lasting_switched : Lasting σ (Sched.switched σ) := by
  have all : (Sched.switched σ).lists .all = σ.lists .all := dispatched_switched.all
  obtain ⟨_, _, fields⟩ := switched_fields (σ := σ)
  rw [fields] at all ⊢
  constructor
  · rfl
  · exact Nat.le_refl _
  · rfl
  · exact fun _ _ => pcbs_setPcb (f := fun p => { p with state := .running }) Pcb.pid fun _ => rfl
  · exact fun _ _ => pcbs_setPcb (f := fun p => { p with state := .running }) Pcb.ppid fun _ => rfl
  · exact fun _ _ => pcbs_setPcb (f := fun p => { p with state := .running }) Pcb.shellId fun _ => rfl
  · exact fun _ _ alive => all ▸ alive

theorem lasting_effect (effect : CallEffect pcb σ n σ') : Lasting σ σ' := by
  cases effect with
  | answer answered _ _ => exact (lasting_moved (moved_answered answered)).trans (lasting_moved moved_setReady)
  | exec ready _ made =>
    subst ready
    subst made
    exact (((lasting_moved (moved_setReady.trans moved_setEax)).trans lasting_withProcess).trans
      (lasting_moved (moved_setEax.trans moved_setReady)))
  | execFailed => exact lasting_moved (moved_setReady.trans moved_setEax)
  | fork _ made =>
    subst made
    exact (lasting_withProcess.trans lasting_setRegs).trans
      (lasting_moved (((moved_setEax.trans moved_setEax).trans moved_setReady).trans moved_setReady))
  | wait _ => exact lasting_moved (moved_setState.trans (moved_listAddLast (by decide)))
  | readLine => exact lasting_moved (moved_setState.trans (moved_listAddFirst (by decide)))
  | exit => exact (lasting_moved moved_wake).trans lasting_killed
  | unknown _ => exact lasting_killed

theorem lasting_focusedOn (room : 0 < σ.room) :
    Lasting { σ with focusedTerminal := n } (Sched.focusedOn n σ) := by
  rw [focusedOn_fields room]
  exact ⟨rfl, Nat.le_refl _, rfl, fun _ _ => rfl, fun _ _ => rfl, fun _ _ => rfl, fun _ _ => id⟩

theorem lasting_aborted : Lasting σ (Sched.aborted p σ) := (lasting_moved moved_wake).trans lasting_killed

theorem lasting_preempted : Lasting σ (Sched.preempted p σ) := by
  unfold Sched.preempted
  split
  · exact lasting_aborted.trans (lasting_moved moved_setReady)
  · exact lasting_aborted

/-- The terminal that has the focus afterwards. -/
def Focus (s : System) (event : Event) (terminal : Nat) : Prop :=
  terminal = s.sched.focusedTerminal ∨ event = .terminal terminal

theorem lasting_interrupted {s s' : System} {event : Event} (step : Interrupted s event s') :
    Focus s event s'.sched.focusedTerminal ∧
      Lasting { s.sched with focusedTerminal := s'.sched.focusedTerminal } s'.sched := by
  have same : ∀ {σ' : Sched}, Lasting s.sched σ' → Focus s event σ'.focusedTerminal ∧
      Lasting { s.sched with focusedTerminal := σ'.focusedTerminal } σ' := by
    intro σ' lasting
    refine ⟨.inl lasting.focused, ?_⟩
    rw [lasting.focused]
    exact lasting
  cases step with
  | tick sched _ | dropped sched _ _ | shell sched _ _ | noTerminal sched _ =>
    rw [sched]
    exact ⟨.inl rfl, lasting_refl⟩
  | timer dispatch =>
    rw [dispatch.sched]
    exact same ((lasting_saved.trans (lasting_moved moved_setReady)).trans lasting_switched)
  | systemCall effect dispatch =>
    rw [dispatch.sched]
    exact same ((lasting_saved.trans (lasting_effect effect)).trans lasting_switched)
  | fault dispatch | pageFault _ _ dispatch =>
    rw [dispatch.sched]
    exact same (lasting_aborted.trans lasting_switched)
  | delivered _ _ sched _ _ =>
    rw [sched]
    exact same (lasting_moved ((moved_listRemoveData (by decide)).trans moved_unblock))
  | abort _ dispatch =>
    rw [dispatch.sched]
    exact same (lasting_preempted.trans lasting_switched)
  | @terminal number _ room sched _ =>
    have focused : s'.sched.focusedTerminal = number := by
      rw [sched, focusedOn_fields room]
    rw [focused]
    refine ⟨.inr rfl, ?_⟩
    rw [sched]
    exact lasting_focusedOn room

end Identity

/-! ## The invariant -/

/-- What holds whenever a process runs. -/
structure Scheduled (full : Prop) (σ : Sched) : Prop where
  queued : Queued full [σ.runningProcess] σ
  alive : σ.runningProcess ∈ σ.lists .all
  active : (σ.pcbs σ.runningProcess).state = .running
  focus : 1 ≤ σ.focusedTerminal ∧ σ.focusedTerminal ≤ numberOfTerminals
  idlePid : (σ.pcbs σ.idleProcess).pid = 0

section Steps
variable {full : Prop} {σ σ' : Sched} {out : List Nat} {pcb p n : Nat}

theorem sameLists_saved (cpu : Cpu) (number : Nat) : SameLists σ (Sched.saved cpu number σ) := by
  unfold Sched.saved Sched.saveProcessContext
  exact sameLists_setRegs

theorem sameLists_refl : SameLists σ σ := ⟨fun _ => .refl _, rfl, rfl, rfl, fun _ => rfl, fun _ => rfl⟩

theorem sameLists_setEax (p eax : Nat) : SameLists σ (σ.setEax p eax) := sameLists_setRegs

/-- The nodes that a system call may need. -/
def callNodes : Nat → Nat
  | 100 => 0
  | 107 | 120 => 3
  | 109 => 2
  | _ => 1

theorem room_setReady : σ.room ≤ (σ.setProcessAsReady p).room + 1 ∧
    (σ.setProcessAsReady p).room ≤ σ.room := by
  unfold Sched.setProcessAsReady
  split
  · exact ⟨Nat.le_succ _, Nat.le_refl _⟩
  · unfold Sched.listAddLast
    split
    · exact ⟨Nat.le_succ _, Nat.le_refl _⟩
    · show σ.room ≤ σ.room - 1 + 1 ∧ σ.room - 1 ≤ σ.room
      omega

theorem callNodes_answer (other : n ≠ 100) : 1 ≤ callNodes n ∧ (n = 109 → 2 ≤ callNodes n) := by
  unfold callNodes
  split <;> simp_all

theorem Queued.effect (queued : Queued full [pcb] σ) (alive : pcb ∈ σ.lists .all)
    (user : pcb ≠ σ.idleProcess) (room : full → callNodes n ≤ σ.room) (effect : CallEffect pcb σ n σ') :
    Queued full [] σ' := by
  have shell := queued.terminal pcb alive user
  have old := queued.created pcb alive
  cases effect with
  | answer answered nodes other =>
    have moved := moved_answered answered
    apply (queued.same (sameLists_answered answered)).setReady
    · exact fun _ => by rwa [moved.all]
    · exact List.not_mem_nil
    · intro enough
      have left := answered.room
      have before := room enough
      have some := callNodes_answer other
      omega
  | @exec filename entry cr3 σ0 σ1 ready _ made =>
    have first : Queued full [] σ0 := by
      rw [ready]
      refine (queued.setReady (fun _ => alive) List.not_mem_nil fun enough => ?_).same sameLists_setRegs
      have before := room enough
      simp only [callNodes] at before
      omega
    have left : σ.room ≤ σ0.room + 1 := by
      rw [ready]
      exact room_setReady.1
    have second := first.withProcess filename (σ.pcbs pcb).pid (σ.pcbs pcb).stdout entry cr3 (by
      exact shell)
    rw [← made] at second
    have rest : σ1.room = σ0.room - 1 := by
      rw [made]
      exact withProcess_room _ _ _ _ _ _
    apply (second.same sameLists_setRegs).setReady
    · intro some
      have some : 0 < σ1.room := some
      show σ0.created ∈ σ1.lists .all
      rw [made]
      apply withProcess_alive
      omega
    · exact List.not_mem_nil
    · intro enough
      have before := room enough
      simp only [callNodes] at before
      show 0 < σ1.room
      omega
  | execFailed =>
    refine (queued.setReady (fun _ => alive) List.not_mem_nil fun enough => ?_).same sameLists_setRegs
    have before := room enough
    simp only [callNodes] at before
    omega
  | @fork entry cr3 σ1 _ made =>
    have first := queued.withProcess (σ.pcbs pcb).name (σ.pcbs pcb).pid (σ.pcbs pcb).stdout entry cr3 shell
    rw [← made] at first
    have rest : σ1.room = σ.room - 1 := by
      rw [made]
      exact withProcess_room _ _ _ _ _ _
    have second : Queued full [pcb, σ.created] σ1 := by
      refine first.congr fun i _ => ?_
      simp only [List.mem_cons, List.not_mem_nil, or_false]
      exact or_comm
    have inside : pcb ∈ σ1.lists .all := by
      rw [made]
      exact withProcess_keeps _ _ _ _ _ _ alive
    generalize copied : ((σ1.setRegs σ.created (forkRegs (σ.pcbs pcb).regs)).setEax pcb 1).setEax
      σ.created 0 = σ2
    have third : Queued full [pcb, σ.created] σ2 := by
      rw [← copied]
      exact ((second.same sameLists_setRegs).same sameLists_setRegs).same sameLists_setRegs
    have same : σ2.room = σ1.room ∧ σ2.lists = σ1.lists := by
      rw [← copied]
      exact ⟨rfl, rfl⟩
    obtain ⟨fewer, more⟩ := room_setReady (σ := σ2) (p := pcb)
    have parent : Queued full [σ.created] (σ2.setProcessAsReady pcb) := by
      apply third.setReady
      · exact fun _ => by rwa [same.2]
      · simp [Nat.ne_of_lt old]
      · intro enough
        have before := room enough
        simp only [callNodes] at before
        omega
    apply parent.setReady
    · intro some
      rw [moved_setReady.all, same.2, made]
      apply withProcess_alive
      omega
    · exact List.not_mem_nil
    · intro enough
      have before := room enough
      simp only [callNodes] at before
      omega
  | wait _ =>
    exact queued.blockOnProcess alive List.not_mem_nil room user
  | readLine =>
    exact queued.blockOnKeyboard alive List.not_mem_nil room user
  | exit =>
    apply (queued.wake _ _).killedRunning
    · rw [moved_wake.idle]
      exact user
    · rw [moved_wake.all]
      exact alive
  | unknown _ => exact queued.killedRunning user alive

/-- CTRL+C finds a process that is alive. -/
theorem Queued.latestAlive (queued : Queued full out σ)
    (focus : 1 ≤ σ.focusedTerminal ∧ σ.focusedTerminal ≤ numberOfTerminals)
    (user : σ.getLatestRunningNonIdleProcess ≠ σ.idleProcess) :
    σ.getLatestRunningNonIdleProcess ∈ σ.lists .all ∧
      (σ.pcbs σ.getLatestRunningNonIdleProcess).shellId = σ.focusedTerminal := by
  obtain ⟨least, most⟩ := focus
  obtain ⟨t, number⟩ : ∃ t, σ.focusedTerminal = t + 1 := ⟨_, (Nat.sub_add_cancel least).symm⟩
  have few : t < numberOfTerminals := by omega
  unfold Sched.getLatestRunningNonIdleProcess at user ⊢
  rw [number, terminalIndex_succ few] at user ⊢
  exact (queued.latest t few).resolve_left user

theorem state_setReady_other {i : Nat} (other : i ≠ p) :
    ((σ.setProcessAsReady p).pcbs i).state = (σ.pcbs i).state := by
  unfold Sched.setProcessAsReady
  split
  · rfl
  · unfold Sched.listAddLast
    split
    · exact state_setState_other other
    · exact state_setState_other other

theorem Queued.preempted (queued : Queued full [σ.runningProcess] σ) (user : p ≠ σ.idleProcess)
    (alive : p ∈ σ.lists .all) (running : σ.runningProcess ∈ σ.lists .all) :
    Queued full [] (Sched.preempted p σ) := by
  have aborted := queued.aborted user alive
  unfold Sched.preempted
  split
  next other =>
    obtain ⟨_, room, _, freed, _, fields⟩ := killed_fields (p := p)
      (σ := σ.wakeUpParentProcess (σ.pcbs p).ppid 1)
    have moved : Moved σ (σ.wakeUpParentProcess (σ.pcbs p).ppid 1) := moved_wake
    have survives : σ.runningProcess ∈ (Sched.aborted p σ).lists .all := by
      rw [Sched.aborted, fields]
      simp only [moved.all]
      exact (List.mem_erase_of_ne other).mpr running
    apply aborted.setReady
    · exact fun _ => survives
    · exact List.not_mem_nil
    · intro _
      have more := freed (by rwa [moved.all])
      rw [Sched.aborted, fields]
      exact Nat.zero_lt_of_lt more
  next same =>
    rw [Decidable.not_not] at same
    subst same
    apply (queued.wake _ _).killedRunning
    · rw [moved_wake.idle]
      exact user
    · rw [moved_wake.all]
      exact alive

/-- A switch to the next process ends every handler that takes the CPU away. -/
theorem scheduled_dispatch {s s' : System} (queued : Queued full [] σ) (dispatch : Dispatches s σ s')
    (focus : 1 ≤ s'.sched.focusedTerminal ∧ s'.sched.focusedTerminal ≤ numberOfTerminals)
    (idlePid : (s'.sched.pcbs s'.sched.idleProcess).pid = 0) : Scheduled full s'.sched := by
  have sched := dispatch.sched
  have dispatched := dispatched_switched (σ := σ)
  refine ⟨?_, ?_, ?_, focus, idlePid⟩
  · rw [sched]
    exact queued.switched
  · rw [sched, dispatched.all]
    exact dispatched.alive queued
  · rw [sched]
    exact dispatched.running

/-- What an interrupt needs of the kernel heap so that no process is lost. -/
def eventNodes : Event → Nat
  | .timer _ => 1
  | .systemCall cpu _ => callNodes cpu.eax
  | _ => 0

/-- Enter while the idle process runs and the line cannot be stored. -/
def KillsIdle (s : System) : Event → Prop
  | .enter _ mapped => mapped = false ∧ s.sched.runningProcess = s.sched.idleProcess ∧
      ∃ pcb, (s.sched.lists .blockedOnKeyboard).head? = some pcb ∧
        (s.sched.pcbs pcb).shellId = s.sched.focusedTerminal
  | _ => False

theorem Scheduled.step {s s' : System} {event : Event} (scheduled : Scheduled full s.sched)
    (room : full → eventNodes event ≤ s.sched.room) (happens : Happens s event)
    (spared : ¬ KillsIdle s event) (step : Interrupted s event s') : Scheduled full s'.sched := by
  obtain ⟨queued, alive, active, focus, idlePid⟩ := scheduled
  obtain ⟨focused, lasting⟩ := lasting_interrupted step
  have idleOld := queued.created _ queued.idle
  have focus' : 1 ≤ s'.sched.focusedTerminal ∧ s'.sched.focusedTerminal ≤ numberOfTerminals := by
    rcases focused with same | terminal
    · rw [same]
      exact focus
    · rw [terminal] at happens
      exact happens
  have idlePid' : (s'.sched.pcbs s'.sched.idleProcess).pid = 0 := by
    rw [lasting.idle]
    exact (lasting.pid _ idleOld).trans idlePid
  cases step with
  | tick sched _ | dropped sched _ _ | shell sched _ _ | noTerminal sched _ =>
    rw [sched]
    exact ⟨queued, alive, active, focus, idlePid⟩
  | timer dispatch =>
    apply scheduled_dispatch _ dispatch focus' idlePid'
    exact (queued.same (sameLists_saved _ _)).setReady (fun _ => alive) List.not_mem_nil room
  | systemCall effect dispatch =>
    apply scheduled_dispatch _ dispatch focus' idlePid'
    exact (queued.same (sameLists_saved _ _)).effect alive happens room effect
  | fault dispatch =>
    apply scheduled_dispatch _ dispatch focus' idlePid'
    apply (queued.wake _ _).killedRunning
    · rw [moved_wake.idle]
      exact happens
    · rw [moved_wake.all]
      exact alive
  | @delivered line pcb _ first _ sched _ _ =>
    have inside : pcb ∈ s.sched.lists .blockedOnKeyboard := List.mem_of_mem_head? first
    have different : s.sched.runningProcess ≠ pcb := by
      rintro rfl
      by_cases idle : s.sched.runningProcess = s.sched.idleProcess
      · exact absurd (queued.unblocked _ (idle ▸ inside)) (by decide)
      · exact notListed (queued.gone _ List.mem_cons_self idle) (by decide) inside
    have room' : 0 < (s.sched.listRemoveData .blockedOnKeyboard pcb).room := by
      rw [listRemoveData_mem inside]
      exact Nat.succ_pos _
    obtain ⟨queued', result⟩ := queued.unblock (by decide) (by decide) inside sameLists_refl room'
    have moved : Moved s.sched s'.sched := by
      rw [sched]
      exact (moved_listRemoveData (by decide)).trans moved_unblock
    refine ⟨?_, ?_, ?_, focus', idlePid'⟩
    · rw [moved.running, sched]
      exact queued'
    · rw [moved.all, moved.running]
      exact alive
    · rw [moved.running, sched, result, state_setReady_other different, pcbs_listRemoveData]
      exact active
  | pageFault first focused' dispatch =>
    apply scheduled_dispatch _ dispatch focus' idlePid'
    apply (queued.wake _ _).killedRunning
    · rw [moved_wake.idle]
      exact fun idle => spared ⟨rfl, idle, _, first, focused'⟩
    · rw [moved_wake.all]
      exact alive
  | abort later dispatch =>
    apply scheduled_dispatch _ dispatch focus' idlePid'
    have user : s.sched.getLatestRunningNonIdleProcess ≠ s.sched.idleProcess := by
      intro idle
      rw [idle, idlePid] at later
      exact later (by decide)
    exact queued.preempted user (queued.latestAlive focus user).1 alive
  | @terminal number _ room' sched _ =>
    have same := sameLists_focusedOn (t := number) room'
    have fields := focusedOn_fields (t := number) room'
    rw [← sched] at same fields
    have running : s'.sched.runningProcess = s.sched.runningProcess := by rw [fields]
    refine ⟨?_, ?_, ?_, focus', idlePid'⟩
    · rw [running]
      exact queued.same same
    · rw [running, (same.lists _).mem_iff]
      exact alive
    · rw [running, same.states]
      exact active

end Steps

end Delos.Invariants
