import Delos.Invariants.SchedulerRuns

/-!
# The order of the readers

`block_process_on_keyboard` puts a reader in front of the others, whatever its terminal; only a
switch of the terminal sorts the list. What every interrupt does to the list is
one of three things: readers leave it, the caller of `SYSCALL_READ_LINE` comes to its front, or
it is rescheduled.
-/
namespace Delos.Invariants
open Lib Source

/-- Nobody stands in front of a reader of the terminal in focus but its own kind. -/
def FocusedFirst (σ : Sched) : Prop :=
  (σ.lists .blockedOnKeyboard).Pairwise fun i j =>
    (σ.pcbs j).shellId = σ.focusedTerminal → (σ.pcbs i).shellId = σ.focusedTerminal

/-- Whoever reads while a process of the terminal in focus waits for the keyboard is of this terminal
itself; and a switch of the terminal finds memory for a list of its readers. -/
def ReadsInFront (s : System) (e : Nat × Event) : Prop :=
  match e.2 with
  | .systemCall cpu _ => cpu.eax = 102 →
    (s.sched.pcbs s.sched.runningProcess).shellId = s.sched.focusedTerminal ∨
      ∀ j ∈ s.sched.lists .blockedOnKeyboard, (s.sched.pcbs j).shellId ≠ s.sched.focusedTerminal
  | .terminal number =>
    ((s.sched.lists .blockedOnKeyboard).filter fun j => (s.sched.pcbs j).shellId = number).length < e.1
  | _ => True

section
variable {s s' : System} {σ σ' : Sched} {event : Event} {p n : Nat} {q : ProcessList} {full : Prop}

theorem lists_wake {ppid exitCode : Nat} (ready : q ≠ .ready) (blocked : q ≠ .blockedOnProcess) :
    (σ.wakeUpParentProcess ppid exitCode).lists q = σ.lists q := by
  unfold Sched.wakeUpParentProcess
  split
  · rfl
  · rw [lists_unblock ready]
    exact (lists_listRemoveData q).trans (if_neg blocked)

theorem keyboard_effect (effect : CallEffect p σ n σ') :
    (σ'.lists .blockedOnKeyboard).Sublist (σ.lists .blockedOnKeyboard) ∨
      n = 102 ∧ σ'.lists .blockedOnKeyboard = p :: σ.lists .blockedOnKeyboard := by
  have same : ∀ {σ' : Sched}, σ'.lists .blockedOnKeyboard = σ.lists .blockedOnKeyboard →
      (σ'.lists .blockedOnKeyboard).Sublist (σ.lists .blockedOnKeyboard) := fun same => same ▸ List.Sublist.refl _
  cases effect with
  | answer answered _ _ =>
    refine .inl (same ?_)
    rw [lists_setReady (by decide), answered.lists]
  | @exec filename entry cr3 σ0 σ1 ready _ made =>
    refine .inl (same ?_)
    rw [lists_setReady (by decide)]
    show σ1.lists .blockedOnKeyboard = _
    rw [made, lists_withProcess (by decide), ready]
    exact lists_setReady (by decide)
  | execFailed => exact .inl (same (lists_setReady (by decide)))
  | fork _ made =>
    refine .inl (same ?_)
    rw [lists_setReady (by decide), lists_setReady (by decide), made]
    exact lists_withProcess (by decide)
  | wait _ =>
    refine .inl (same ?_)
    rw [Sched.blockProcessOnAnotherProcess, lists_listAddLast (by decide)]
    rfl
  | readLine =>
    unfold Sched.blockProcessOnKeyboard Sched.listAddFirst
    split
    · exact .inl (List.Sublist.refl _)
    · exact .inr ⟨rfl, by simp only [Function.update_self]; rfl⟩
  | exit =>
    left
    rw [lists_killed, lists_wake (by decide) (by decide)]
    exact List.erase_sublist
  | unknown _ =>
    left
    rw [lists_killed]
    exact List.erase_sublist

theorem keyboard_aborted : ((Sched.aborted p σ).lists .blockedOnKeyboard).Sublist (σ.lists .blockedOnKeyboard) := by
  rw [Sched.aborted, lists_killed, lists_wake (by decide) (by decide)]
  exact List.erase_sublist

/-- The list behind an interrupt. -/
theorem keyboard_interrupted (step : Interrupted s event s') :
    (s'.sched.lists .blockedOnKeyboard).Sublist (s.sched.lists .blockedOnKeyboard) ∧ s'.sched.focusedTerminal = s.sched.focusedTerminal ∨
    (∃ cpu user, event = .systemCall cpu user ∧ cpu.eax = 102 ∧ s'.sched.focusedTerminal = s.sched.focusedTerminal ∧
      s'.sched.lists .blockedOnKeyboard = s.sched.runningProcess :: s.sched.lists .blockedOnKeyboard) ∨
    ∃ number, event = .terminal number ∧ 0 < s.sched.room ∧ s'.sched = Sched.focusedOn number s.sched := by
  have focus := (lasting_interrupted step).1
  have kept : (∀ number, event ≠ .terminal number) → s'.sched.focusedTerminal = s.sched.focusedTerminal :=
    fun other => focus.resolve_right (other _)
  cases step with
  | tick sched _ | dropped sched _ _ | shell sched _ _ | noTerminal sched _ =>
    rw [sched]
    exact .inl ⟨List.Sublist.refl _, rfl⟩
  | timer dispatch =>
    refine .inl ⟨?_, kept fun _ => Event.noConfusion⟩
    rw [dispatch.sched, lists_switched (by decide), lists_setReady (by decide)]
    exact List.Sublist.refl _
  | @systemCall cpu user σ _ effect dispatch =>
    have same := kept fun _ => Event.noConfusion
    have switched : s'.sched.lists .blockedOnKeyboard = σ.lists .blockedOnKeyboard := by
      rw [dispatch.sched, lists_switched (by decide)]
    rcases keyboard_effect effect with fewer | ⟨number, front⟩
    · exact .inl ⟨switched ▸ fewer, same⟩
    · exact .inr (.inl ⟨cpu, user, rfl, number, same, switched.trans front⟩)
  | fault dispatch | pageFault _ _ dispatch =>
    refine .inl ⟨?_, kept fun _ => Event.noConfusion⟩
    rw [dispatch.sched, lists_switched (by decide)]
    exact keyboard_aborted
  | delivered _ _ sched _ _ =>
    refine .inl ⟨?_, kept fun _ => Event.noConfusion⟩
    rw [sched, lists_unblock (by decide), lists_listRemoveData, if_pos rfl]
    exact List.erase_sublist
  | abort _ dispatch =>
    refine .inl ⟨?_, kept fun _ => Event.noConfusion⟩
    rw [dispatch.sched, lists_switched (by decide)]
    unfold Sched.preempted
    split
    · rw [lists_setReady (by decide)]
      exact keyboard_aborted
    · exact keyboard_aborted
  | terminal room sched _ => exact .inr (.inr ⟨_, rfl, room, sched⟩)

/-- With memory for the list, the readers of the terminal all come to the front. -/
theorem focusedFirst_focusedOn (enough : ((σ.lists .blockedOnKeyboard).filter fun j => (σ.pcbs j).shellId = n).length < σ.room)
    (distinct : (σ.lists .blockedOnKeyboard).Nodup) : FocusedFirst (Sched.focusedOn n σ) := by
  have own : Sched.ofTerminal n .blockedOnKeyboard σ = (σ.lists .blockedOnKeyboard).filter fun j => (σ.pcbs j).shellId = n :=
    List.take_of_length_le (Nat.le_sub_one_of_lt enough)
  rw [focusedOn_fields (Nat.zero_lt_of_lt enough)]
  show (rescheduled n σ .blockedOnKeyboard).Pairwise _
  rw [rescheduled, if_pos (.inl rfl), own, distinct.sdiff_eq_filter]
  have mine : ∀ i ∈ (σ.lists .blockedOnKeyboard).filter fun j => (σ.pcbs j).shellId = n, (σ.pcbs i).shellId = n := fun i inside =>
    of_decide_eq_true (List.mem_filter.mp inside).2
  refine List.pairwise_append.mpr ⟨List.pairwise_of_forall_mem_list fun i inside _ _ _ => mine i inside, ?_,
    fun i inside _ _ _ => mine i inside⟩
  refine List.pairwise_of_forall_mem_list fun i _ j inside focused => ?_
  obtain ⟨blocked, outside⟩ := List.mem_filter.mp inside
  exact absurd (List.mem_filter.mpr ⟨blocked, decide_eq_true focused⟩) (of_decide_eq_true outside)

theorem focusedFirst_taken {e : Nat × Event} (first : FocusedFirst s.sched) (scheduled : Scheduled full s.sched)
    (allowed : ReadsInFront s e) (taken : Taken s e s') : FocusedFirst s'.sched := by
  obtain ⟨_, step⟩ := taken_interrupted taken
  have old : ∀ i ∈ s.sched.lists .blockedOnKeyboard, i < s.sched.created := fun i inside =>
    scheduled.queued.created i (scheduled.queued.alive _ i inside)
  have terminal : ∀ i < s.sched.created, (s'.sched.pcbs i).shellId = (s.sched.pcbs i).shellId := (lasting_interrupted step).2.terminal
  -- the order of the old list, with the terminals that the processes have then
  have before : s'.sched.focusedTerminal = s.sched.focusedTerminal → (s.sched.lists .blockedOnKeyboard).Pairwise fun i j =>
      (s'.sched.pcbs j).shellId = s'.sched.focusedTerminal → (s'.sched.pcbs i).shellId = s'.sched.focusedTerminal := fun same => by
    refine first.imp_of_mem fun {i j} i_in j_in order => ?_
    rw [same, terminal i (old i i_in), terminal j (old j j_in)]
    exact order
  rcases keyboard_interrupted step with ⟨fewer, same⟩ | ⟨cpu, user, call, number, same, front⟩ | ⟨number, switch, room, sched⟩
  · exact (before same).sublist fewer
  · have call : e.2 = .systemCall cpu user := call
    rw [ReadsInFront, call] at allowed
    unfold FocusedFirst
    rw [front]
    refine List.pairwise_cons.mpr ⟨fun j inside focused => ?_, before same⟩
    have inside : j ∈ s.sched.lists .blockedOnKeyboard := inside
    have running : s.sched.runningProcess < s.sched.created := scheduled.queued.created _ scheduled.alive
    rw [same, terminal j (old j inside)] at focused
    rw [same]
    refine (terminal _ running).trans ?_
    exact (allowed number).resolve_right fun nobody => nobody j inside focused
  · have switch : e.2 = .terminal number := switch
    rw [ReadsInFront, switch] at allowed
    rw [sched]
    exact focusedFirst_focusedOn allowed (scheduled.queued.nodup (by decide))

end

end Delos.Invariants
