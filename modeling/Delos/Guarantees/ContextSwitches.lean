import Delos.Guarantees.SchedulerPartition
import Delos.Invariants.SavedContexts

/-!
# A process goes on where it was interrupted

The timer and the system calls save the registers before they switch, and the words of the frame, of the
PCB and of `_switch_task` agree. `abort_current_cmd` does not save: when CTRL+C kills another process
than the one on the CPU, the latter goes on with the registers of an earlier interrupt.
-/
namespace Delos.Guarantees
open Lib Source Invariants

/-- Whoever is dispatched gets the registers that it was interrupted with. -/
def Restores (stopped : Nat → Option Event) (s s' : System) : Prop :=
  ∀ p loaded, s'.switches = s.switches ++ [(p, loaded)] → p ∈ s'.sched.lists .all →
    ∀ event, stopped p = some event → Resumes event loaded

section
variable {s s' : System} {event : Event} {stopped : Nat → Option Event} {p room : Nat} {σ : Sched}

theorem noteStop_otherwise (other : p ≠ s.sched.runningProcess) : noteStop s event stopped p = stopped p := by
  cases event with
  | timer _ | systemCall _ _ | abort _ => exact Function.update_of_ne other _ _
  | fault _ | enter _ _ | terminal _ => rfl

/-- A system call saves first, whatever it does then. -/
theorem caller_resumable {cpu : Cpu} {user : UserSpace} (kept : RegsKept False s.sched.runningProcess (Sched.saved cpu 0x80 s.sched) s'.sched)
    (plain : ¬ HasResult cpu.eax → (s'.sched.pcbs s.sched.runningProcess).regs =
      ((Sched.saved cpu 0x80 s.sched).pcbs s.sched.runningProcess).regs) :
    Resumable (noteStop s (.systemCall cpu user) stopped) s'.sched s.sched.runningProcess := by
  intro event last
  have noted : noteStop s (.systemCall cpu user) stopped s.sched.runningProcess = some (.systemCall cpu user) := Function.update_self _ _ _
  obtain rfl := Option.some.inj (noted.symm.trans last)
  obtain ⟨eax, regs, _⟩ := kept
  rw [saved_regs, Function.update_self] at regs plain
  constructor
  · rw [regs]
    rfl
  · intro none
    rw [plain none]
    rfl

/-- What is left to show at each kind of interrupt: the registers of the others, and those of the process that ran. -/
theorem resumable_all (remembered : Remembered stopped s.sched) (step : Interrupted s event s')
    (kept : ∀ p < s.sched.created, p ≠ s.sched.runningProcess → RegsKept (p ∉ s.sched.lists .blockedOnProcess) p s.sched s'.sched)
    (alive : p ∈ s'.sched.lists .all) (own : p = s.sched.runningProcess → Resumable (noteStop s event stopped) s'.sched p) :
    Resumable (noteStop s event stopped) s'.sched p := by
  by_cases here : p = s.sched.runningProcess
  · exact own here
  · intro event' last
    rw [noteStop_otherwise here] at last
    have old := remembered.old p event' last
    have before : p ∈ s.sched.lists .all := (lasting_interrupted step).2.survivors p old alive
    exact (remembered.resumable p before here).kept (kept p old here) (remembered.waits p) event' last

theorem restores_dispatch (dispatch : Dispatches s σ s') (resumable : ∀ p ∈ s'.sched.lists .all, Resumable stopped s'.sched p) :
    Restores stopped s s' := by
  intro p loaded switches alive event last
  have same := List.append_cancel_left (dispatch.loaded.symm.trans switches)
  obtain ⟨rfl, rfl⟩ := Prod.mk.inj (List.singleton_inj.mp same)
  exact resumable _ alive event last

theorem restores_silent (same : s'.switches = s.switches) : Restores stopped s s' := fun p loaded switches => by
  rw [same] at switches
  simp at switches

/-- What an interrupt leaves of the registers. -/
theorem regsKept_interrupted (step : Interrupted s event s') (old : p < s.sched.created) (other : p ≠ s.sched.runningProcess) :
    RegsKept (p ∉ s.sched.lists .blockedOnProcess) p s.sched s'.sched := by
  have saved : ∀ cpu n, RegsKept (p ∉ s.sched.lists .blockedOnProcess) p s.sched (Sched.saved cpu n s.sched) := fun cpu n =>
    regsKept_same (by rw [saved_regs, Function.update_of_ne other])
  cases step with
  | tick sched _ | dropped sched _ _ | shell sched _ _ | noTerminal sched _ =>
    rw [sched]
    exact regsKept_same rfl
  | timer dispatch =>
    rw [dispatch.sched]
    exact ((saved _ _).trans (regsKept_same regs_setReady)).trans (regsKept_same regs_switched)
  | @systemCall cpu _ σ _ effect dispatch =>
    rw [dispatch.sched]
    have called : RegsKept (p ∉ s.sched.lists .blockedOnProcess) p (Sched.saved cpu 0x80 s.sched) σ :=
      regsKept_effect old (fun free => ⟨other, free⟩) effect
    exact ((saved _ _).trans called).trans (regsKept_same regs_switched)
  | fault dispatch | pageFault _ _ dispatch =>
    rw [dispatch.sched]
    exact (regsKept_aborted id).trans (regsKept_same regs_switched)
  | delivered _ _ sched _ _ =>
    rw [sched]
    exact regsKept_same (regs_unblock.trans (by rw [pcbs_listRemoveData]))
  | abort _ dispatch =>
    rw [dispatch.sched]
    unfold Sched.preempted
    split
    · exact ((regsKept_aborted id).trans (regsKept_same regs_setReady)).trans (regsKept_same regs_switched)
    · exact (regsKept_aborted id).trans (regsKept_same regs_switched)
  | terminal room sched _ =>
    rw [sched, focusedOn_fields room]
    exact regsKept_same rfl

/-- Whoever is killed is not alive. -/
theorem dead_aborted (unique : (s.sched.lists .all).Nodup) (dispatch : Dispatches s (Sched.aborted p s.sched) s') :
    p ∉ s'.sched.lists .all := by
  rw [dispatch.sched, lists_switched (by decide), Sched.aborted, lists_killed, moved_wake.all]
  exact unique.not_mem_erase

theorem resumable_step (scheduled : Scheduled False s.sched) (remembered : Remembered stopped s.sched) (allowed : SavesFirst s (room, event))
    (step : Interrupted s event s') (run : handle event s = .ok ((), s')) :
    (∀ p ∈ s'.sched.lists .all, p ≠ s'.sched.runningProcess → Resumable (noteStop s event stopped) s'.sched p) ∧
      Restores (noteStop s event stopped) s s' := by
  have others : ∀ p ∈ s'.sched.lists .all, p ≠ s.sched.runningProcess → Resumable (noteStop s event stopped) s'.sched p :=
    fun p alive other => resumable_all remembered step (fun p old other => regsKept_interrupted step old other) alive fun here => absurd here other
  -- an interrupt that does not switch
  have stays : s'.sched.runningProcess = s.sched.runningProcess → s'.switches = s.switches →
      (∀ p ∈ s'.sched.lists .all, p ≠ s'.sched.runningProcess → Resumable (noteStop s event stopped) s'.sched p) ∧
        Restores (noteStop s event stopped) s s' := fun same silent =>
    ⟨fun p alive other => others p alive (same ▸ other), restores_silent silent⟩
  -- an interrupt that switches
  have switches : ∀ {σ}, Dispatches s σ s' → (s.sched.runningProcess ∈ s'.sched.lists .all →
      Resumable (noteStop s event stopped) s'.sched s.sched.runningProcess) →
      (∀ p ∈ s'.sched.lists .all, p ≠ s'.sched.runningProcess → Resumable (noteStop s event stopped) s'.sched p) ∧
        Restores (noteStop s event stopped) s s' := fun dispatch own => by
    have all : ∀ p ∈ s'.sched.lists .all, Resumable (noteStop s event stopped) s'.sched p := fun p alive => by
      by_cases here : p = s.sched.runningProcess
      · exact here ▸ own (here ▸ alive)
      · exact others p alive here
    exact ⟨fun p alive _ => all p alive, restores_dispatch dispatch all⟩
  have unique := scheduled.queued.unique
  cases step with
  | tick sched silent | dropped sched silent _ | shell sched silent _ | noTerminal sched silent =>
    exact stays (by rw [sched]) silent.1
  | @timer cpu _ dispatch =>
    refine switches dispatch fun _ event last => ?_
    have noted : noteStop s (.timer cpu) stopped s.sched.runningProcess = some (.timer cpu) := Function.update_self _ _ _
    obtain rfl := Option.some.inj (noted.symm.trans last)
    rw [dispatch.sched, regs_switched, regs_setReady, saved_regs, Function.update_self]
    rfl
  | @systemCall cpu user σ _ effect dispatch =>
    have old : s.sched.runningProcess < s.sched.created := scheduled.queued.created _ scheduled.alive
    have called : RegsKept False s.sched.runningProcess (Sched.saved cpu 0x80 s.sched) σ :=
      regsKept_effect old (fun impossible => impossible.elim) effect
    refine switches dispatch fun _ => caller_resumable ?_ fun plain => ?_
    · rw [dispatch.sched]
      exact called.trans (regsKept_same regs_switched)
    · exact meets_result (plainHandler_regs plain) run _
  | fault dispatch => exact switches dispatch fun alive => absurd alive (dead_aborted unique dispatch)
  | pageFault _ _ dispatch => exact switches dispatch fun alive => absurd alive (dead_aborted unique dispatch)
  | delivered _ _ sched same _ =>
    refine stays ?_ same
    rw [sched, moved_unblock.running, (moved_listRemoveData (by decide)).running]
  | abort later dispatch =>
    have mine := allowed.resolve_left later
    rw [mine, Sched.preempted, if_neg (not_not.mpr rfl)] at dispatch
    exact switches dispatch fun alive => absurd alive (dead_aborted unique dispatch)
  | terminal room sched silent =>
    refine stays ?_ silent.1
    rw [sched, focusedOn_fields room]

theorem remembered_step (scheduled : Scheduled False s.sched) (remembered : Remembered stopped s.sched) (allowed : SavesFirst s (room, event))
    (step : Interrupted s event s') (run : handle event s = .ok ((), s')) : Remembered (noteStop s event stopped) s'.sched := by
  refine ⟨(resumable_step scheduled remembered allowed step run).1, fun p blocked => ?_, fun p event' last => ?_⟩
  · rcases enters_blocked scheduled step blocked with before | ⟨rfl, call⟩
    · rw [noteStop_otherwise (running_free scheduled before)]
      exact remembered.waits p before
    · cases event with
      | systemCall cpu user =>
        refine ⟨cpu, user, Function.update_self _ _ _, ?_⟩
        rw [call.1]
        decide
      | _ => exact absurd call id
  · refine Nat.lt_of_lt_of_le ?_ (lasting_interrupted step).2.created
    by_cases here : p = s.sched.runningProcess
    · rw [here]
      exact scheduled.queued.created _ scheduled.alive
    · rw [noteStop_otherwise here] at last
      exact remembered.old p event' last

theorem remembered_withRoom (room : Nat) (remembered : Remembered stopped s.sched) : Remembered stopped (withRoom room s).sched :=
  ⟨remembered.resumable, remembered.waits, remembered.old⟩

theorem handle_run (run : interrupt room event s = .ok ((), s')) : handle event (withRoom room s) = .ok ((), s') := by
  have alive := (interrupt_run run).1
  unfold interrupt at run
  rw [run_bind (show getSched s = .ok (s.sched, s) from rfl), if_pos alive] at run
  exact run

/-- The states of the runs in which the registers are saved first. -/
theorem remembered_run {o : System × (Nat → Option Event)}
    (run : Run (RecordedStart fun _ => none) (fun o e => SavesFirst o.1 e) (Recorded noteStop) o)
    (idle : o.1.sched.idleProcess ∈ o.1.sched.lists .all) : Scheduled False o.1.sched ∧ Remembered o.2 o.1.sched := by
  revert idle
  induction run with
  | init started =>
    intro _
    refine ⟨scheduled_weaken (scheduled_start started.1).1, ?_, ?_, ?_⟩
    · intro p _ _ event last
      rw [started.2] at last
      cases last
    · intro p blocked
      rw [(scheduled_start started.1).2.2 _ (by decide) (by decide)] at blocked
      cases blocked
    · intro p event last
      rw [started.2] at last
      cases last
  | @step o o' e before allowed next ih =>
    intro idle
    obtain ⟨taken, note⟩ := next
    obtain ⟨⟨_, alive⟩, step⟩ := taken_interrupted taken
    obtain ⟨scheduled, remembered⟩ := ih alive
    have allowed' : SavesFirst (withRoom e.1 o.1) (e.1, e.2) := allowed
    refine ⟨scheduled_anyhow (recorded_run (.step before allowed ⟨taken, note⟩)) idle, ?_⟩
    have after := remembered_step (scheduled_withRoom e.1 scheduled) (remembered_withRoom e.1 remembered) allowed' step (handle_run taken.2)
    rw [note]
    exact after

end

/-- The registers of the process that CTRL+C puts aside. -/
def cpuAt (eip : Nat) : Cpu := ⟨0, 0, 0, 0, 0, 0, 0, 0, 0, eip⟩

/-- The second shell runs. CTRL+C makes it go on with the registers of its last system call. -/
def losesContext (s : System) : Bool :=
  decide (s.sched.runningProcess = 2) &&
    endsWith (fun s' : System => decide (s'.switches = s.switches ++ [(2, ⟨2, 0, 0, 0, 0, 0, 0, 0, 0, 0⟩)] ∧ 2 ∈ s'.sched.lists .all))
      (script [.abort (cpuAt userStart)] s)

end Delos.Guarantees
