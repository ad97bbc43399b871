import Delos.Lib.WaitingLine
import Delos.Invariants.SchedulerRuns

/-!
# The ready list is first in, first out

A process that is ready is only ever joined by processes behind it; those ahead of it
leave when they are dispatched or killed.
-/
namespace Delos.Invariants
open Lib Source

section
variable {full : Prop} {σ σ' : Sched} {out : List Nat} {i p pcb n : Nat} {q : ProcessList}

theorem behind_setReady (other : p ≠ i) :
    Behind i (σ.lists .ready) ((σ.setProcessAsReady p).lists .ready) := by
  unfold Sched.setProcessAsReady
  split
  · exact behind_refl
  · unfold Sched.listAddLast
    split
    · exact behind_refl
    · simp only [Function.update_self]
      exact behind_append other

theorem nodup_setReady (nodup : (σ.lists .ready).Nodup) :
    ((σ.setProcessAsReady p).lists .ready).Nodup := by
  unfold Sched.setProcessAsReady
  split
  · exact nodup
  next outside =>
    unfold Sched.listAddLast
    split
    · exact nodup
    · simp only [Function.update_self]
      rw [List.nodup_append]
      refine ⟨nodup, by simp, fun i inside j last => ?_⟩
      rw [List.mem_singleton.mp last]
      rintro rfl
      exact outside inside

theorem ready_listRemoveData (queue : q ≠ .ready) :
    (σ.listRemoveData q p).lists .ready = σ.lists .ready := by
  rw [lists_listRemoveData, if_neg queue.symm]

theorem behind_unblock (σ' : Sched) (queue : q ≠ .ready) (other : p ≠ i)
    (same : σ'.lists = (σ.listRemoveData q p).lists) :
    Behind i (σ.lists .ready) ((Sched.unblock p q σ').lists .ready) := by
  have ready : σ'.lists .ready = σ.lists .ready := by rw [same, ready_listRemoveData queue]
  unfold Sched.unblock
  split
  · rw [ready]
    exact behind_refl
  · rw [← ready]
    exact behind_setReady other

theorem behind_wake (free : i ∉ σ.lists .blockedOnProcess) {ppid exitCode : Nat} :
    Behind i (σ.lists .ready) ((σ.wakeUpParentProcess ppid exitCode).lists .ready) := by
  unfold Sched.wakeUpParentProcess
  split
  · exact behind_refl
  next parent found =>
    have inside := List.mem_of_find?_eq_some found
    have other : parent ≠ i := by
      rintro rfl
      exact free inside
    exact behind_unblock ((σ.listRemoveData .blockedOnProcess parent).setEax parent exitCode)
      (q := .blockedOnProcess) (by decide) other rfl

theorem behind_killed (nodup : (σ.lists .ready).Nodup) :
    Behind i (σ.lists .ready) ((Sched.killed p σ).lists .ready) := by
  obtain ⟨_, _, _, _, _, fields⟩ := killed_fields (σ := σ) (p := p)
  rw [fields]
  exact behind_erase nodup

theorem nodup_killed (nodup : (σ.lists .ready).Nodup) : ((Sched.killed p σ).lists .ready).Nodup := by
  obtain ⟨_, _, _, _, _, fields⟩ := killed_fields (σ := σ) (p := p)
  rw [fields]
  exact nodup.erase p

theorem behind_aborted (queued : Queued full out σ) (free : i ∉ σ.lists .blockedOnProcess) :
    Behind i (σ.lists .ready) ((Sched.aborted p σ).lists .ready) :=
  (behind_wake free).trans (behind_killed ((queued.wake _ _).nodup (by decide)))

theorem nodup_aborted (queued : Queued full out σ) : ((Sched.aborted p σ).lists .ready).Nodup :=
  nodup_killed ((queued.wake _ _).nodup (by decide))

/-- A system call of another process. -/
theorem behind_effect (queued : Queued full out σ) (caller : pcb ≠ i) (old : i < σ.created)
    (free : i ∉ σ.lists .blockedOnProcess) (effect : CallEffect pcb σ n σ') :
    Behind i (σ.lists .ready) (σ'.lists .ready) := by
  have child : σ.created ≠ i := Nat.ne_of_gt old
  cases effect with
  | answer answered _ _ =>
    rw [← answered.lists]
    exact behind_setReady caller
  | @exec _ _ _ σ0 σ1 ready _ made =>
    have first : Behind i (σ.lists .ready) (σ0.lists .ready) := by
      rw [ready]
      exact behind_setReady caller
    have number : σ0.created = σ.created := by
      rw [ready]
      exact moved_setReady.created
    have second : σ1.lists .ready = σ0.lists .ready := by
      rw [made]
      exact lists_withProcess (by decide)
    rw [← second] at first
    exact first.trans (behind_setReady (number ▸ child))
  | execFailed => exact behind_setReady caller
  | @fork _ _ σ1 _ made =>
    have first : σ1.lists .ready = σ.lists .ready := by
      rw [made]
      exact lists_withProcess (by decide)
    generalize copied : ((σ1.setRegs σ.created (forkRegs (σ.pcbs pcb).regs)).setEax pcb 1).setEax
      σ.created 0 = σ2
    have same : σ2.lists .ready = σ.lists .ready := by
      rw [← first, ← copied]
      rfl
    rw [← same]
    exact (behind_setReady caller).trans (behind_setReady child)
  | wait _ =>
    rw [Sched.blockProcessOnAnotherProcess, lists_listAddLast (by decide)]
    exact behind_refl
  | readLine =>
    rw [Sched.blockProcessOnKeyboard, lists_listAddFirst (by decide)]
    exact behind_refl
  | exit => exact (behind_wake free).trans (behind_killed ((queued.wake _ _).nodup (by decide)))
  | unknown _ => exact behind_killed (queued.nodup (by decide))

/-- What has been dispatched but for the idle process. -/
def dispatched (idle : Nat) (switches : List (Nat × Cpu)) : List Nat :=
  (switches.map Prod.fst).filter fun p => p ≠ idle

/-- The processes that are served while `i` waits. -/
def Served (i : Nat) (s s' : System) : Prop :=
  ∃ new, s'.switches = s.switches ++ new ∧
    (dispatched s.sched.idleProcess new ++ ahead i (s'.sched.lists .ready)).Sublist
      (ahead i (s.sched.lists .ready))

theorem served_silent {s s' : System} (silent : s'.switches = s.switches)
    (behind : Behind i (s.sched.lists .ready) (s'.sched.lists .ready))
    (inside : i ∈ s'.sched.lists .ready) : Served i s s' :=
  ⟨[], by rw [silent, List.append_nil], (behind inside).2⟩

theorem served_dispatch {s s' : System} (dispatch : Dispatches s σ s') (idle : σ.idleProcess = s.sched.idleProcess)
    (nodup : (σ.lists .ready).Nodup) (behind : Behind i (s.sched.lists .ready) (σ.lists .ready))
    (inside : i ∈ s'.sched.lists .ready) : Served i s s' := by
  refine ⟨_, dispatch.loaded, ?_⟩
  have next := (dispatched_switched (σ := σ)).next
  rw [← dispatch.sched] at next
  rcases next with ⟨_, _, none⟩ | ⟨skipped, ready, _, user⟩
  · rw [none] at inside
    exact absurd inside List.not_mem_nil
  · have before : i ∈ σ.lists .ready := by
      rw [ready]
      exact List.mem_append_right _ (List.mem_cons_of_mem _ inside)
    rw [ready] at nodup
    have served := served_ahead nodup inside
    rw [← ready] at served
    rw [idle] at user
    have only : dispatched s.sched.idleProcess [(s'.sched.runningProcess,
        switchTask (s'.sched.pcbs s'.sched.runningProcess).regs.words)] = [s'.sched.runningProcess] := by
      simp [dispatched, user]
    rw [only]
    exact served.trans (behind before).2

theorem served_step {s s' : System} {event : Event} (scheduled : Scheduled full s.sched)
    (happens : Happens s event) (user : i ≠ s.sched.idleProcess) (waits : i ∈ s.sched.lists .ready)
    (inside : i ∈ s'.sched.lists .ready) (step : Interrupted s event s') : Served i s s' := by
  obtain ⟨queued, alive, _, focus, idlePid⟩ := scheduled
  have running : s.sched.runningProcess ≠ i := by
    rintro rfl
    exact notListed (queued.gone _ List.mem_cons_self user) (by decide) waits
  have offProcess : i ∉ s.sched.lists .blockedOnProcess :=
    queued.elsewhere waits (by decide) (by decide) (by decide)
  have offKeyboard : i ∉ s.sched.lists .blockedOnKeyboard :=
    queued.elsewhere waits (by decide) (by decide) (by decide)
  have old := queued.created i (queued.alive _ i waits)
  cases step with
  | tick sched silent | dropped sched silent _ | shell sched silent _ | noTerminal sched silent =>
    apply served_silent silent.1 _ inside
    rw [sched]
    exact behind_refl
  | @timer cpu _ dispatch =>
    have saved := queued.same (sameLists_saved cpu 0x20)
    exact served_dispatch dispatch moved_setReady.idle (nodup_setReady (saved.nodup (by decide)))
      (behind_setReady running) inside
  | @systemCall cpu _ σ _ effect dispatch =>
    have saved := (queued.same (sameLists_saved cpu 0x80)).weaken
    have after := saved.effect alive happens (fun impossible => impossible.elim) effect
    have lasting := lasting_saved.trans (lasting_effect effect)
    have behind : Behind i ((Sched.saved cpu 0x80 s.sched).lists .ready) (σ.lists .ready) :=
      behind_effect saved running old offProcess effect
    exact served_dispatch dispatch lasting.idle (after.nodup (by decide)) behind inside
  | fault dispatch | pageFault _ _ dispatch =>
    exact served_dispatch dispatch lasting_aborted.idle (nodup_aborted queued)
      (behind_aborted queued offProcess) inside
  | @delivered line pcb _ first _ sched same _ =>
    apply served_silent same _ inside
    rw [sched]
    apply behind_unblock _ (by decide) _ rfl
    rintro rfl
    exact offKeyboard (List.mem_of_mem_head? first)
  | abort later dispatch =>
    apply served_dispatch dispatch lasting_preempted.idle _ _ inside
    · unfold Sched.preempted
      split
      · exact nodup_setReady (nodup_aborted queued)
      · exact nodup_aborted queued
    · unfold Sched.preempted
      split
      · exact (behind_aborted queued offProcess).trans (behind_setReady running)
      · exact behind_aborted queued offProcess
  | @terminal number _ room sched silent =>
    apply served_silent silent.1 _ inside
    rw [sched, focusedOn_fields room]
    exact behind_refl

/-- The process stays in the ready list: it is neither dispatched nor killed. -/
def Waits (i : Nat) (s : System) : System → Prop :=
  Run (fun t => t = s) Anyhow fun t e t' => Taken t e t' ∧ i ∈ t'.sched.lists .ready

theorem served_taken {s s' : System} {e : Nat × Event} (run : Run Started Anyhow Taken s)
    (user : i ≠ s.sched.idleProcess) (waits : i ∈ s.sched.lists .ready)
    (inside : i ∈ s'.sched.lists .ready) (taken : Taken s e s') :
    Served i s s' ∧ s'.sched.idleProcess = s.sched.idleProcess := by
  obtain ⟨⟨_, idle⟩, step⟩ := taken_interrupted taken
  have scheduled := scheduled_anyhow run idle
  have served := served_step (scheduled_withRoom e.1 scheduled) (happens_withRoom taken.1) user waits
    inside step
  exact ⟨served, (lasting_interrupted step).2.idle⟩

theorem waits_run {s s' : System} (run : Run Started Anyhow Taken s) (user : i ≠ s.sched.idleProcess)
    (waits : i ∈ s.sched.lists .ready) (waiting : Waits i s s') :
    Run Started Anyhow Taken s' ∧ i ∈ s'.sched.lists .ready ∧
      s'.sched.idleProcess = s.sched.idleProcess ∧ Served i s s' := by
  induction waiting with
  | init start =>
    subst start
    exact ⟨run, waits, rfl, [], by rw [List.append_nil], List.Sublist.refl _⟩
  | step _ _ next ih =>
    obtain ⟨run', waits', idle, new, switches, served⟩ := ih
    obtain ⟨taken, inside⟩ := next
    obtain ⟨⟨new', switches', served'⟩, idle'⟩ := served_taken run' (idle ▸ user) waits' inside taken
    refine ⟨.step run' trivial taken, inside, idle'.trans idle, new ++ new', ?_, ?_⟩
    · rw [switches', switches, List.append_assoc]
    · rw [idle] at served'
      have both := served_trans served served'
      unfold dispatched at both ⊢
      rwa [List.map_append, List.filter_append]

/-- Without an idle process there is no further interrupt. -/
theorem waits_dead {s s' : System} (dead : s.sched.idleProcess ∉ s.sched.lists .all)
    (waiting : Waits i s s') : s' = s := by
  induction waiting with
  | init start => exact start
  | step _ _ next ih =>
    subst ih
    exact absurd (taken_interrupted next.1).1.2 dead

end

end Delos.Invariants
