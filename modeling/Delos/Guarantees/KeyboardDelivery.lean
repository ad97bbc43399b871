import Delos.Guarantees.SchedulerPartition
import Delos.Invariants.KeyboardOrder

/-!
# The line goes to the terminal in focus

`wake_process_waiting_for_keyboard` looks at the first reader only. As long as no process reads in front
of a reader of the terminal in focus, the first reader is one of its own whenever there is one.
-/
namespace Delos.Guarantees
open Lib Source Invariants

/-- The part of a delivery that may stop the machine: the store to the buffer of the reader, and the print
to the file of its terminal. -/
def storeLine (pcb : Nat) (line : CString) : Handler Unit := do
  onFs (emit (.kprintf "\n\r"))
  let s ← getSched
  storeToUser (s.pcbs pcb).regs.edi (line.bytes.length + 2)
  modify fun s => { s with delivered := s.delivered ++ [(pcb, line)] }
  printToProcess pcb line true

/-- Enter gives the line to a reader of the terminal in focus, if there is one whose buffer is mapped,
and makes this reader ready. -/
def Delivers (s : System) : Prop :=
  ∀ room line, s.sched.runningProcess ∈ s.sched.lists .all → s.sched.idleProcess ∈ s.sched.lists .all →
    (∃ pcb ∈ s.sched.lists .blockedOnKeyboard, (s.sched.pcbs pcb).shellId = s.sched.focusedTerminal) →
      ∃ pcb ∈ s.sched.lists .blockedOnKeyboard, (s.sched.pcbs pcb).shellId = s.sched.focusedTerminal ∧
        Meets (fun e => storeLine pcb line (withRoom room s) = .error e) (interrupt room (.enter line true)) s
          fun _ s' => s'.delivered = s.delivered ++ [(pcb, line)] ∧ pcb ∈ s'.sched.lists .ready ∧
            pcb ∉ s'.sched.lists .blockedOnKeyboard

section
variable {s s' : System} {pcb : Nat} {line : CString}

theorem enter_first (first : (s.sched.lists .blockedOnKeyboard).head? = some pcb)
    (focused : (s.sched.pcbs pcb).shellId = s.sched.focusedTerminal) :
    enterHandler line true s = (storeLine pcb line >>= fun _ => onSched fun s =>
      Sched.unblock pcb .blockedOnKeyboard (s.listRemoveData .blockedOnKeyboard pcb)) s := by
  unfold enterHandler storeLine
  simp only [bind_assoc]
  refine bind_agree fun _ s1 run => ?_
  obtain rfl : { s with fs := { s.fs with screen := s.fs.screen ++ [.kprintf "\n\r"] } } = s1 := congrArg Prod.snd (Except.ok.inj run)
  unfold wakeProcessWaitingForKeyboard
  refine bind_agree fun σ s1 run => ?_
  obtain rfl : s.sched = σ := congrArg Prod.fst (Except.ok.inj run)
  simp only [first]
  rw [if_neg (not_not.mpr focused)]
  rfl

/-- With the order kept, the first reader is of the terminal in focus. -/
theorem first_focused (order : FocusedFirst s.sched)
    (waiting : ∃ pcb ∈ s.sched.lists .blockedOnKeyboard, (s.sched.pcbs pcb).shellId = s.sched.focusedTerminal) :
    ∃ pcb, (s.sched.lists .blockedOnKeyboard).head? = some pcb ∧ (s.sched.pcbs pcb).shellId = s.sched.focusedTerminal := by
  obtain ⟨reader, inside, focused⟩ := waiting
  obtain ⟨pcb, rest, list⟩ := List.exists_cons_of_ne_nil (List.ne_nil_of_mem inside)
  unfold FocusedFirst at order
  rw [list] at inside order ⊢
  refine ⟨pcb, rfl, ?_⟩
  rcases List.mem_cons.mp inside with rfl | behind
  · exact focused
  · exact (List.pairwise_cons.mp order).1 reader behind focused

/-- Nothing that the scheduler does stops the machine. -/
theorem stops_before {x : Handler Unit} {f : Sched → Sched} {e : Stop} (run : (x >>= fun _ => onSched f) s = .error e) : x s = .error e := by
  cases stored : x s with
  | error e' =>
    rw [run_stop stored] at run
    rw [Except.error.inj run]
  | ok result =>
    obtain ⟨_, s1⟩ := result
    rw [run_bind stored] at run
    cases run

theorem delivered_to (step : Interrupted s (.enter line true) s') (first : (s.sched.lists .blockedOnKeyboard).head? = some pcb)
    (focused : (s.sched.pcbs pcb).shellId = s.sched.focusedTerminal) :
    s'.sched = Sched.unblock pcb .blockedOnKeyboard (s.sched.listRemoveData .blockedOnKeyboard pcb) ∧
      s'.delivered = s.delivered ++ [(pcb, line)] := by
  cases step with
  | dropped _ _ nobody => exact absurd focused (nobody pcb first)
  | delivered first' _ sched _ line' =>
    obtain rfl : pcb = _ := Option.some.inj (first.symm.trans first')
    exact ⟨sched, line'⟩

theorem ready_of_delivered {full : Prop} (scheduled : Scheduled full s.sched) (inside : pcb ∈ s.sched.lists .blockedOnKeyboard)
    (sched : s'.sched = Sched.unblock pcb .blockedOnKeyboard (s.sched.listRemoveData .blockedOnKeyboard pcb)) :
    pcb ∈ s'.sched.lists .ready ∧ pcb ∉ s'.sched.lists .blockedOnKeyboard := by
  have room : 0 < (s.sched.listRemoveData .blockedOnKeyboard pcb).room := by
    rw [listRemoveData_mem inside]
    exact Nat.succ_pos _
  have queued := scheduled.queued
  constructor
  · rw [sched, (queued.unblock (by decide) (by decide) inside ⟨fun _ => .refl _, rfl, rfl, rfl, fun _ => rfl, fun _ => rfl⟩ room).2]
    unfold Sched.setProcessAsReady
    split
    · assumption
    · have room' : 0 < ((s.sched.listRemoveData .blockedOnKeyboard pcb).setState pcb .ready).room := room
      rw [listAddLast_room room']
      simp only [Function.update_self]
      exact List.mem_append_right _ List.mem_cons_self
  · rw [sched, lists_unblock (by decide), lists_listRemoveData, if_pos rfl]
    exact (queued.nodup (by decide)).not_mem_erase

theorem delivers_scheduled (order : FocusedFirst s.sched) (scheduled : s.sched.idleProcess ∈ s.sched.lists .all → Scheduled False s.sched) :
    Delivers s := by
  intro room line alive idle waiting
  obtain ⟨pcb, first, focused⟩ := first_focused order waiting
  have inside : pcb ∈ s.sched.lists .blockedOnKeyboard := List.mem_of_head? first
  refine ⟨pcb, inside, focused, ?_⟩
  have handled : interrupt room (.enter line true) s = enterHandler line true (withRoom room s) := by
    unfold interrupt
    refine (run_bind rfl).trans ?_
    rw [if_pos ⟨alive, idle⟩]
    rfl
  unfold Meets
  split
  next _ s' run =>
    obtain ⟨_, step⟩ := interrupt_run run
    obtain ⟨list, line'⟩ := delivered_to step first focused
    exact ⟨line', ready_of_delivered (scheduled_withRoom room (scheduled idle)) inside list⟩
  next e run =>
    rw [handled, enter_first (s := withRoom room s) first focused] at run
    exact stops_before run

theorem focusedFirst_run (run : Run Started ReadsInFront Taken s) : FocusedFirst s.sched := by
  induction run with
  | init started =>
    unfold FocusedFirst
    rw [(scheduled_start started).2.2 _ (by decide) (by decide)]
    exact List.Pairwise.nil
  | step before allowed taken ih =>
    have scheduled := scheduled_anyhow (before.weaken fun _ _ _ => trivial) (taken_interrupted taken).1.2
    exact focusedFirst_taken ih scheduled allowed taken

end

/-- A process of the terminal in focus waits for a line, and Enter delivers nothing. -/
def loses (s : System) : Bool :=
  decide (s.sched.runningProcess ∈ s.sched.lists .all ∧ s.sched.idleProcess ∈ s.sched.lists .all ∧
    ∃ pcb ∈ s.sched.lists .blockedOnKeyboard, (s.sched.pcbs pcb).shellId = s.sched.focusedTerminal) &&
    endsWith (fun s' : System => decide (s'.delivered = s.delivered)) (script [.enter ⟨[], plain_nil⟩ true] s)

end Delos.Guarantees
