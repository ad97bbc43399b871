import Delos.Lib.Runs
import Delos.Invariants.FileSystemRuns
import Delos.Invariants.ProcessIds

/-!
# The ids of the live processes

`create_process` compares a counter with the number of ids, and nothing ever changes
that counter. While fewer than 256 processes are alive every one of them has an id of
its own; the next one is created as well and gets `UINT_MAX`.
-/
namespace Delos.Guarantees
open Lib Source Invariants

/-- The two calls, on a machine that does not run out of page frames. -/
inductive ProcessCall where
  | create (filename : CString) (ppid : Nat) (stdout : CString) (shellId entry cr3 : Nat)
  | kill (pcb : Nat)

namespace ProcessCall

def run : ProcessCall → Handler (Option Nat)
  | create filename ppid stdout shellId entry cr3 =>
    createProcessUnless (fun _ => false) filename ppid stdout shellId entry cr3
  | kill pcb => do
    killProcess pcb
    pure none

/-- A new process finds memory for its list node, and only a live one is killed. -/
def Valid (s : System) : ProcessCall → Prop
  | create _ _ _ _ _ _ => 0 < s.sched.room
  | kill pcb => pcb ∈ s.sched.lists .all

/-- There are less processes than ids when another one is created. -/
def WithinLimit (s : System) : ProcessCall → Prop
  | create filename _ _ _ _ _ => getProgram filename = none ∨
      (s.sched.lists .all).length < maxNumberOfProcesses
  | kill _ => True

end ProcessCall

/-- The state behind `init_processes`. -/
structure NoProcesses (s : System) : Prop where
  created : s.sched.created = 0
  pids : ∀ pid, s.sched.pids pid = false
  lists : ∀ list, s.sched.lists list = []

def Called (s : System) (call : ProcessCall) (s' : System) : Prop :=
  call.Valid s ∧ ∃ result, call.run s = .ok (result, s')

structure PidsInStep (σ : Sched) : Prop where
  few : (σ.lists .all).length ≤ maxNumberOfProcesses
  bounded : ∀ i ∈ σ.lists .all, (σ.pcbs i).pid < maxNumberOfProcesses
  distinct : ∀ i ∈ σ.lists .all, ∀ j ∈ σ.lists .all, (σ.pcbs i).pid = (σ.pcbs j).pid → i = j
  used : ∀ pid < maxNumberOfProcesses,
    σ.pids pid = true ↔ ∃ i ∈ σ.lists .all, (σ.pcbs i).pid = pid

section
variable {s s' : System} {filename stdout : CString} {ppid shellId entry cr3 pcb : Nat}

theorem pidsInStep_numbered {σ : Sched} (numbered : Numbered σ)
    (few : (σ.lists .all).length ≤ maxNumberOfProcesses) : PidsInStep σ := by
  constructor
  · exact few
  · exact fun i inside => (numbered.taken i inside).1
  · exact numbered.distinct
  · intro pid small
    constructor
    · exact numbered.held pid small
    · rintro ⟨i, inside, rfl⟩
      exact (numbered.taken i inside).2

theorem create_unknown (unknown : getProgram filename = none) :
    (ProcessCall.create filename ppid stdout shellId entry cr3).run s = .ok (none, s) := by
  simp only [ProcessCall.run, createProcessUnless]
  rw [if_neg (by decide), unknown]
  rfl

theorem create_known (known : getProgram filename ≠ none) :
    (ProcessCall.create filename ppid stdout shellId entry cr3).run s = .ok (some s.sched.created,
      { s with sched := Sched.withProcess filename ppid stdout shellId entry cr3 s.sched }) := by
  simp only [ProcessCall.run, createProcessUnless]
  rw [if_neg (by decide)]
  cases found : getProgram filename with
  | none => exact absurd found known
  | some program => rfl

theorem length_withProcess (room : 0 < s.sched.room) :
    ((Sched.withProcess filename ppid stdout shellId entry cr3 s.sched).lists .all).length =
      (s.sched.lists .all).length + 1 := by
  obtain ⟨_, _, _, added, fields⟩ := withProcess_fields filename ppid stdout shellId entry cr3 s.sched
  rw [fields]
  simp only [Function.update_self]
  rw [(added.resolve_left fun none => Nat.ne_of_gt room none.1).2, List.length_append]
  rfl

theorem killed_run {result : Option Nat} (run : (ProcessCall.kill pcb).run s = .ok (result, s')) :
    s'.sched = Sched.killed pcb s.sched := by
  have ends : Finishes (ProcessCall.kill pcb).run s fun _ s' => s'.sched = Sched.killed pcb s.sched := by
    apply meets_call killProcess_finishes
    rintro _ s1 ⟨sched, _⟩
    exact meets_pure.mpr sched
  have result := meets_result ends run
  exact result

/-- One call that is within the limit. -/
theorem numbered_called {call : ProcessCall} (numbered : Numbered s.sched)
    (few : (s.sched.lists .all).length ≤ maxNumberOfProcesses) (within : call.WithinLimit s)
    (called : Called s call s') :
    Numbered s'.sched ∧ (s'.sched.lists .all).length ≤ maxNumberOfProcesses := by
  obtain ⟨valid, result, run⟩ := called
  cases call with
  | create filename ppid stdout shellId entry cr3 =>
    by_cases known : getProgram filename = none
    · rw [create_unknown known] at run
      cases run
      exact ⟨numbered, few⟩
    · have less := within.resolve_left known
      rw [create_known known] at run
      cases run
      constructor
      · exact numbered.withProcess _ _ _ _ _ _ valid less
      · rw [length_withProcess valid]
        exact less
  | kill pcb =>
    rw [killed_run run]
    constructor
    · exact numbered.killed valid
    · rw [lists_killed]
      exact Nat.le_trans (List.length_erase_le) few

theorem numbered_run (run : Run NoProcesses (fun s call => call.WithinLimit s) Called s) :
    Numbered s.sched ∧ (s.sched.lists .all).length ≤ maxNumberOfProcesses := by
  apply run.invariant
  · intro s none
    have all := none.lists .all
    refine ⟨?_, by rw [all]; exact Nat.zero_le _⟩
    constructor <;> simp [all, none.pids]
  · rintro s call s' ⟨numbered, few⟩ within called
    exact numbered_called numbered few within called

theorem live_pids (run : Run NoProcesses (fun s call => call.WithinLimit s) Called s) :
    PidsInStep s.sched ∧
      ∀ call s', Called s call s' → (PidsInStep s'.sched ↔ call.WithinLimit s) := by
  obtain ⟨numbered, few⟩ := numbered_run run
  refine ⟨pidsInStep_numbered numbered few, fun call s' called => ?_⟩
  constructor
  · intro kept
    obtain ⟨valid, result, step⟩ := called
    cases call with
    | create filename ppid stdout shellId entry cr3 =>
      by_cases known : getProgram filename = none
      · exact .inl known
      · rw [create_known known] at step
        cases step
        have more := kept.few
        rw [length_withProcess valid] at more
        exact .inr more
    | kill pcb => trivial
  · intro within
    obtain ⟨numbered', few'⟩ := numbered_called numbered few within called
    exact pidsInStep_numbered numbered' few'

end

/-! ## Runs -/

/-- No process yet, and memory for many nodes. -/
def emptySystem : System where
  fs := clearBoot
  sched :=
    { pcbs := fun _ => ⟨0, 0, ⟨0, 0, 0, 0, 0, 0, 0, 0, 0, 0, 0⟩, idleExe, idleExe, .new, 0, []⟩
      created := 0, pids := fun _ => false, lists := fun _ => [], runningProcess := 0
      idleProcess := 0, latestRunning := fun _ => 0, focusedTerminal := 0, room := 1000 }
  lastExitCode := 0
  ticks := 0
  switches := []
  delivered := []

theorem noProcesses_empty : NoProcesses emptySystem := ⟨rfl, fun _ => rfl, fun _ => rfl⟩

def createIdle : ProcessCall := .create idleExe 0 idleExe 0 userStart 0

theorem idle_known : getProgram idleExe ≠ none := by decide

/-- As many processes as wanted. -/
theorem many_processes (n : Nat) (few : n ≤ 1000) : ∃ s, Run NoProcesses (fun _ _ => True) Called s ∧
    (s.sched.lists .all).length = n ∧ s.sched.room + n = 1000 := by
  induction n with
  | zero => exact ⟨emptySystem, .init noProcesses_empty, rfl, rfl⟩
  | succ n ih =>
    obtain ⟨s, run, length, room⟩ := ih (Nat.le_of_succ_le few)
    have valid : 0 < s.sched.room := by omega
    refine ⟨_, .step (e := createIdle) run trivial ⟨valid, _, create_known idle_known⟩, ?_, ?_⟩
    · rw [← length]
      exact length_withProcess valid
    · have left : (Sched.withProcess idleExe 0 idleExe 0 userStart 0 s.sched).room =
          s.sched.room - 1 := withProcess_room _ _ _ _ _ _
      show (Sched.withProcess idleExe 0 idleExe 0 userStart 0 s.sched).room + (n + 1) = 1000
      omega

/-- The processes are not refused when there are too many of them. -/
theorem live_pids_limit : ¬ ∀ s, Run NoProcesses (fun _ _ => True) Called s → PidsInStep s.sched ∧
    ∀ filename ppid stdout shellId entry cr3, (s.sched.lists .all).length = maxNumberOfProcesses →
      (ProcessCall.create filename ppid stdout shellId entry cr3).run s = .ok (none, s) := by
  intro claim
  obtain ⟨s, run, length, _⟩ := many_processes 257 (by decide)
  have few := (claim s run).1.few
  rw [length] at few
  exact absurd few (by decide)

/-- One process. -/
theorem live_pids_first : ∃ s : System, (s.sched.lists .all).length = 1 ∧ PidsInStep s.sched := by
  have step : Called emptySystem createIdle _ := ⟨(by decide : 0 < 1000), _, create_known idle_known⟩
  have within : createIdle.WithinLimit emptySystem := .inr (by decide)
  exact ⟨_, length_withProcess (s := emptySystem) (by decide),
    (live_pids (.step (.init noProcesses_empty) within step)).1⟩

end Delos.Guarantees
