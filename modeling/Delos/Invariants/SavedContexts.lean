import Delos.Invariants.BlockedProcesses

/-!
# The registers of the processes that do not run

`noteStop` remembers the interrupt that each process met last. From then on its PCB keeps the
registers of that moment, but for EAX, in which a system call or the end of a child leaves its result.
-/
namespace Delos.Invariants
open Lib Source

/-- The calls that put a result into EAX; the others are printf, read_line, free, ls, ps, lp and clear. -/
def HasResult (number : Nat) : Prop := number ∉ [101, 102, 104, 114, 118, 119, 122]

instance (number : Nat) : Decidable (HasResult number) := inferInstanceAs (Decidable (¬ _))

/-- The registers that a process goes on with are those that it was interrupted with. -/
def Resumes : Event → Cpu → Prop
  | .timer cpu, loaded | .abort cpu, loaded => loaded = cpu
  | .systemCall cpu _, loaded => loaded = { cpu with eax := loaded.eax } ∧ (¬ HasResult cpu.eax → loaded.eax = cpu.eax)
  | _, _ => True

/-- The interrupt that each process was interrupted by last. -/
def noteStop (s : System) (event : Event) (stopped : Nat → Option Event) : Nat → Option Event :=
  match event with
  | .timer _ | .systemCall _ _ | .abort _ => Function.update stopped s.sched.runningProcess (some event)
  | _ => stopped

/-- The process on the CPU is not put aside without its registers having been saved: CTRL+C kills it, or nobody. -/
def SavesFirst (s : System) (e : Nat × Event) : Prop :=
  match e.2 with
  | .abort _ => (s.sched.pcbs s.sched.getLatestRunningNonIdleProcess).pid ∈ [0, 1, 2, 3, 4] ∨
      s.sched.getLatestRunningNonIdleProcess = s.sched.runningProcess
  | _ => True

section
variable {s s' : System} {σ σ' : Sched} {event : Event} {stopped : Nat → Option Event} {p pcb n : Nat} {strict : Prop} {loaded : Cpu}

/-! ## Calls without a result -/

theorem plain_regs {user : UserSpace} (plain : ¬ HasResult n) :
    Finishes (sysCall user pcb n) s fun _ s' => ∀ i, (s'.sched.pcbs i).regs = (s.sched.pcbs i).regs := by
  have ready : ∀ s1 : System, s1.sched = s.sched → Finishes (setReady pcb) s1 fun _ s' => ∀ i, (s'.sched.pcbs i).regs = (s.sched.pcbs i).regs := by
    intro s1 same
    refine meets_run rfl fun i => ?_
    rw [← same]
    exact regs_setReady
  have screen : ∀ x : Kernel Unit, Finishes (onFs x >>= fun _ => setReady pcb) s fun _ s' => ∀ i, (s'.sched.pcbs i).regs = (s.sched.pcbs i).regs :=
    fun x => finishes_fs fun _ fs => ready _ rfl
  have numbers : n ∈ [101, 102, 104, 114, 118, 119, 122] := not_not.mp plain
  simp only [List.mem_cons, List.not_mem_nil, or_false] at numbers
  rcases numbers with rfl | rfl | rfl | rfl | rfl | rfl | rfl
  · refine (meets_next rfl).mpr ((meets_next rfl).mpr ?_)
    split
    · refine finishes_fs fun _ fs => meets_bind.mpr ((meets_next rfl).mpr ?_)
      exact finishes_fs_last fun _ fs => ready _ rfl
    · refine meets_bind.mpr ((meets_next rfl).mpr ?_)
      exact finishes_fs_last fun _ fs => ready _ rfl
  · exact meets_run rfl fun i => regs_listAddFirst.trans (pcbs_setPcb Pcb.regs fun _ => rfl)
  · exact ready s rfl
  · exact screen _
  · exact (meets_next rfl).mpr (screen _)
  · exact screen _
  · exact screen _

/-- The registers that a plain call finds are the ones that were saved. -/
theorem plainHandler_regs {cpu : Cpu} {user : UserSpace} (plain : ¬ HasResult cpu.eax) :
    Finishes (systemCallHandler cpu user) s fun _ s' =>
      ∀ i, (s'.sched.pcbs i).regs = ((Sched.saved cpu 0x80 s.sched).pcbs i).regs := by
  refine (meets_next rfl).mpr ?_
  have number : ((Sched.saved cpu 0x80 s.sched).pcbs s.sched.runningProcess).regs.eax = cpu.eax := by
    rw [saved_regs, Function.update_self]
  have answered : Finishes (sysCallback user) { s with sched := Sched.saved cpu 0x80 s.sched } fun _ s1 =>
      ∀ i, (s1.sched.pcbs i).regs = ((Sched.saved cpu 0x80 s.sched).pcbs i).regs := by
    refine (meets_next rfl).mpr (plain_regs (s := { s with sched := Sched.saved cpu 0x80 s.sched }) ?_)
    exact number.symm ▸ plain
  refine meets_call answered fun _ s1 same => meets_mono switchToNextProcess_finishes fun _ s' dispatch i => ?_
  rw [dispatch.sched, regs_switched]
  exact same i

/-! ## What is remembered -/

/-- Its PCB holds what the process goes on with. -/
def Resumable (stopped : Nat → Option Event) (σ : Sched) (p : Nat) : Prop :=
  ∀ event, stopped p = some event → Resumes event (switchTask (σ.pcbs p).regs.words)

/-- Every process that does not run can go on; the ones that wait for another get a result. -/
structure Remembered (stopped : Nat → Option Event) (σ : Sched) : Prop where
  resumable : ∀ p ∈ σ.lists .all, p ≠ σ.runningProcess → Resumable stopped σ p
  waits : ∀ p ∈ σ.lists .blockedOnProcess, ∃ cpu user, stopped p = some (.systemCall cpu user) ∧ HasResult cpu.eax
  old : ∀ p event, stopped p = some event → p < σ.created

theorem resumes_eax {regs : Regs} (eax : Nat) (resumes : Resumes event (switchTask regs.words))
    (result : (∃ cpu user, event = .systemCall cpu user ∧ HasResult cpu.eax) ∨ eax = regs.eax) :
    Resumes event (switchTask { regs with eax := eax }.words) := by
  rcases result with ⟨cpu, user, rfl, some⟩ | rfl
  · refine ⟨?_, fun none => absurd some none⟩
    have before := resumes.1
    simp only [switchTask, iret, Regs.words, Cpu.mk.injEq] at before ⊢
    exact ⟨trivial, before.2⟩
  · exact resumes

/-- A process that is neither on the CPU nor answered has the registers it had. -/
theorem Resumable.kept (resumable : Resumable stopped σ p) (kept : RegsKept (p ∉ σ.lists .blockedOnProcess) p σ σ')
    (waits : p ∈ σ.lists .blockedOnProcess → ∃ cpu user, stopped p = some (.systemCall cpu user) ∧ HasResult cpu.eax) :
    Resumable stopped σ' p := by
  intro event last
  obtain ⟨eax, regs, same⟩ := kept
  rw [regs]
  refine resumes_eax eax (resumable event last) ?_
  by_cases blocked : p ∈ σ.lists .blockedOnProcess
  · obtain ⟨cpu, user, call, some⟩ := waits blocked
    exact .inl ⟨cpu, user, Option.some.inj (last.symm.trans call), some⟩
  · exact .inr (same blocked)

end

end Delos.Invariants
