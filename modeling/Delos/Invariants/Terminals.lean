import Delos.Invariants.Population

/-!
# The shell of a terminal

At the start the pid of each shell is the number of its terminal. Pids are used again:
the shell of a terminal can only be found by this pid as long as no shell ends before
the other processes of its terminal.
-/
namespace Delos.Invariants
open Lib Source

/-- Every process has a shell: a process of its terminal whose pid is the number of the terminal. -/
structure Terminals (σ : Sched) : Prop where
  taken : ∀ i ∈ σ.lists .all, (σ.pcbs i).pid < maxNumberOfProcesses → σ.pids (σ.pcbs i).pid = true
  distinct : ∀ i ∈ σ.lists .all, ∀ j ∈ σ.lists .all, (σ.pcbs i).pid = (σ.pcbs j).pid →
    (σ.pcbs i).pid < maxNumberOfProcesses → i = j
  shell : ∀ i ∈ σ.lists .all, i ≠ σ.idleProcess → ∃ j ∈ σ.lists .all, j ≠ σ.idleProcess ∧
    (σ.pcbs j).pid = (σ.pcbs i).shellId ∧ (σ.pcbs j).shellId = (σ.pcbs i).shellId
  stdout : ∀ i ∈ σ.lists .all, ∀ j ∈ σ.lists .all, i ≠ σ.idleProcess → j ≠ σ.idleProcess →
    (σ.pcbs i).shellId = (σ.pcbs j).shellId → (σ.pcbs i).stdout = (σ.pcbs j).stdout

/-- The process ends at this interrupt. -/
def EndsAt (s : System) (event : Event) (p : Nat) : Prop :=
  (∃ code, Terminates s event p code) ∨ p = s.sched.runningProcess ∧ UnknownCall event

/-- A shell only ends when it is the last process of its terminal. -/
def ShellsLast (s : System) (e : Nat × Event) : Prop :=
  ∀ p, EndsAt s e.2 p → (s.sched.pcbs p).pid = (s.sched.pcbs p).shellId →
    ∀ q ∈ s.sched.lists .all, (s.sched.pcbs q).shellId = (s.sched.pcbs p).shellId → q = p

section Steps
variable {σ σ' : Sched} {p parent : Nat}

theorem Terminals.same (terminals : Terminals σ) (same : SamePopulation σ σ') :
    Terminals σ' := by
  have pid : ∀ i, (σ'.pcbs i).pid = (σ.pcbs i).pid := fun i => (same.identity i).pid
  have terminal : ∀ i, (σ'.pcbs i).shellId = (σ.pcbs i).shellId := fun i => (same.identity i).terminal
  have stdout : ∀ i, (σ'.pcbs i).stdout = (σ.pcbs i).stdout := fun i => (same.identity i).stdout
  constructor
  · simp only [same.all, same.pids, pid]
    exact terminals.taken
  · simp only [same.all, pid]
    exact terminals.distinct
  · simp only [same.all, same.idle, pid, terminal]
    exact terminals.shell
  · simp only [same.all, same.idle, terminal, stdout]
    exact terminals.stdout

theorem Terminals.born (terminals : Terminals σ) (born : Born parent σ σ')
    (alive : parent ∈ σ.lists .all) (user : parent ≠ σ.idleProcess)
    (old : ∀ i ∈ σ.lists .all, i < σ.created) : Terminals σ' := by
  obtain ⟨all, _, idle, unused, pids, terminal, stdout, identity⟩ := born
  have same : ∀ i ∈ σ.lists .all, SameIdentity (σ.pcbs i) (σ'.pcbs i) :=
    fun i inside => identity i (Nat.ne_of_lt (old i inside))
  have stays : ∀ i ∈ σ.lists .all, i ∈ σ'.lists .all := by
    intro i inside
    rcases all with all | all <;> rw [all]
    · exact inside
    · exact List.mem_append_left _ inside
  have members : ∀ i ∈ σ'.lists .all, i ∈ σ.lists .all ∨ i = σ.created := by
    intro i inside
    rcases all with all | all <;> rw [all] at inside
    · exact .inl inside
    · simpa using inside
  have apart : ∀ i ∈ σ.lists .all, (σ'.pcbs i).pid = (σ'.pcbs σ.created).pid →
      ¬ (σ'.pcbs i).pid < maxNumberOfProcesses := by
    intro i inside equal small
    have taken := terminals.taken i inside ((same i inside).pid ▸ small)
    rw [equal] at small
    rw [← (same i inside).pid, equal, unused small] at taken
    cases taken
  constructor
  · intro i inside small
    rw [pids _ small]
    rcases members i inside with inside | rfl
    · left
      rw [(same i inside).pid] at small ⊢
      exact terminals.taken i inside small
    · exact .inr rfl
  · intro i inside j inside' equal small
    rcases members i inside with inside | rfl
    · rcases members j inside' with inside' | rfl
      · rw [(same i inside).pid] at equal small
        rw [(same j inside').pid] at equal
        exact terminals.distinct i inside j inside' equal small
      · exact absurd small (apart i inside equal)
    · rcases members j inside' with inside' | rfl
      · exact absurd (equal ▸ small) (apart j inside' equal.symm)
      · rfl
  · intro i inside other
    have shell : ∀ k ∈ σ.lists .all, k ≠ σ.idleProcess → ∃ j ∈ σ'.lists .all, j ≠ σ'.idleProcess ∧
        (σ'.pcbs j).pid = (σ.pcbs k).shellId ∧ (σ'.pcbs j).shellId = (σ.pcbs k).shellId := by
      intro k here user
      obtain ⟨j, live, user', pid, terminal⟩ := terminals.shell k here user
      exact ⟨j, stays j live, idle ▸ user', (same j live).pid.trans pid, (same j live).terminal.trans terminal⟩
    rcases members i inside with inside | rfl
    · rw [(same i inside).terminal]
      exact shell i inside (idle ▸ other)
    · rw [terminal]
      exact shell parent alive user
  · -- a child stands for its parent
    have stand : ∀ i ∈ σ'.lists .all, i ≠ σ'.idleProcess → ∃ k ∈ σ.lists .all, k ≠ σ.idleProcess ∧
        (σ'.pcbs i).shellId = (σ.pcbs k).shellId ∧ (σ'.pcbs i).stdout = (σ.pcbs k).stdout := by
      intro i inside other
      rcases members i inside with inside | rfl
      · exact ⟨i, inside, idle ▸ other, (same i inside).terminal, (same i inside).stdout⟩
      · exact ⟨parent, alive, user, terminal, stdout⟩
    intro i inside j inside' other other' equal
    obtain ⟨k, live, user, terminal, stdout⟩ := stand i inside other
    obtain ⟨l, live', user', terminal', stdout'⟩ := stand j inside' other'
    rw [stdout, stdout']
    rw [terminal, terminal'] at equal
    exact terminals.stdout k live l live' user user' equal

/-- If the process is a shell then no other process of its terminal is left. -/
theorem Terminals.died (terminals : Terminals σ) (died : Died p σ σ')
    (alive : p ∈ σ.lists .all) (unique : (σ.lists .all).Nodup)
    (last : (σ.pcbs p).pid = (σ.pcbs p).shellId →
      ∀ q ∈ σ.lists .all, (σ.pcbs q).shellId = (σ.pcbs p).shellId → q = p) : Terminals σ' := by
  obtain ⟨all, _, idle, pids, identity⟩ := died
  have members : ∀ i, i ∈ σ'.lists .all ↔ i ≠ p ∧ i ∈ σ.lists .all := by
    intro i
    rw [all]
    exact unique.mem_erase_iff
  have pid : ∀ i, (σ'.pcbs i).pid = (σ.pcbs i).pid := fun i => (identity i).pid
  have terminal : ∀ i, (σ'.pcbs i).shellId = (σ.pcbs i).shellId := fun i => (identity i).terminal
  have stdout : ∀ i, (σ'.pcbs i).stdout = (σ.pcbs i).stdout := fun i => (identity i).stdout
  simp only [← pid, ← terminal] at last
  constructor
  · intro i inside small
    obtain ⟨other, inside⟩ := (members i).mp inside
    rw [pid] at small ⊢
    have differs : (σ.pcbs i).pid ≠ (σ.pcbs p).pid :=
      fun equal => other (terminals.distinct i inside p alive equal small)
    rw [pids, Function.update_of_ne differs]
    exact terminals.taken i inside small
  · intro i inside j inside' equal small
    rw [pid, pid] at equal
    rw [pid] at small
    exact terminals.distinct i ((members i).mp inside).2 j ((members j).mp inside').2 equal small
  · intro i inside user
    obtain ⟨other, inside⟩ := (members i).mp inside
    obtain ⟨j, live, user', own, same⟩ := terminals.shell i inside (idle ▸ user)
    rw [← pid, ← terminal] at own
    rw [← terminal, ← terminal i] at same
    refine ⟨j, (members j).mpr ⟨?_, live⟩, idle ▸ user', own, same⟩
    rintro rfl
    exact other (last (own.trans same.symm) i inside same.symm)
  · intro i inside j inside' user user' equal
    rw [terminal, terminal] at equal
    rw [stdout, stdout]
    exact terminals.stdout i ((members i).mp inside).2 j ((members j).mp inside').2 (idle ▸ user) (idle ▸ user') equal

end Steps

/-! ## The start -/

/-- Behind the creation of `k` processes. -/
structure Booted (k : Nat) (σ : Sched) : Prop where
  pids : ∀ pid, σ.pids pid = decide (pid < k)
  old : ∀ i ∈ σ.lists .all, i < σ.created
  own : ∀ i ∈ σ.lists .all, (σ.pcbs i).pid = (σ.pcbs i).shellId

section Boot
variable {σ σ' : Sched} {k : Nat} {s : System} {loader : Loader}

theorem allocatePid_next (pids : ∀ pid, σ.pids pid = decide (pid < k)) (few : k < maxNumberOfProcesses) :
    allocatePid σ = (k, { σ with pids := Function.update σ.pids k true }) := by
  have found : (List.range maxNumberOfProcesses).find? (fun i => σ.pids i = false) = some k := by
    rw [List.find?_range_eq_some]
    simp only [pids]
    refine ⟨by simp, List.mem_range.mpr few, fun j before => ?_⟩
    simp [before]
  rw [allocatePid, found]

theorem Booted.same (booted : Booted k σ) (same : SamePopulation σ σ') : Booted k σ' := by
  constructor
  · rw [same.pids]
    exact booted.pids
  · rw [same.all, same.created]
    exact booted.old
  · intro i inside
    rw [same.all] at inside
    rw [(same.identity i).pid, (same.identity i).terminal]
    exact booted.own i inside

/-- The first process gets the pid 0, the shell of terminal 1 the pid 1, and so on. -/
theorem Booted.withProcess (booted : Booted k σ) (few : k < maxNumberOfProcesses) (filename stdout : CString)
    (ppid entry cr3 : Nat) : Booted (k + 1) (Sched.withProcess filename ppid stdout k entry cr3 σ) := by
  obtain ⟨pcb, all, new, added, fields⟩ := withProcess_fields filename ppid stdout k entry cr3 σ
  have own : pcb.pid = pcb.shellId := by rw [new.pid, new.terminal, allocatePid_next booted.pids few]
  have members : ∀ i ∈ all, i ∈ σ.lists .all ∨ i = σ.created := by
    intro i inside
    rcases added with ⟨_, rfl⟩ | ⟨_, rfl⟩
    · exact .inl inside
    · simpa using inside
  rw [fields, allocatePid_next booted.pids few]
  constructor
  · intro pid
    by_cases here : pid = k
    · simp [here]
    · simp only [Function.update_of_ne here, booted.pids pid]
      rw [decide_eq_decide]
      omega
  · simp only [Function.update_self]
    intro i inside
    rcases members i inside with before | rfl
    · exact Nat.lt_succ_of_lt (booted.old i before)
    · exact Nat.lt_succ_self _
  · simp only [Function.update_self]
    intro i inside
    rcases members i inside with before | rfl
    · have other : i ≠ σ.created := Nat.ne_of_lt (booted.old i before)
      rw [Function.update_of_ne other]
      exact booted.own i before
    · rw [Function.update_self]
      exact own

-- the comparison of two large numbers would otherwise be unfolded
attribute [local irreducible] framesTakenUp

theorem createShell_booted {i : Fin 4} (booted : Booted (i + 1) s.sched) :
    Finishes (createShell loader i) s fun _ s' => Booted (i + 2) s'.sched := by
  unfold createShell
  apply finishes_fs
  intro _ fs
  apply finishes_fs
  intro _ fs
  simp only
  apply createProcess_finishes
  · exact finishes_throw
  · intro _
    refine (meets_next rfl).mpr (meets_pure.mpr ?_)
    have few : (i : Nat) + 1 < maxNumberOfProcesses := by
      unfold maxNumberOfProcesses
      omega
    have made := booted.withProcess few shellExe (shellStdout i) 0 (loader (i + 1)).1 (loader (i + 1)).2
    exact ⟨made.pids, made.old, made.own⟩

theorem readyShell_booted {β : Type} {i : Fin 4} {f : Unit → Handler β} {post : β → System → Prop}
    (booted : Booted (i + 1) s.sched) (rest : ∀ s', Booted (i + 2) s'.sched → Finishes (f ()) s' post) :
    Finishes (createShell loader i >>= fun q => setReady q >>= f) s post := by
  apply meets_call (createShell_booted booted)
  intro q s1 booted1
  exact (meets_next rfl).mpr (rest _ (booted1.same (samePopulation_moved moved_setReady)))

theorem createShells_booted (booted : Booted 1 s.sched) :
    Finishes (createShells loader) s fun _ s' => Booted 5 s'.sched := by
  unfold createShells
  apply meets_call (createShell_booted (i := 0) booted)
  intro first s1 booted1
  apply readyShell_booted (i := 1) booted1
  intro s2 booted2
  apply readyShell_booted (i := 2) booted2
  intro s3 booted3
  apply readyShell_booted (i := 3) booted3
  intro s4 booted4
  exact meets_run rfl (booted4.same (samePopulation_moved moved_setReady))

theorem startProcesses_booted (fresh : Fresh s) :
    Finishes (startProcesses loader) s fun _ s' => Booted 5 s'.sched := by
  have empty : Booted 0 s.sched := by
    constructor
    · simpa using fresh.pids
    · simp [fresh.lists .all]
    · simp [fresh.lists .all]
  have initialised : Finishes (initProcessScheduler loader) s fun _ s' => Booted 5 s'.sched := by
    unfold initProcessScheduler
    simp only
    apply createProcess_finishes
    · exact finishes_throw
    · intro _
      have idle := (empty.withProcess (by decide) idleExe ⟨[], plain_nil⟩ 0 (loader 0).1 (loader 0).2).same
        (samePopulation_moved (@moved_setState _ s.sched.created .waiting))
      refine (meets_next rfl).mpr ?_
      apply meets_call (createShells_booted ⟨idle.pids, idle.old, idle.own⟩)
      intro _ s1 shells
      refine (meets_next rfl).mpr ?_
      apply finishes_fs
      intro _ fs
      apply finishes_fs
      intro _ fs
      apply finishes_fs_last
      intro _ fs
      exact ⟨shells.pids, shells.old, shells.own⟩
  unfold startProcesses
  apply meets_call initialised
  intro _ s1 booted
  apply meets_mono switchToNextProcess_finishes
  intro _ s' dispatch
  rw [dispatch.sched]
  exact booted.same samePopulation_switched

/-- Every process is the shell of its terminal. -/
theorem terminals_booted (booted : Booted k σ) (numbered : Numbered σ) : Terminals σ := by
  constructor
  · exact fun i inside _ => (numbered.taken i inside).2
  · exact fun i inside j inside' equal _ => numbered.distinct i inside j inside' equal
  · exact fun i inside user => ⟨i, inside, user, booted.own i inside, rfl⟩
  · intro i inside j inside' _ _ equal
    rw [← booted.own i inside, ← booted.own j inside'] at equal
    rw [numbered.distinct i inside j inside' equal]

end Boot

section Runs
variable {s s' : System} {event : Event} {full : Prop}

theorem endsAt_withRoom {room p : Nat} (ends : EndsAt (withRoom room s) event p) : EndsAt s event p := by
  rcases ends with ⟨code, terminates⟩ | unknown
  · exact .inl ⟨code, terminates_withRoom.mp terminates⟩
  · exact .inr unknown

theorem Terminals.step (terminals : Terminals s.sched) (scheduled : Scheduled full s.sched)
    (happens : Happens s event) (step : Interrupted s event s')
    (last : ∀ p, EndsAt s event p → (s.sched.pcbs p).pid = (s.sched.pcbs p).shellId →
      ∀ q ∈ s.sched.lists .all, (s.sched.pcbs q).shellId = (s.sched.pcbs p).shellId → q = p) :
    Terminals s'.sched := by
  cases population_interrupted scheduled happens step with
  | same same => exact terminals.same same
  | born user born => exact terminals.born born scheduled.alive user scheduled.queued.created
  | died p alive died =>
    have dead : p ∉ s'.sched.lists .all := by
      rw [died.all]
      exact scheduled.queued.unique.not_mem_erase
    exact terminals.died died alive scheduled.queued.unique (last p (killed_by scheduled step alive dead))

-- the start would otherwise be run
attribute [local irreducible] startProcesses

theorem terminals_start (started : Started s) : Terminals s.sched ∧ (s.sched.pcbs s.sched.idleProcess).shellId = 0 := by
  obtain ⟨scheduled, numbered, _⟩ := scheduled_start started
  obtain ⟨_, _, fresh, run⟩ := started
  have booted : Booted 5 s.sched := by
    have result := meets_result (startProcesses_booted fresh) run
    exact result
  refine ⟨terminals_booted booted numbered, ?_⟩
  rw [← booted.own _ scheduled.queued.idle]
  exact scheduled.idlePid

/-- What holds in every run in which no shell leaves other processes behind. -/
theorem terminals_run (run : Run Started ShellsLast Taken s) :
    Terminals s.sched ∧ (s.sched.pcbs s.sched.idleProcess).shellId = 0 := by
  induction run with
  | init started => exact terminals_start started
  | @step s s' e before last taken ih =>
    obtain ⟨terminals, idleTerminal⟩ := ih
    obtain ⟨⟨_, idle⟩, step⟩ := taken_interrupted taken
    have run : Run Started Anyhow Taken s := before.weaken fun _ _ _ => trivial
    have scheduled := scheduled_withRoom e.1 (scheduled_anyhow run idle)
    constructor
    · have start : Terminals (withRoom e.1 s).sched :=
        ⟨terminals.taken, terminals.distinct, terminals.shell, terminals.stdout⟩
      exact start.step scheduled (happens_withRoom taken.1) step fun p ends => last p (endsAt_withRoom ends)
    · obtain ⟨_, lasting⟩ := lasting_interrupted step
      have same : s'.sched.idleProcess = s.sched.idleProcess := lasting.idle
      rw [same]
      exact (lasting.terminal _ (scheduled.queued.created _ idle)).trans idleTerminal

end Runs

end Delos.Invariants
