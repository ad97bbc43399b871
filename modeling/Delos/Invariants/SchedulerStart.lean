import Delos.Invariants.ProcessIds

/-!
# The start of the scheduler

`_kernel_main` creates the idle process and four shells before the first switch.
-/
namespace Delos.Invariants
open Lib Source

/-- No process is blocked. -/
def NobodyBlocked (σ : Sched) : Prop := ∀ q, q ≠ .all → q ≠ .ready → σ.lists q = []

/-- While the shells are created; those in `out` are not ready yet. -/
structure Booting (out : List Nat) (nodes : Nat) (σ : Sched) : Prop where
  queued : Queued True out σ
  numbered : Numbered σ
  room : nodes ≤ σ.room
  idlePid : (σ.pcbs σ.idleProcess).pid = 0
  nobody : NobodyBlocked σ

section
variable {σ : Sched} {s : System} {out : List Nat} {nodes p t : Nat} {loader : Loader}

theorem Queued.setLatest (queued : Queued True out σ) (alive : p ∈ σ.lists .all)
    (terminal : (σ.pcbs p).shellId = t + 1) :
    Queued True out { σ with latestRunning := Function.update σ.latestRunning t p } := by
  refine { queued with latest := fun t' few => ?_ }
  by_cases here : t' = t
  · right
    simp only [here, Function.update_self]
    exact ⟨alive, terminal⟩
  · simp only [Function.update_of_ne here]
    exact queued.latest t' few

theorem Booting.setReady (booting : Booting (p :: out) (nodes + 1) σ) (alive : p ∈ σ.lists .all)
    (fresh : p ∉ out) : Booting out nodes (σ.setProcessAsReady p) := by
  obtain ⟨queued, numbered, room, idlePid, nobody⟩ := booting
  have lasting : Lasting σ (σ.setProcessAsReady p) := lasting_moved moved_setReady
  constructor
  · exact queued.setReady (fun _ => alive) fresh fun _ => Nat.lt_of_lt_of_le (Nat.succ_pos _) room
  · exact numbered.moved moved_setReady
  · have left := (room_setReady (σ := σ) (p := p)).1
    omega
  · rw [lasting.idle, lasting.pid _ (queued.created _ queued.idle)]
    exact idlePid
  · intro q all ready
    rw [lists_setReady ready, nobody q all ready]

/-- One more process. -/
theorem Booting.withProcess (filename : CString) (stdout : CString) (i : Fin 4) (entry cr3 : Nat)
    (few : framesTakenUp σ = false) (booting : Booting out (nodes + 1) σ) :
    Booting (σ.created :: out) nodes (Sched.withProcess filename 0 stdout (i + 1) entry cr3 σ) := by
  obtain ⟨queued, numbered, room, idlePid, nobody⟩ := booting
  have terminal : 1 ≤ (i : Nat) + 1 ∧ (i : Nat) + 1 ≤ numberOfTerminals := by
    unfold numberOfTerminals
    omega
  have lasting : Lasting σ (Sched.withProcess filename 0 stdout (i + 1) entry cr3 σ) :=
    lasting_withProcess
  constructor
  · exact queued.withProcess _ _ _ _ _ terminal
  · exact numbered.withProcess _ _ _ _ _ _ (Nat.lt_of_lt_of_le (Nat.succ_pos _) room) (framesTakenUp_few few)
  · rw [withProcess_room]
    omega
  · rw [lasting.idle, lasting.pid _ (queued.created _ queued.idle)]
    exact idlePid
  · intro q all ready
    rw [lists_withProcess all, nobody q all ready]

/-- What a new shell adds. -/
structure ShellAdded (out : List Nat) (nodes : Nat) (σ : Sched) (p : Nat) (σ' : Sched) : Prop where
  number : p = σ.created
  alive : p ∈ σ'.lists .all
  created : σ'.created = σ.created + 1
  before : σ.lists .all ⊆ σ'.lists .all
  booting : Booting (p :: out) nodes σ'

-- the comparison of two large numbers would otherwise be unfolded
attribute [local irreducible] framesTakenUp

theorem createShell_finishes {i : Fin 4} (booting : Booting out (nodes + 1) s.sched) :
    Finishes (createShell loader i) s fun p s' => ShellAdded out nodes s.sched p s'.sched := by
  have some : 0 < s.sched.room := Nat.lt_of_lt_of_le (Nat.succ_pos _) booting.room
  unfold createShell
  apply finishes_fs
  intro _ fs
  apply finishes_fs
  intro _ fs
  simp only
  apply createProcess_finishes
  · exact finishes_throw
  · intro few
    refine (meets_next rfl).mpr (meets_pure.mpr ?_)
    have made := booting.withProcess shellExe (shellStdout i) i (loader (i + 1)).1 (loader (i + 1)).2 few
    have alive := withProcess_alive shellExe 0 (shellStdout i) (i + 1) (loader (i + 1)).1
      (loader (i + 1)).2 some
    constructor
    · rfl
    · exact alive
    · exact withProcess_created _ _ _ _ _ _
    · exact fun p inside => withProcess_keeps _ _ _ _ _ _ inside
    · refine ⟨made.queued.setLatest alive (withProcess_new _ _ _ _ _ _).terminal, ?_, made.room,
        made.idlePid, made.nobody⟩
      have numbered := made.numbered
      exact ⟨numbered.unique, numbered.created, numbered.distinct, numbered.taken, numbered.held⟩

/-- A shell that becomes ready at once. -/
theorem readyShell_finishes {β : Type} {i : Fin 4} {f : Unit → Handler β} {post : β → System → Prop}
    (booting : Booting [p] (nodes + 2) s.sched) (alive : p ∈ s.sched.lists .all)
    (rest : ∀ s', Booting [p] nodes s'.sched → p ∈ s'.sched.lists .all → Finishes (f ()) s' post) :
    Finishes (createShell loader i >>= fun q => setReady q >>= f) s post := by
  apply meets_call (createShell_finishes booting)
  intro q s1 added
  have later : q ≠ p := by
    have old := booting.numbered.created p alive
    rw [added.number]
    exact Nat.ne_of_gt old
  refine (meets_next rfl).mpr (rest _ ?_ ?_)
  · exact added.booting.setReady added.alive (by simpa using later)
  · show p ∈ (s1.sched.setProcessAsReady q).lists .all
    rw [moved_setReady.all]
    exact added.before alive

theorem createShells_finishes (booting : Booting [] (nodes + 8) s.sched) :
    Finishes (createShells loader) s fun _ s' => Booting [] nodes s'.sched := by
  unfold createShells
  apply meets_call (createShell_finishes booting)
  intro first s1 added
  apply readyShell_finishes added.booting added.alive
  intro s2 booting2 alive2
  apply readyShell_finishes booting2 alive2
  intro s3 booting3 alive3
  apply readyShell_finishes booting3 alive3
  intro s4 booting4 alive4
  exact meets_run rfl (booting4.setReady alive4 List.not_mem_nil)

theorem allocatePid_first (unused : ∀ pid, σ.pids pid = false) : (allocatePid σ).1 = 0 := by
  have found : (List.range maxNumberOfProcesses).find? (fun i => σ.pids i = false) = some 0 := by
    rw [show maxNumberOfProcesses = 255 + 1 from rfl, List.range_succ_eq_map, List.find?_cons_of_pos]
    simp [unused]
  rw [allocatePid, found]

/-- The idle process alone. -/
theorem booting_idle {σ1 : Sched} {stdout : CString} {entry cr3 : Nat} (fresh : Fresh s)
    (few : framesTakenUp s.sched = false)
    (made : σ1 = Sched.withProcess idleExe 0 stdout 0 entry cr3 s.sched) :
    Booting [] 8 { σ1.setState s.sched.created .waiting with
      idleProcess := s.sched.created, runningProcess := s.sched.created } := by
  have some : 0 < s.sched.room := Nat.lt_of_lt_of_le (by decide) fresh.room
  have none : s.sched.lists .all = [] := fresh.lists .all
  have numbered : Numbered s.sched := by
    constructor <;> simp [none, fresh.pids]
  have numbered1 : Numbered (σ1.setState s.sched.created .waiting) := by
    rw [made]
    exact (numbered.withProcess _ _ _ _ _ _ some (framesTakenUp_few few)).moved moved_setState
  have new : NewPcb 0 0 s.sched (σ1.pcbs s.sched.created) := by
    rw [made]
    exact withProcess_new _ _ _ _ _ _
  obtain ⟨pcb, all, _, added, fields⟩ := withProcess_fields idleExe 0 stdout 0 entry cr3 s.sched
  rw [← made] at fields
  have only : σ1.lists .all = [s.sched.created] := by
    rw [fields]
    simp only [Function.update_self]
    rw [(added.resolve_left fun lacking => Nat.ne_of_gt some lacking.1).2, none, List.nil_append]
  have empty : ∀ q, q ≠ .all → σ1.lists q = [] := by
    intro q queue
    rw [fields]
    simp only [Function.update_of_ne queue]
    exact fresh.lists q
  have unlisted : ∀ i, listed { σ1.setState s.sched.created .waiting with
      idleProcess := s.sched.created, runningProcess := s.sched.created } i = 0 := by
    intro i
    show (σ1.lists .ready).count i + (σ1.lists .blockedOnProcess).count i +
      (σ1.lists .blockedOnKeyboard).count i = 0
    rw [empty .ready (by decide), empty .blockedOnProcess (by decide), empty .blockedOnKeyboard (by decide)]
    rfl
  refine ⟨?_, ?_, ?_, ?_, fun q all _ => empty q all⟩
  · constructor
    · show s.sched.created ∈ σ1.lists .all
      rw [only]
      exact List.mem_singleton.mpr rfl
    · show (σ1.lists .all).Nodup
      rw [only]
      simp
    · exact numbered1.created
    · intro q i inside
      by_cases queue : q = .all
      · rwa [queue] at inside
      · have inside : i ∈ σ1.lists q := inside
        rw [empty q queue] at inside
        exact absurd inside List.not_mem_nil
    · exact fun i => by rw [unlisted]; decide
    · exact fun i _ _ => unlisted i
    · intro _ i inside _ other
      have inside : i ∈ σ1.lists .all := inside
      rw [only] at inside
      exact absurd (List.mem_singleton.mp inside) other
    · intro q inside
      by_contra other
      have inside : s.sched.created ∈ σ1.lists q := inside
      rw [empty q fun same => other (.inl same)] at inside
      exact absurd inside List.not_mem_nil
    · intro q queue i inside
      have inside : i ∈ σ1.lists q := inside
      rw [empty q queue] at inside
      exact absurd inside List.not_mem_nil
    · intro i inside other
      have inside : i ∈ σ1.lists .all := inside
      rw [only] at inside
      exact absurd (List.mem_singleton.mp inside) other
    · intro t _
      left
      show σ1.latestRunning t = s.sched.created
      rw [fields, fresh.created]
      exact fresh.latest t
  · exact ⟨numbered1.unique, numbered1.created, numbered1.distinct, numbered1.taken, numbered1.held⟩
  · show 8 ≤ σ1.room
    have enough := fresh.room
    unfold bootNodes at enough
    rw [fields]
    simp only
    omega
  · show ((σ1.setState s.sched.created .waiting).pcbs s.sched.created).pid = 0
    have same : ((σ1.setState s.sched.created .waiting).pcbs s.sched.created).pid =
      (σ1.pcbs s.sched.created).pid := pcbs_setPcb Pcb.pid fun _ => rfl
    rw [same, new.pid]
    exact allocatePid_first fresh.pids

theorem initProcessScheduler_finishes (fresh : Fresh s) : Finishes (initProcessScheduler loader) s
    fun _ s' => Booting [] 0 s'.sched ∧ s'.sched.focusedTerminal = 1 := by
  unfold initProcessScheduler
  simp only
  apply createProcess_finishes
  · exact finishes_throw
  · intro few
    refine (meets_next rfl).mpr ?_
    apply meets_call (createShells_finishes (booting_idle fresh few rfl))
    intro _ s1 booting
    refine (meets_next rfl).mpr ?_
    apply finishes_fs
    intro _ fs
    apply finishes_fs
    intro _ fs
    apply finishes_fs_last
    intro _ fs
    obtain ⟨queued, numbered, room, idlePid, nobody⟩ := booting
    refine ⟨⟨?_, ?_, room, idlePid, nobody⟩, rfl⟩
    · exact queued.same ⟨fun _ => .refl _, rfl, rfl, rfl, fun _ => rfl, fun _ => rfl⟩
    · exact ⟨numbered.unique, numbered.created, numbered.distinct, numbered.taken, numbered.held⟩

theorem startProcesses_finishes (fresh : Fresh s) : Finishes (startProcesses loader) s fun _ s' =>
    Scheduled True s'.sched ∧ Numbered s'.sched ∧ NobodyBlocked s'.sched := by
  unfold startProcesses
  apply meets_call (initProcessScheduler_finishes fresh)
  rintro _ s1 ⟨booting, focus⟩
  apply meets_mono switchToNextProcess_finishes
  intro _ s' dispatch
  have lasting : Lasting s1.sched s'.sched := by
    rw [dispatch.sched]
    exact lasting_switched
  refine ⟨?_, ?_, ?_⟩
  · apply scheduled_dispatch booting.queued dispatch
    · rw [lasting.focused, focus]
      decide
    · rw [lasting.idle, lasting.pid _ (booting.queued.created _ booting.queued.idle)]
      exact booting.idlePid
  · rw [dispatch.sched]
    exact booting.numbered.switched
  · intro q all ready
    rw [dispatch.sched, lists_switched ready, booting.nobody q all ready]

end

end Delos.Invariants
