import Delos.Guarantees.SchedulerPartition
import Delos.Invariants.FiledStart

/-!
# The normal form of file names

A name is cut off behind 15 characters by whichever function of the file system sees it
first. `read` and `write` ask whether the file exists before they look into the list of open
files, so they compare the name that is cut off. `close` looks into the list with the name
as it is.
-/
namespace Delos.Guarantees
open Lib Source Invariants

/-- Nothing is kept. -/
def NoName (_ : Nat) (_ : CString) : Prop := False

/-- The name of one process is kept. -/
def OnlyName (p : Nat) (name : CString) (q : Nat) (other : CString) : Prop := q = p ∧ other = name

/-- The string that `read` and `write` find at the address in ESI, and `close` at that in EBX. -/
def namedBy (cpu : Cpu) (user : UserSpace) : CString :=
  if cpu.eax = 110 then user.string cpu.ebx else user.string cpu.esi

/-- The call closes, reads or writes this open file, and returns what the file system does. -/
def ActsOn (name : CString) (s : System) (cpu : Cpu) (user : UserSpace) (s' : System) : Prop :=
  if cpu.eax = 110 then
    (s'.sched.pcbs s.sched.runningProcess).regs.eax = 0 ∧ ¬ OpenOn s'.fs.disk name.bytes
  else if cpu.eax = 111 then
    ∃ fs bytes, fs.disk = s.fs.disk ∧ read name cpu.ecx cpu.edx fs =
      .ok (((s'.sched.pcbs s.sched.runningProcess).regs.eax, bytes), s'.fs)
  else
    ∃ fs, fs.disk = s.fs.disk ∧ write name (user.bytes cpu.ebx cpu.edx) cpu.ecx fs =
      .ok ((s'.sched.pcbs s.sched.runningProcess).regs.eax, s'.fs)

/-- A process opens a file, and 0 is returned. -/
structure OpensFile (p : Nat) (filename : CString) (s : System) (e : Nat × Event) (s' : System) : Prop where
  own : s.sched.runningProcess = p
  call : ∃ cpu user, e.2 = .systemCall cpu user ∧ cpu.eax = 109 ∧ user.string cpu.ebx = filename
  taken : Taken s e s'
  zero : (s'.sched.pcbs p).regs.eax = 0

section
variable {s s' : System} {pcb : Nat} {user : UserSpace} {filename name : CString} {fs fs' : Fs} {names : List Nat}

/-! ## Calls with the name of an open file -/

theorem normalizeFilename_twice (filename : CString) :
    normalizeFilename (normalizeFilename filename) = normalizeFilename filename :=
  normalizeFilename_of_short (normalizeFilename_short filename)

/-- The test in front of `read` and `write` is passed. -/
theorem mayUse_listed {addresses : List Nat} {allowed : Bool} (filed : Filed names fs) (inside : addresses ⊆ names)
    (listed : ∃ a ∈ addresses, NameAt fs.heap a (normalizeFilename filename))
    (opened : OpenOn fs.disk (normalizeFilename filename).bytes)
    (run : mayUse filename addresses fs = .ok (allowed, fs')) : allowed = true ∧ fs'.disk = fs.disk := by
  unfold mayUse at run
  obtain ⟨known, fs1, asked, run⟩ := bind_run run
  have looked := along_fileExists filename _ _ _ asked filed.sound
  obtain ⟨r, saved, named, _⟩ := opened
  rw [if_pos ((fileExists_iff filed.sound asked).mpr ⟨r, saved, named⟩)] at run
  have sparing : Sparing (nameBlocks names) NoFile fs fs1 := sparing_looked filed.sound looked
  have filed1 := filed_kept filed sparing.sound looked.kept
  obtain ⟨found, search, iff⟩ := openFilesContain_run (normalizeFilename filename) filed1 inside
  cases search.symm.trans run
  refine ⟨iff.mpr ?_, looked.disk⟩
  obtain ⟨a, member, here⟩ := listed
  exact ⟨a, member, (nameAt_kept looked.kept (inside member)).mpr here⟩

theorem answer_fs {res : Nat} (run : (setResult pcb res >>= fun _ => setReady pcb) s = .ok ((), s')) :
    s'.fs = s.fs := by
  cases run
  rfl

theorem read_acts (filed : Filed (openNames s.sched) s.fs)
    (holds : HoldsOpen s pcb (normalizeFilename (user.string (s.sched.pcbs pcb).regs.esi)))
    (run : sysCallRead user pcb s = .ok ((), s')) : ∃ fs bytes, fs.disk = s.fs.disk ∧
      read (normalizeFilename (user.string (s.sched.pcbs pcb).regs.esi)) (s.sched.pcbs pcb).regs.ecx
        (s.sched.pcbs pcb).regs.edx fs = .ok (((s'.sched.pcbs pcb).regs.eax, bytes), s'.fs) := by
  unfold sysCallRead at run
  rw [run_bind (getPcb_run pcb s)] at run
  obtain ⟨allowed, s1, test, run⟩ := bind_run run
  obtain ⟨fs1, asked, rfl⟩ := onFs_run test
  obtain ⟨allow, disk⟩ := mayUse_listed filed (files_openNames holds.created) holds.listed holds.opened asked
  rw [if_pos allow] at run
  obtain ⟨⟨res, bytes⟩, s2, work, run⟩ := bind_run run
  obtain ⟨fs2, done, rfl⟩ := onFs_run work
  obtain ⟨_, s3, stored, run⟩ := bind_run run
  cases storeToUser_run stored
  refine ⟨fs1, bytes, disk, ?_⟩
  rw [answer_eax run, answer_fs run]
  unfold Source.read at done ⊢
  rwa [normalizeFilename_twice]

theorem write_acts (filed : Filed (openNames s.sched) s.fs)
    (holds : HoldsOpen s pcb (normalizeFilename (user.string (s.sched.pcbs pcb).regs.esi)))
    (run : sysCallWrite user pcb s = .ok ((), s')) : ∃ fs, fs.disk = s.fs.disk ∧
      write (normalizeFilename (user.string (s.sched.pcbs pcb).regs.esi))
        (user.bytes (s.sched.pcbs pcb).regs.ebx (s.sched.pcbs pcb).regs.edx) (s.sched.pcbs pcb).regs.ecx fs =
          .ok ((s'.sched.pcbs pcb).regs.eax, s'.fs) := by
  unfold sysCallWrite at run
  rw [run_bind (getPcb_run pcb s)] at run
  obtain ⟨allowed, s1, test, run⟩ := bind_run run
  obtain ⟨fs1, asked, rfl⟩ := onFs_run test
  obtain ⟨allow, disk⟩ := mayUse_listed filed (files_openNames holds.created) holds.listed holds.opened asked
  rw [if_pos allow] at run
  obtain ⟨res, s2, work, run⟩ := bind_run run
  obtain ⟨fs2, done, rfl⟩ := onFs_run work
  refine ⟨fs1, disk, ?_⟩
  rw [answer_eax run, answer_fs run]
  unfold Source.write at done ⊢
  rwa [normalizeFilename_twice]

/-- A name in the list is shorter than its block, so a longer one is not found. -/
theorem close_acts (filed : Filed (openNames s.sched) s.fs)
    (holds : HoldsOpen s pcb (normalizeFilename (user.string (s.sched.pcbs pcb).regs.ebx)))
    (run : sysCallClose user pcb s = .ok ((), s')) :
    ((s'.sched.pcbs pcb).regs.eax = 0 ∧
      ¬ OpenOn s'.fs.disk (normalizeFilename (user.string (s.sched.pcbs pcb).regs.ebx)).bytes) ↔
        (user.string (s.sched.pcbs pcb).regs.ebx).bytes.length < fileNameLen := by
  unfold sysCallClose at run
  rw [run_bind (getPcb_run pcb s)] at run
  obtain ⟨known, s1, first, run⟩ := bind_run run
  obtain ⟨fs1, asked, rfl⟩ := onFs_run first
  obtain ⟨found, search, iff⟩ := openFilesContain_run (user.string (s.sched.pcbs pcb).regs.ebx) filed
    (files_openNames holds.created)
  cases search.symm.trans asked
  by_cases short : (user.string (s.sched.pcbs pcb).regs.ebx).bytes.length < fileNameLen
  · have same := normalizeFilename_of_short short
    have listed := holds.listed
    unfold Invariants.Lists at listed
    rw [same] at listed
    rw [if_pos (iff.mpr listed)] at run
    obtain ⟨res, s2, second, run⟩ := bind_run run
    obtain ⟨fs2, closed, rfl⟩ := onFs_run second
    obtain ⟨zero, shut⟩ := closeFile_closes closed filed.sound holds.opened
    obtain ⟨_, s3, third, run⟩ := bind_run run
    have disk := forget_disk third
    refine iff_of_true ⟨(answer_eax run).trans zero, ?_⟩ short
    rw [answer_fs run, disk]
    exact shut
  · have absent : ¬ known = true := by
      intro there
      obtain ⟨a, _, named⟩ := iff.mp there
      exact short named.short
    rw [if_neg absent] at run
    refine iff_of_false ?_ short
    rintro ⟨zero, _⟩
    exact absurd ((answer_eax run).symm.trans zero) Nat.one_ne_zero

/-! ## Runs -/

theorem namedBy_close {cpu : Cpu} (number : cpu.eax = 110) : namedBy cpu user = user.string cpu.ebx := if_pos number

theorem namedBy_other {cpu : Cpu} (number : cpu.eax ≠ 110) : namedBy cpu user = user.string cpu.esi := if_neg number

/-- Behind the call and the switch. -/
theorem call_acts {room : Nat} {cpu : Cpu} (number : cpu.eax ∈ [110, 111, 112])
    (filed : Filed (openNames s.sched) s.fs) (holds : HoldsOpen s s.sched.runningProcess name)
    (same : normalizeFilename (namedBy cpu user) = name)
    (run : interrupt room (.systemCall cpu user) s = .ok ((), s')) :
    ActsOn name s cpu user s' ↔ (cpu.eax = 110 → (namedBy cpu user).bytes.length < fileNameLen) := by
  obtain ⟨s1, call, switch⟩ := interrupt_call run
  have entering : KeepsOpen Every s (entered room cpu s) := keepsOpen_entered
  obtain ⟨filed', kept⟩ := entering filed
  have holds' := kept _ _ trivial holds
  have regs := entered_regs room cpu s
  have returned : (s'.sched.pcbs s.sched.runningProcess).regs = (s1.sched.pcbs s.sched.runningProcess).regs := by
    have dispatch := meets_result switchToNextProcess_finishes switch
    rw [dispatch.sched, regs_switched]
  unfold ActsOn
  rw [returned, (only_switchToNextProcess _ _ _ switch).fs]
  have numbers : cpu.eax = 110 ∨ cpu.eax = 111 ∨ cpu.eax = 112 := by simpa using number
  rcases numbers with close | read | write
  · rw [close] at call
    have acts := close_acts filed' (by rwa [regs, ← namedBy_close close, same]) call
    rw [regs, ← namedBy_close close, same] at acts
    rw [if_pos close, acts]
    exact ⟨fun short _ => short, fun short => short close⟩
  · rw [read] at call
    have other : cpu.eax ≠ 110 := by omega
    obtain ⟨fs, bytes, disk, done⟩ := read_acts filed'
      (by rwa [regs, ← namedBy_other other, same]) call
    rw [regs, ← namedBy_other other, same] at done
    rw [if_neg other, if_pos read]
    exact iff_of_true ⟨fs, bytes, disk, done⟩ fun close => absurd close other
  · rw [write] at call
    have other : cpu.eax ≠ 110 := by omega
    obtain ⟨fs, disk, done⟩ := write_acts filed'
      (by rwa [regs, ← namedBy_other other, same]) call
    rw [regs, ← namedBy_other other, same] at done
    rw [if_neg other, if_neg (by omega)]
    exact iff_of_true ⟨fs, disk, done⟩ fun close => absurd close other

end

section
variable {s s' : System} {e : Nat × Event} {p : Nat} {filename : CString}

/-- The caller of `open` holds the file, and all names are in their blocks. -/
theorem opened_held (run : Run Started Anyhow Taken s) (filed : Filed (openNames s.sched) s.fs)
    (provided : Provided NoName s e) (opens : OpensFile p filename s e s') :
    Filed (openNames s'.sched) s'.fs ∧ HoldsOpen s' p (normalizeFilename filename) := by
  obtain ⟨rfl, ⟨cpu, user, event, number, rfl⟩, taken, zero⟩ := opens
  obtain ⟨room, _⟩ := e
  subst event
  obtain ⟨_, call⟩ := taken
  obtain ⟨⟨alive, idle⟩, _⟩ := interrupt_run call
  have running := (scheduled_anyhow run idle).queued.created _ alive
  obtain ⟨s1, call, switch⟩ := interrupt_call call
  rw [number] at call
  have entering : KeepsOpen Every s (entered room cpu s) := keepsOpen_entered
  obtain ⟨filed', _⟩ := entering filed
  obtain ⟨opening, held⟩ := keepsOpen_open filed' running (provided.opens number) call
  have switching : KeepsOpen Every s1 s' := keepsOpen_switchToNextProcess _ () s' switch
  obtain ⟨filed1, _⟩ := opening filed'
  obtain ⟨filed2, kept⟩ := switching filed1
  have dispatch := meets_result switchToNextProcess_finishes switch
  rw [dispatch.sched, regs_switched] at zero
  have holds := held zero
  rw [entered_regs] at holds
  exact ⟨filed2, kept _ _ trivial holds⟩

end

/-- What the operations that make room for the stdout files need, and those that make them. -/
def roomFor (disk : ByteMemory) : FileOperation → Bool
  | .touch _ => decide ((∀ i ∈ List.range' 3000 8, fatValue disk i = freeCluster) ∧ CreateRoom 8 (dirEntries disk).length)
  | .rm _ => decide (Fits ((dirEntries disk).length - 1))
  | .setAsSystemFile _ => true
  | _ => false

/-- One operation after the other, as long as there is room. -/
def roomyRun : List FileOperation → Fs → Except Stop Fs
  | [], s => .ok s
  | op :: rest, s =>
    if roomFor s.disk op = true then do
      let (_, s) ← op.run s
      roomyRun rest s
    else .error .wildAccess

section
variable {start fs fs' : Fs} {ops before : List FileOperation}

theorem free_lowFree {disk : ByteMemory} {cells : List Nat} (unique : cells.Nodup) (low : ∀ i ∈ cells, i < takenCluster)
    (free : ∀ i ∈ cells, fatValue disk i = freeCluster) : cells.length ≤ lowFree disk := by
  refine (unique.subperm fun i inside => List.mem_filter.mpr ⟨?_, ?_⟩).length_le
  · exact List.mem_range.mpr (low i inside)
  · exact decide_eq_true (free i inside)

theorem roomFor_ready {disk : ByteMemory} {op : FileOperation} (room : roomFor disk op = true) : op.Ready disk := by
  unfold roomFor at room
  cases op with
  | touch filename =>
    obtain ⟨free, file, directory, fits⟩ := of_decide_eq_true room
    have enough : 8 ≤ lowFree disk := free_lowFree (by decide) (by decide) free
    exact fun _ => ⟨by omega, by omega, fits⟩
  | rm filename =>
    have fewer : Fits ((dirEntries disk).length - 1) := of_decide_eq_true room
    exact fun _ _ _ _ => fewer
  | setAsSystemFile => trivial
  | _ => cases room

theorem roomyRun_reaches (reaches : Reaches (fun disk op => op.Ready disk) start before fs)
    (run : roomyRun ops fs = .ok fs') :
    Reaches (fun disk op => op.Ready disk) start (before ++ ops) fs' ∧ runAll ops fs = .ok fs' := by
  induction ops generalizing before fs with
  | nil =>
    cases run
    rw [List.append_nil]
    exact ⟨reaches, rfl⟩
  | cons op rest ih =>
    rw [roomyRun] at run
    split at run
    next room =>
      cases done : op.run fs with
      | error e => simp [done, bind, Except.bind] at run
      | ok p =>
        simp only [done, bind, Except.bind] at run
        obtain ⟨later, all⟩ := ih (.step op reaches (roomFor_ready room) done) run
        rw [List.append_assoc] at later
        refine ⟨later, ?_⟩
        simp only [runAll, done, bind, Except.bind]
        exact all
    next => cases run

/-- A system call in which every string is the same. -/
def callNamed (number : Nat) (name : CString) : Event :=
  .systemCall ⟨number, 0, 0, 0, 0, 0, 0, 0, 0, 0⟩ ⟨fun _ => name, fun _ _ => [], fun _ => none, userStart, 0⟩

/-- All shells but the first wait for a line. -/
def firstShell : List Event := List.replicate 3 (readLineAt 0x40000000)

/-- The running process opens the file and calls with a name of it. -/
def opensAnd (name : CString) (number : Nat) (other : CString) (test : System → Bool) (s : System) : Bool :=
  endsWith (fun s1 : System => decide (s.sched.runningProcess = 1 ∧ s1.sched.runningProcess = 1 ∧
      (s1.sched.pcbs 1).regs.eax = 0) &&
    endsWith test (script [callNamed number other] s1)) (script [callNamed 109 name] s)

theorem opensAnd_run {s : System} {name other : CString} {number : Nat} {test : System → Bool}
    (ends : opensAnd name number other test s = true) : ∃ s1 s2, OpensFile 1 name s (plenty, callNamed 109 name) s1 ∧
      s1.sched.runningProcess = 1 ∧ Taken s1 (plenty, callNamed number other) s2 ∧ test s2 = true := by
  obtain ⟨s1, taken, ends⟩ := script_taken ends
  obtain ⟨here, ends⟩ := Bool.and_eq_true_iff.mp ends
  obtain ⟨own, stays, zero⟩ := of_decide_eq_true here
  obtain ⟨s2, called, holds⟩ := script_taken ends
  exact ⟨s1, s2, ⟨own, ⟨_, _, rfl, rfl, rfl⟩, taken, zero⟩, stays, called, holds⟩

theorem provided_readLine (s : System) (event : Event) (inside : event ∈ firstShell) :
    Provided NoName s (plenty, event) := by
  obtain rfl : event = readLineAt 0x40000000 := List.eq_of_mem_replicate inside
  constructor <;> intro number <;> exact absurd number (by decide)

/-- A short name fits its block with both terminators. -/
theorem provided_open {name : CString} (s : System) (short : (normalizeFilename name).bytes.length + 2 ≤ fileNameLen) :
    Provided NoName s (plenty, callNamed 109 name) := by
  have opens : Opens (entered plenty ⟨109, 0, 0, 0, 0, 0, 0, 0, 0, 0⟩ s) name :=
    ⟨(by decide : 0 < plenty), fun _ _ _ _ _ _ => .inl short⟩
  constructor
  case opens => exact fun _ => opens
  all_goals intro number
  all_goals exact absurd number (by decide)

/-- A name of 16 characters. -/
def longName : CString := ⟨List.replicate 16 97, by decide⟩

end

end Delos.Guarantees
