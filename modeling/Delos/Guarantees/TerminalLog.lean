import Delos.Invariants.TerminalLog
import Delos.Invariants.FileSystemRuns

/-!
# The log of a terminal

Whatever processes print to one stdout file, the file holds the last
`MAX_SHELL_FILE_SIZE` bytes of it and stays a system file, as long as no print
starts where a cluster of the file ends.
-/
namespace Delos.Guarantees
open Lib Source Invariants

/-- The file is created, marked as a system file and then only printed to. The
list is everything that was printed. -/
inductive Prints (allowed : ByteMemory → FileOperation → Prop)
    (printable : ByteMemory → CString → Bool → Prop) (start : Fs) (stdout : CString) :
    List UInt8 → Fs → Prop
  | created {ops : List FileOperation} {s0 s1 s : Fs} {res res' : Nat}
      (before : Reaches allowed start ops s0)
      (absent : ∀ r ∈ dirEntries s0.disk, r.name ≠ (normalizeFilename stdout).bytes)
      (ready : allowed s0.disk (.touch stdout)) (touched : touch stdout s0 = .ok (res, s1))
      (marked : setAsSystemFile stdout s1 = .ok (res', s)) :
      Prints allowed printable start stdout [] s
  | print {total : List UInt8} {s s' : Fs} (buffer : CString) (addNewline : Bool)
      (before : Prints allowed printable start stdout total s)
      (ready : printable s.disk buffer addNewline)
      (run : printToStream stdout buffer addNewline s = .ok ((), s')) :
      Prints allowed printable start stdout (total ++ buffer.bytes ++ lineEnd addNewline) s'

/-- The stdout file is ready for a print. -/
def Printable (stdout : CString) (disk : ByteMemory) (buffer : CString) (addNewline : Bool) : Prop :=
  ∀ r ∈ dirEntries disk, r.name = (normalizeFilename stdout).bytes →
    PrintReady disk r.size buffer.bytes.length (lineEnd addNewline).length

instance (stdout : CString) (disk : ByteMemory) (buffer : CString) (addNewline : Bool) :
    Decidable (Printable stdout disk buffer addNewline) :=
  inferInstanceAs (Decidable (∀ r ∈ dirEntries disk, _ → _))

/-- A system file with the last bytes of the text. -/
def StoresLog (stdout : CString) (disk : ByteMemory) (total : List UInt8) : Prop :=
  ∃ r ∈ dirEntries disk, r.name = (normalizeFilename stdout).bytes ∧ r.isSystem = true ∧
    contents disk r = lastBytes maxShellFileSize total

section
variable {s s' start : Fs} {stdout : CString} {others : List (Nat × Nat)} {text total : List UInt8}

theorem logged_created {dir lost : List Nat} {es : List Entry} {s1 : Fs} {res res' : Nat}
    (parked : Parked s others) (catalog : Catalog s.disk dir es lost)
    (absent : ∀ r ∈ dirEntries s.disk, r.name ≠ (normalizeFilename stdout).bytes)
    (ready : FileOperation.Ready s.disk (.touch stdout)) (touched : touch stdout s = .ok (res, s1))
    (marked : setAsSystemFile stdout s1 = .ok (res', s')) : Logged s' others stdout [] := by
  have room := ready absent
  rw [catalog_files catalog] at room
  rw [catalog_entries catalog] at absent
  have run : (touch stdout >>= fun _ => setAsSystemFile stdout >>= fun _ => pure ()) s =
      .ok ((), s') := by
    rw [run_bind touched, run_bind marked]
    rfl
  have ends : Completes (touch stdout >>= fun _ => setAsSystemFile stdout >>= fun _ => pure ()) s
      fun _ s' => Logged s' others stdout [] := by
    apply createStream_run parked catalog ((position_entries _).mpr absent) room
    intro s2 dir2 e parked2 catalog2 _ found holds system _
    have last : (es ++ [e])[es.length]? = some e := by simp
    obtain ⟨small, last⟩ := List.getElem?_eq_some_iff.mp last
    refine meets_pure.mpr (.mk parked2 catalog2 found small ?_ ?_)
    · rw [last]
      exact holds
    · rw [last]
      exact system
  exact completes_result ends run

theorem logged_printable {buffer : CString} {addNewline : Bool} (logged : Logged s others stdout text)
    (printable : Printable stdout s.disk buffer addNewline) :
    PrintReady s.disk text.length buffer.bytes.length (lineEnd addNewline).length := by
  obtain ⟨_, catalog, found, small, holds, _⟩ := logged
  rw [← holds.size]
  apply printable
  · rw [catalog_entries catalog]
    exact List.mem_map.mpr ⟨_, List.getElem_mem small, rfl⟩
  · exact (position_some found).2

theorem logged_stores (logged : Logged s others stdout (lastBytes maxShellFileSize total)) :
    StoresLog stdout s.disk total := by
  obtain ⟨_, catalog, found, small, holds, system⟩ := logged
  refine ⟨_, ?_, (position_some found).2, system, ?_⟩
  · rw [catalog_entries catalog]
    exact List.mem_map.mpr ⟨_, List.getElem_mem small, rfl⟩
  · rw [catalog_contents catalog (List.getElem_mem small), holds.size]
    exact holds.bytes

theorem lineEnd_plain (addNewline : Bool) : (0 : UInt8) ∉ lineEnd addNewline := by
  cases addNewline <;> decide

-- the elaborator would otherwise run the loop over all clusters
attribute [local irreducible] fsInit clearBoot

/-- What the file holds after any number of prints, and that it has no NUL. -/
theorem prints_logged (boot : Boot start)
    (prints : Prints (fun disk op => op.Ready disk) (Printable stdout) start stdout total s) :
    (∃ others, Logged s others stdout (lastBytes maxShellFileSize total)) ∧ (0 : UInt8) ∉ total := by
  induction prints with
  | created before absent ready touched marked =>
    obtain ⟨others, dir, es, lost, parked, catalog⟩ := reaches_catalog boot before
    exact ⟨⟨others, logged_created parked catalog absent ready touched marked⟩, List.not_mem_nil⟩
  | print buffer addNewline before ready run ih =>
    obtain ⟨⟨others, logged⟩, plain⟩ := ih
    obtain ⟨logged', _⟩ := completes_result
      (printToStream_run logged lastBytes_le (logged_printable logged ready)) run
    rw [List.append_assoc, lastBytes_append, ← List.append_assoc] at logged'
    refine ⟨⟨others, logged'⟩, ?_⟩
    rw [List.mem_append, List.mem_append]
    rintro ((inside | inside) | inside)
    · exact plain inside
    · exact buffer.plain inside
    · exact lineEnd_plain addNewline inside

end

/-! ## The guarantee -/

/-- After any sequence of prints the file holds the last bytes, and redrawing the
terminal prints exactly these. -/
theorem terminal_log {start s : Fs} {stdout : CString} {total : List UInt8} (boot : Boot start)
    (prints : Prints (fun disk op => op.Ready disk) (Printable stdout) start stdout total s) :
    StoresLog stdout s.disk total ∧ Completes (terminalText stdout) s fun _ s' =>
      s'.screen = s.screen ++ [.kprintfBytes (lastBytes maxShellFileSize total)] ∧
        StoresLog stdout s'.disk total := by
  obtain ⟨⟨others, logged⟩, plain⟩ := prints_logged boot prints
  have plainLog : (0 : UInt8) ∉ lastBytes maxShellFileSize total :=
    fun inside => plain (List.mem_of_mem_drop inside)
  refine ⟨logged_stores logged, ?_⟩
  apply meets_mono (terminalText_run logged lastBytes_le)
  rintro _ s' ⟨screen, logged', _⟩
  rw [upToNul_plain plainLog] at screen
  exact ⟨screen, logged_stores logged'⟩

def shellOne : CString := ⟨textBytes "shell_1", by decide⟩

/-- The new stdout file of the first terminal. -/
def shellCreated (test : Fs → Bool) : Bool :=
  endsWith (fun s0 : Fs => decide ((∀ r ∈ dirEntries s0.disk, r.name ≠ (normalizeFilename shellOne).bytes) ∧
      CreateRoom (lowFree s0.disk) (dirEntries s0.disk).length) &&
    endsWith (fun s1 : Fs => endsWith test ((setAsSystemFile shellOne s1).map Prod.snd))
      ((touch shellOne s0).map Prod.snd)) (clearRun [])

-- the elaborator would otherwise run the loop over all clusters
attribute [local irreducible] clearBoot

theorem shellCreated_prints {test : Fs → Bool} {printable : ByteMemory → CString → Bool → Prop}
    (holds : shellCreated test = true) :
    ∃ s : Fs, Prints (fun disk op => op.Ready disk) printable clearBoot shellOne [] s ∧
      test s = true := by
  obtain ⟨s0, run, holds⟩ := endsWith_iff.mp holds
  obtain ⟨ready, holds⟩ := (Bool.and_eq_true _ _).mp holds
  obtain ⟨absent, room⟩ := of_decide_eq_true ready
  obtain ⟨res, s1, touched, holds⟩ := endsWith_run holds
  obtain ⟨res', s, marked, holds⟩ := endsWith_run holds
  exact ⟨s, .created (clearRun_init run) absent (fun _ => room) touched marked, holds⟩

/-- One line in the file of the first terminal. -/
theorem terminal_log_line : ∃ s : Fs, StoresLog shellOne s.disk (textBytes "ready\r\n") := by
  have line : shellCreated (fun s : Fs =>
      decide (Printable shellOne s.disk ⟨textBytes "ready", by decide⟩ true) &&
      endsWith (fun _ : Fs => true) ((printToStream shellOne ⟨textBytes "ready", by decide⟩ true s).map
        Prod.snd)) = true := by
    rw [shellCreated, clearRun_ready]
    decide +kernel
  obtain ⟨s, created, ready⟩ := shellCreated_prints line
  obtain ⟨ready, run⟩ := (Bool.and_eq_true _ _).mp ready
  obtain ⟨_, s', run, _⟩ := endsWith_run run
  exact ⟨s', (terminal_log boot_clear (.print _ _ created (of_decide_eq_true ready) run)).1⟩

/-- A print behind one of 64 bytes starts over at the front of the file. -/
theorem terminal_log_full_cluster : ¬ ∀ (start s : Fs) stdout total, Boot start →
    Prints (fun disk op => op.Ready disk) (fun _ _ _ => True) start stdout total s →
      StoresLog stdout s.disk total := by
  intro claim
  have broken : shellCreated (fun s => endsWith (fun s1 : Fs => endsWith (fun s2 : Fs =>
      (dirEntries s2.disk).all fun r => decide (contents s2.disk r ≠
        lastBytes maxShellFileSize (List.replicate 64 120 ++ [121])))
      ((printToStream shellOne ⟨[121], by decide⟩ false s1).map Prod.snd))
      ((printToStream shellOne ⟨List.replicate 64 120, by decide⟩ false s).map Prod.snd)) = true := by
    rw [shellCreated, clearRun_ready]
    decide +kernel
  obtain ⟨s, created, broken⟩ := shellCreated_prints broken
  obtain ⟨_, s1, first, broken⟩ := endsWith_run broken
  obtain ⟨_, s2, second, broken⟩ := endsWith_run broken
  obtain ⟨r, inside, _, _, same⟩ := claim clearBoot s2 shellOne _ boot_clear
    (.print _ _ (.print _ _ created trivial first) trivial second)
  exact of_decide_eq_true (List.all_eq_true.mp broken r inside) same

end Delos.Guarantees
