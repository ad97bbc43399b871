import Delos.Invariants.FileReading
import Delos.Invariants.FileSystemRuns
import Delos.Invariants.SchedulerRuns
import Delos.Source.Strings

/-!
# Strings of a process in the buffers of the kernel

`strcpy` and `strcat` copy whatever is there. A text for the screen is copied to 256
bytes, the name of a program to 256 and then to 16, and the name of a file, cut off to 15
characters, to 16; `strcpy` stores one index more than the terminator takes.
-/
namespace Delos.Guarantees
open Lib Source Invariants

/-- No index is stored to that is outside its buffer. -/
def Inside (stores : List BufferStore) : Prop := ∀ store ∈ stores, store.index < store.buffer.size

/-- The lengths for which a call stays inside the buffers. -/
def StringFits (user : UserSpace) (s : System) (pcb : Nat) : StringCall → Prop
  | .printf => s.sched.focusedTerminal = (s.sched.pcbs pcb).shellId →
      (user.string (s.sched.pcbs pcb).regs.esi).bytes.length < screenBufferSize
  | .exec => (user.string (s.sched.pcbs pcb).regs.ebx).bytes.length + 1 < execBufferSize ∧
      (getProgram (user.string (s.sched.pcbs pcb).regs.ebx) ≠ none →
        (user.string (s.sched.pcbs pcb).regs.ebx).bytes.length + 1 < processNameLen)
  | .openFile => ∀ r ∈ dirEntries s.fs.disk,
      r.name = (normalizeFilename (user.string (s.sched.pcbs pcb).regs.ebx)).bytes → r.isOpen = false →
        (user.string (s.sched.pcbs pcb).regs.ebx).bytes.length + 1 < fileNameLen

/-! ## Indices -/

theorem mem_copyStores {i k : Nat} {bytes : List UInt8} :
    k ∈ copyStores i bytes ↔ i ≤ k ∧ k ≤ i + bytes.length := by
  induction bytes generalizing i with
  | nil =>
    simp only [copyStores, List.mem_singleton, List.length_nil]
    omega
  | cons c rest ih =>
    simp only [copyStores, List.mem_cons, List.length_cons, ih]
    omega

theorem inside_append {left right : List BufferStore} :
    Inside (left ++ right) ↔ Inside left ∧ Inside right := by
  simp only [Inside, List.mem_append, or_imp, forall_and]

theorem inside_storesTo {buffer : KernelBuffer} {indices : List Nat} :
    Inside (storesTo buffer indices) ↔ ∀ i ∈ indices, i < buffer.size := by
  simp [Inside, storesTo]

/-- The last store of `strcpy` goes behind the terminator. -/
theorem inside_strcpy {buffer : KernelBuffer} (src : CString) :
    Inside (storesTo buffer (strcpyStores src)) ↔ src.bytes.length + 1 < buffer.size := by
  rw [inside_storesTo]
  constructor
  · intro inside
    apply inside
    simp [strcpyStores]
  · intro fits i stored
    rcases List.mem_append.mp stored with copied | last
    · have place := mem_copyStores.mp copied
      omega
    · rw [List.mem_singleton.mp last]
      exact fits

/-- `kprintf("%s", s)` -/
theorem kprintf_string (s : CString) : kprintf "%s" [.string s] =
    some ⟨s.bytes, List.range screenBufferSize ++ copyStores 0 s.bytes⟩ := by
  have format : "%s".toList = ['%', 's'] := by decide
  unfold kprintf
  rw [format]
  simp only [kprintfLoop, formatDirective, CharBuffer.strcat, CharBuffer.cleared, List.nil_append,
    List.length_nil]

section
variable {start : Fs} {s : System} {ops : List FileOperation} {user : UserSpace} {pcb : Nat}

theorem printf_inside : Meets (· = Stop.outOfMemory) (printfStores user pcb) s fun stores _ =>
    Inside stores ↔ StringFits user s pcb .printf := by
  unfold printfStores
  rw [meets_next (show getPcb pcb s = .ok (s.sched.pcbs pcb, s) from rfl),
    meets_next (show focused pcb s = .ok (decide (s.sched.focusedTerminal = (s.sched.pcbs pcb).shellId), s)
      from rfl)]
  unfold StringFits
  by_cases shown : s.sched.focusedTerminal = (s.sched.pcbs pcb).shellId
  · rw [decide_eq_true shown, if_pos rfl, kprintf_string]
    apply meets_pure.mpr
    rw [inside_storesTo]
    constructor
    · intro inside _
      apply inside
      apply List.mem_append_right
      exact mem_copyStores.mpr ⟨Nat.zero_le _, Nat.le_of_eq (Nat.zero_add _).symm⟩
    · intro fits i stored
      have short := fits shown
      rcases List.mem_append.mp stored with cleared | copied
      · exact List.mem_range.mp cleared
      · have place := mem_copyStores.mp copied
        show i < screenBufferSize
        omega
  · rw [decide_eq_false shown, if_neg Bool.false_ne_true]
    apply meets_pure.mpr
    simp [Inside, shown]

theorem exec_inside : Meets (· = Stop.outOfMemory) (execStores user pcb) s fun stores _ =>
    Inside stores ↔ StringFits user s pcb .exec := by
  unfold execStores
  rw [meets_next (show getPcb pcb s = .ok (s.sched.pcbs pcb, s) from rfl)]
  dsimp only
  rw [if_neg (by decide)]
  unfold StringFits
  cases getProgram (user.string (s.sched.pcbs pcb).regs.ebx) with
  | none =>
    apply meets_pure.mpr
    rw [inside_strcpy]
    simp [KernelBuffer.size]
  | some program =>
    apply meets_pure.mpr
    rw [inside_append, inside_strcpy, inside_strcpy]
    simp [KernelBuffer.size]

theorem onFs_bind {α β : Type} (x : Kernel α) (f : α → Kernel β) :
    onFs (x >>= f) = onFs x >>= fun a => onFs (f a) := by
  funext s
  show onFs (x >>= f) s = (onFs x s >>= fun p => onFs (f p.1) p.2)
  have step : (x >>= f) s.fs = (x s.fs >>= fun p => f p.1 p.2) := rfl
  unfold onFs
  rw [step]
  cases x s.fs with
  | error e => rfl
  | ok p => rfl

/-- `sys_call_open` keeps the name that `openResult` hands over, and no other. -/
theorem sysCallOpen_result : sysCallOpen user pcb = (do
    let p ← getPcb pcb
    let (result, kept) ← onFs (openResult (user.string p.regs.ebx))
    match kept with
    | some name => do
      rememberOpenFile pcb name
      setResult pcb result
      setReady pcb
    | none => do
      setResult pcb result
      setReady pcb) := by
  unfold sysCallOpen openResult
  congr 1
  funext p
  simp only [onFs_bind, bind_assoc]
  congr 1
  funext known
  cases known with
  | false => rfl
  | true =>
    simp only [if_true, onFs_bind, bind_assoc]
    congr 1
    funext result
    by_cases zero : result = 0
    · rw [if_pos zero, if_pos zero]
      rfl
    · rw [if_neg zero, if_neg zero]
      rfl

/-- The name is copied when the file exists and is not open yet. -/
theorem openResult_run {others : List (Nat × Nat)} {dir lost : List Nat} {es : List Entry} {fs : Fs}
    (filename : CString) (parked : Parked fs others) (catalog : Catalog fs.disk dir es lost) :
    Completes (openResult filename) fs fun p _ =>
      (p.2 = some (normalizeFilename filename) ∧ position (normalizeFilename filename) es ≠ none ∧
          ¬ OpenIn (normalizeFilename filename) es) ∨
        (p.2 = none ∧ (position (normalizeFilename filename) es = none ∨
          OpenIn (normalizeFilename filename) es)) := by
  unfold openResult
  apply meets_call (fileExists_run filename parked catalog)
  rintro known _ ⟨heap, rfl, owned, _, found⟩
  cases known with
  | false =>
    apply meets_pure.mpr
    right
    exact ⟨rfl, .inl (Option.isSome_eq_false_iff.mp found.symm |> Option.isNone_iff_eq_none.mp)⟩
  | true =>
    have exists' : position (normalizeFilename filename) es ≠ none :=
      Option.isSome_iff_ne_none.mp found.symm
    have parked' : Parked { fs with heap := heap, root := 0 } others := .empty rfl owned
    rw [if_pos rfl]
    apply meets_call (openFile_run filename parked' catalog)
    rintro result s' ⟨_, _, _, _, _, _, ⟨opened, one, _⟩ | ⟨closed, zero, _⟩⟩
    · rw [if_neg (by omega)]
      exact meets_pure.mpr (.inr ⟨rfl, .inr opened⟩)
    · rw [if_pos zero]
      exact meets_pure.mpr (.inl ⟨rfl, exists', closed⟩)

theorem normalized_fits (filename : CString) :
    (normalizeFilename filename).bytes.length + 1 < fileNameLen ↔ filename.bytes.length + 1 < fileNameLen := by
  have length : (normalizeFilename filename).bytes.length = min (fileNameLen - 1) filename.bytes.length :=
    List.length_take
  unfold fileNameLen at length ⊢
  omega

theorem open_inside (boot : Boot start) (run : Reaches (fun disk op => op.Ready disk) start ops s.fs) :
    Meets (· = Stop.outOfMemory) (openStores user pcb) s fun stores _ =>
      Inside stores ↔ StringFits user s pcb .openFile := by
  obtain ⟨others, dir, es, lost, parked, catalog⟩ := reaches_catalog boot run
  unfold openStores
  rw [meets_next (show getPcb pcb s = .ok (s.sched.pcbs pcb, s) from rfl)]
  unfold StringFits
  rw [catalog_entries catalog]
  generalize user.string (s.sched.pcbs pcb).regs.ebx = filename
  apply meets_call (meets_onFs (openResult_run filename parked catalog))
  rintro ⟨result, kept⟩ s' ⟨fs, rfl, ⟨copied, found, closed⟩ | ⟨none, other⟩⟩
  · obtain rfl : kept = some (normalizeFilename filename) := copied
    apply meets_pure.mpr
    rw [inside_strcpy]
    show (normalizeFilename filename).bytes.length + 1 < fileNameLen ↔ _
    rw [normalized_fits]
    constructor
    · intro fits _ _ _ _
      exact fits
    · intro fits
      obtain ⟨i, here⟩ := Option.ne_none_iff_exists'.mp found
      obtain ⟨small, named⟩ := position_some here
      have member := List.getElem_mem small
      apply fits es[i].record (List.mem_map.mpr ⟨es[i], member, rfl⟩) named
      exact Bool.eq_false_iff.mpr fun opened => closed ⟨es[i], member, named, opened⟩
  · obtain rfl : kept = Option.none := none
    apply meets_pure.mpr
    constructor
    · intro _ r inside named free
      obtain ⟨e, member, rfl⟩ := List.mem_map.mp inside
      rcases other with missing | ⟨e', member', named', opened⟩
      · exact absurd named (position_none missing e member)
      · rw [entry_unique catalog.names member member' (named.trans named'.symm), opened] at free
        exact absurd free (by decide)
    · intro _ store stored
      exact absurd stored List.not_mem_nil

/-- A call stays inside the buffers exactly for strings of these lengths. -/
theorem strings_inside (boot : Boot start) (run : Reaches (fun disk op => op.Ready disk) start ops s.fs)
    (call : StringCall) :
    Meets (· = Stop.outOfMemory) (call.stores user pcb) s fun stores _ =>
      Inside stores ↔ StringFits user s pcb call := by
  cases call with
  | printf => exact printf_inside
  | exec => exact exec_inside
  | openFile => exact open_inside boot run

end

/-- A process that passes the same string whatever it asks for. -/
def passing (string : CString) : UserSpace where
  string := fun _ => string
  bytes := fun _ _ => []
  malloc := fun _ => none
  entry := userStart
  cr3 := 0

theorem strings_inside_start : ∃ s : System,
    Meets (· = Stop.outOfMemory) (StringCall.exec.stores (passing readmeName) 0) s fun stores _ =>
      Inside stores ↔ StringFits (passing readmeName) s 0 .exec := by
  obtain ⟨fs, _, _, run, _⟩ := clear_step fun disk op => op.Ready disk
  exact ⟨freshSystem fs, strings_inside (s := freshSystem fs) boot_clear run .exec⟩

def testMalloc : CString := ⟨textBytes "test_malloc.exe", by decide⟩

/-- The name of this program has 15 characters, and `strcpy` stores 17. -/
theorem strings_inside_test_malloc : ¬ ∀ start s ops user pcb call stores s', Boot start →
    Reaches (fun _ _ => True) start ops s.fs → StringCall.stores user pcb call s = .ok (stores, s') →
      Inside stores := by
  intro claim
  obtain ⟨fs, _, _, run, _⟩ := clear_step fun _ _ => True
  have inside := claim clearBoot (freshSystem fs) [] (passing testMalloc) 0 .exec _ _ boot_clear run rfl
  have last : (⟨.processName, 16⟩ : BufferStore) ∈ storesTo .execFilename (strcpyStores testMalloc) ++
      storesTo .processName (strcpyStores testMalloc) := by decide
  exact absurd (inside _ last) (by decide)

end Delos.Guarantees
