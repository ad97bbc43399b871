import Delos.Source.ElfLoader

/-!
# Single entries of page tables

An entry is one word of the physical memory. An access to it goes through the address it
resolves to, and the functions that clear and fill it change no other byte.
-/
namespace Delos.Invariants
open Lib Source

/-- An entry of a table that is not used. -/
def unusedWord : Nat := setEntryAddr unusedAddr 0

/-- An entry in use: present and writable. -/
def usedWord (addr user : Nat) : Nat := addr * 0x1000 + user % 2 * 4 + 3

section
variable {addr user word : Nat}

theorem entryAddr_unusedWord : entryAddr unusedWord = unusedAddr := by decide

theorem entryAddr_usedWord (addr user : Nat) : entryAddr (usedWord addr user) = addr := by
  unfold entryAddr usedWord
  omega

theorem usedWord_present (addr user : Nat) : entryBit 0 (usedWord addr user) = 1 := by
  unfold entryBit usedWord
  omega

theorem usedWord_lt (small : addr ≤ unusedAddr) (user : Nat) : usedWord addr user < 2 ^ 32 := by
  unfold unusedAddr at small
  unfold usedWord
  omega

theorem usedWord_ne (different : addr ≠ unusedAddr) (user : Nat) : usedWord addr user ≠ unusedWord := by
  intro same
  apply different
  rw [← entryAddr_usedWord addr user, same, entryAddr_unusedWord]

theorem setEntryBit_lt (bit : Nat) (low : bit = 0 ∨ bit = 1 ∨ bit = 2) (v : Nat) (small : word < 2 ^ 32) :
    setEntryBit bit v word < 2 ^ 32 := by
  unfold setEntryBit
  obtain rfl | rfl | rfl := low <;> omega

theorem setEntryAddr_lt (addr word : Nat) : setEntryAddr addr word < 2 ^ 32 := by
  unfold setEntryAddr
  omega

/-- An entry of a process. -/
def mappedWord (addr word : Nat) : Nat :=
  setEntryBit 0 1 (setEntryBit 2 1 (setEntryBit 1 1 (setEntryAddr addr word)))

/-- The word is that of a present entry. -/
def Maps (word f : Nat) : Prop := entryAddr word = f ∧ entryBit 0 word = 1

theorem entryAddr_setEntryBit {bit : Nat} (low : bit = 0 ∨ bit = 1 ∨ bit = 2) (v word : Nat) :
    entryAddr (setEntryBit bit v word) = entryAddr word := by
  unfold entryAddr setEntryBit
  obtain rfl | rfl | rfl := low <;> omega

theorem maps_mappedWord (small : addr ≤ unusedAddr) (word : Nat) : Maps (mappedWord addr word) addr := by
  constructor
  · rw [mappedWord, entryAddr_setEntryBit (by decide), entryAddr_setEntryBit (by decide),
      entryAddr_setEntryBit (by decide)]
    unfold unusedAddr at small
    unfold entryAddr setEntryAddr
    omega
  · unfold mappedWord entryBit
    generalize setEntryBit 2 1 (setEntryBit 1 1 (setEntryAddr addr word)) = before
    unfold setEntryBit
    omega

/-- The four fields that are set make the word. -/
theorem filled_eq (small : addr ≤ unusedAddr) (user : Nat) :
    setEntryBit 2 user (setEntryBit 0 1 (setEntryBit 1 1 (setEntryAddr addr unusedWord))) = usedWord addr user := by
  have unused : unusedWord = 0xFFFFF000 := by decide
  unfold unusedAddr at small
  have first : setEntryAddr addr unusedWord = addr * 0x1000 := by
    rw [unused, setEntryAddr]
    omega
  have second : setEntryBit 1 1 (addr * 0x1000) = addr * 0x1000 + 2 := by
    unfold setEntryBit
    omega
  have third : setEntryBit 0 1 (addr * 0x1000 + 2) = addr * 0x1000 + 3 := by
    unfold setEntryBit
    omega
  rw [first, second, third]
  unfold setEntryBit usedWord
  omega

end

/-- The memories differ in the word at `p` only. -/
structure Wrote (m m' : ByteMemory) (p word : Nat) : Prop where
  origin : m'.origin = m.origin
  here : m'.read32 p = word
  bytes : ∀ b, b < p ∨ p + 4 ≤ b → m'.readByte b = m.readByte b

section
variable {m m' m'' : ByteMemory} {p q word word' : Nat}

theorem wrote_write32 (mapped : m.origin ≤ p) (small : word < 2 ^ 32) : Wrote m (m.write32 p word) p word :=
  ⟨ByteMemory.origin_write32 m p word, by rw [ByteMemory.read32_write32_same m p word mapped, Nat.mod_eq_of_lt small],
    fun b outside => ByteMemory.readByte_write32_outside m p b word outside⟩

theorem Wrote.trans (first : Wrote m m' p word) (second : Wrote m' m'' p word') : Wrote m m'' p word' :=
  ⟨second.origin.trans first.origin, second.here, fun b outside =>
    (second.bytes b outside).trans (first.bytes b outside)⟩

theorem Wrote.other (wrote : Wrote m m' p word) (outside : q + 4 ≤ p ∨ p + 4 ≤ q) : m'.read32 q = m.read32 q :=
  ByteMemory.read32_congr m m' q fun i small => wrote.bytes (q + i) (by omega)

end

section
variable {s : Paging} {a p word : Nat}

/-- `a` is the entry at `p`, and stays so when the entry is written. -/
def Resolves (s : Paging) (a p : Nat) : Prop :=
  s.memory.origin ≤ p ∧ ∀ m : ByteMemory, m.origin = s.memory.origin →
    (∀ b, b < p ∨ p + 4 ≤ b → m.readByte b = s.memory.readByte b) →
      kernelAddr a { s with memory := m } = .ok (p, { s with memory := m })

theorem kernelAddr_identity (low : a < identityEnd) : kernelAddr a s = .ok (a, s) := by
  show (if a < identityEnd then _ else _ : Mapper _) s = _
  rw [if_pos low]
  rfl

theorem resolves_identity (low : a < identityEnd) (mapped : s.memory.origin ≤ a) : Resolves s a a :=
  ⟨mapped, fun _ _ _ => kernelAddr_identity low⟩

theorem Resolves.run (resolves : Resolves s a p) : kernelAddr a s = .ok (p, s) :=
  resolves.2 s.memory rfl fun _ _ => rfl

theorem Resolves.wrote {m : ByteMemory} (resolves : Resolves s a p) (wrote : Wrote s.memory m p word) :
    Resolves { s with memory := m } a p := by
  refine ⟨wrote.origin.trans_le resolves.1, fun m' origin bytes => ?_⟩
  exact resolves.2 m' (origin.trans wrote.origin) fun b outside => (bytes b outside).trans (wrote.bytes b outside)

theorem readEntry_run (resolves : Resolves s a p) : readEntry a s = .ok (s.memory.read32 p, s) := by
  unfold readEntry
  rw [run_bind resolves.run]
  rfl

theorem writeEntry_run (resolves : Resolves s a p) (small : word < 2 ^ 32) :
    ∃ m, writeEntry a word s = .ok ((), { s with memory := m }) ∧ Wrote s.memory m p word := by
  refine ⟨s.memory.write32 p word, ?_, wrote_write32 resolves.1 small⟩
  unfold writeEntry
  rw [run_bind resolves.run]
  rfl

theorem updateEntry_run {f : Nat → Nat} (resolves : Resolves s a p) (small : f (s.memory.read32 p) < 2 ^ 32) :
    ∃ m, updateEntry a f s = .ok ((), { s with memory := m }) ∧ Wrote s.memory m p (f (s.memory.read32 p)) := by
  obtain ⟨m, run, wrote⟩ := writeEntry_run resolves small
  refine ⟨m, ?_, wrote⟩
  unfold updateEntry
  rw [run_bind (readEntry_run resolves)]
  exact run

/-- An update, and what follows it on the same entry. -/
theorem updateEntry_next {f : Nat → Nat} {rest : Mapper Unit} {value : Nat} (resolves : Resolves s a p)
    (small : f (s.memory.read32 p) < 2 ^ 32)
    (next : ∀ m, m.read32 p = f (s.memory.read32 p) → Resolves { s with memory := m } a p →
      ∃ m', rest { s with memory := m } = .ok ((), { s with memory := m' }) ∧ Wrote m m' p value) :
    ∃ m', (updateEntry a f >>= fun _ => rest) s = .ok ((), { s with memory := m' }) ∧ Wrote s.memory m' p value := by
  obtain ⟨m, run, wrote⟩ := updateEntry_run resolves small
  obtain ⟨m', run', wrote'⟩ := next m wrote.here (resolves.wrote wrote)
  exact ⟨m', (run_bind run).trans run', wrote.trans wrote'⟩

theorem clearEntry_run (resolves : Resolves s a p) :
    ∃ m, clearEntry a s = .ok ((), { s with memory := m }) ∧ Wrote s.memory m p unusedWord := by
  obtain ⟨zeroed, zero, wrote⟩ := writeEntry_run resolves (show 0 < 2 ^ 32 by decide)
  obtain ⟨m, mark, wrote'⟩ := updateEntry_run (f := setEntryAddr unusedAddr) (resolves.wrote wrote)
    (by rw [wrote.here]; decide)
  refine ⟨m, ?_, ?_⟩
  · unfold clearEntry
    rw [run_bind zero]
    exact mark
  · rw [wrote.here] at wrote'
    exact wrote.trans wrote'

theorem fillEntry_run (addr user : Nat) (resolves : Resolves s a p) (unused : s.memory.read32 p = unusedWord)
    (small : addr ≤ unusedAddr) :
    ∃ m, fillEntry a addr user s = .ok ((), { s with memory := m }) ∧
      Wrote s.memory m p (usedWord addr user) := by
  have filled := filled_eq small user
  have first : setEntryAddr addr unusedWord < 2 ^ 32 := setEntryAddr_lt addr unusedWord
  have second := setEntryBit_lt 1 (by decide) 1 first
  have third := setEntryBit_lt 0 (by decide) 1 second
  have fourth := setEntryBit_lt 2 (by decide) user third
  refine updateEntry_next resolves (by rw [unused]; exact first) fun m1 here1 resolves1 => ?_
  rw [unused] at here1
  refine updateEntry_next resolves1 (by rw [here1]; exact second) fun m2 here2 resolves2 => ?_
  rw [here1] at here2
  refine updateEntry_next resolves2 (by rw [here2]; exact third) fun m3 here3 resolves3 => ?_
  rw [here2] at here3
  obtain ⟨m4, run, wrote⟩ := updateEntry_run resolves3 (by rw [here3]; exact fourth)
  rw [here3, filled] at wrote
  exact ⟨m4, run, wrote⟩

/-- An entry of a process: the other bits of the word stay. -/
theorem mapEntry_run {addr : Nat} (resolves : Resolves s a p) :
    ∃ m, mapEntry a addr s = .ok ((), { s with memory := m }) ∧
      Wrote s.memory m p (mappedWord addr (s.memory.read32 p)) := by
  have first := setEntryAddr_lt addr (s.memory.read32 p)
  have second := setEntryBit_lt 1 (by decide) 1 first
  have third := setEntryBit_lt 2 (by decide) 1 second
  have fourth := setEntryBit_lt 0 (by decide) 1 third
  refine updateEntry_next resolves first fun m1 here1 resolves1 => ?_
  refine updateEntry_next resolves1 (by rw [here1]; exact second) fun m2 here2 resolves2 => ?_
  rw [here1] at here2
  refine updateEntry_next resolves2 (by rw [here2]; exact third) fun m3 here3 resolves3 => ?_
  rw [here2] at here3
  obtain ⟨m4, run, wrote⟩ := updateEntry_run resolves3 (by rw [here3]; exact fourth)
  rw [here3] at wrote
  exact ⟨m4, run, wrote⟩

end

end Delos.Invariants
