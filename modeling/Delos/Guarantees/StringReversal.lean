import Delos.Invariants.MemoryBlocks

/-!
# reverse

The last index is the length minus one, and both are unsigned: for the empty string it is the largest
word, and the first swap is already outside the string. Every other string is reversed in place.
-/
namespace Delos.Guarantees
open Source Invariants

def reversed (s : CString) : CString := ⟨s.bytes.reverse, fun nul => s.plain (List.mem_reverse.mp nul)⟩

/-- The buffer, the indices that were used, and every other byte. -/
structure Reversed (m m' : Memory) (str : Address) (s : CString) (used : List UInt32) : Prop where
  text : TextAt m' str (reversed s)
  within : ∀ i ∈ used, i.toNat ≤ s.bytes.length
  kept : ∀ a, (∀ i ≤ s.bytes.length, a ≠ cell str i) → m' a = m a

def ReversesInPlace (m : Memory) (str : Address) (s : CString) : Prop :=
  ∃ used m', Memory.reverse m str = some (used, m') ∧ Reversed m m' str s used ∧
    ∃ used' m'', Memory.reverse m' str = some (used', m'') ∧ TextAt m'' str s

section
variable {m m' : Memory} {str : Address} {s : CString}

theorem reversed_reversed : reversed (reversed s) = s := by
  cases s
  simp [reversed]

/-- What the swaps leave behind. -/
theorem reversed_of_cells (stored : TextAt m str s) (characters : s.bytes ≠ [])
    (cells : ∀ i < wordModulus, m' (cell str i) =
      if 0 ≤ i ∧ i ≤ s.bytes.length - 1 then m (cell str (0 + (s.bytes.length - 1) - i)) else m (cell str i)) :
    TextAt m' str (reversed s) ∧ ∀ a, (∀ i ≤ s.bytes.length, a ≠ cell str i) → m' a = m a := by
  have positive : 0 < s.bytes.length := List.length_pos_iff.mpr characters
  have short := stored.length_lt
  have length : (reversed s).bytes.length = s.bytes.length := List.length_reverse
  refine ⟨⟨?_, ?_⟩, ?_⟩
  · intro i inside
    rw [length] at inside
    have place : 0 + (s.bytes.length - 1) - i = s.bytes.length - 1 - i := by omega
    have found : (reversed s).bytes[i]? = s.bytes[s.bytes.length - 1 - i]? := List.getElem?_reverse inside
    rw [found, cells i (by omega), if_pos (by omega), place]
    exact stored.text _ (by omega)
  · rw [length, cells _ short, if_neg (by omega)]
    exact stored.terminator
  · intro a outside
    obtain ⟨i, small, rfl⟩ := exists_cell str a
    have behind : ¬ i ≤ s.bytes.length := fun inside => outside i inside rfl
    rw [cells i small, if_neg (by omega)]

theorem reverse_run (stored : TextAt m str s) (characters : s.bytes ≠ []) :
    ∃ used m', Memory.reverse m str = some (used, m') ∧ Reversed m m' str s used := by
  have positive : 0 < s.bytes.length := List.length_pos_iff.mpr characters
  have short := stored.length_lt
  have fuel : wordModulus = (wordModulus - 1) + 1 := by decide
  have last : UInt32.ofNat s.bytes.length - 1 = UInt32.ofNat (s.bytes.length - 1) := (UInt32.ofNat_sub positive).symm
  obtain ⟨used, m', run, within, cells⟩ := reverseLoop_run m str
    (show s.bytes.length - 1 < 0 + 2 * (wordModulus - 1) by omega) (by decide) (by omega)
  obtain ⟨text, kept⟩ := reversed_of_cells stored characters cells
  refine ⟨(List.range (s.bytes.length + 1)).map UInt32.ofNat ++ used, m', ?_, text, ?_, kept⟩
  · rw [← fuel] at run
    unfold Memory.reverse
    rw [strlen_run stored]
    simp only [Option.bind_eq_bind, Option.bind_some, last]
    rw [show (0 : UInt32) = UInt32.ofNat 0 from rfl, run]
    rfl
  · intro i among
    rcases List.mem_append.mp among with read | swapped
    · obtain ⟨j, small, rfl⟩ := List.mem_map.mp read
      have inside := List.mem_range.mp small
      rw [UInt32.toNat_ofNat_of_lt' (by unfold wordModulus at short; change j < 2 ^ 32; omega)]
      omega
    · have inside := within i swapped
      omega

/-- The first swap has the largest word as an index. -/
theorem empty_not_reversed (stored : TextAt m str s) (none : s.bytes = []) : ¬ ReversesInPlace m str s := by
  rintro ⟨used, m', run, result, _⟩
  obtain ⟨left, fuel⟩ : ∃ left, wordModulus = left + 1 := ⟨wordModulus - 1, by decide⟩
  have swaps : (0 : UInt32) < UInt32.ofNat ([] : List UInt8).length - 1 := by decide
  unfold Memory.reverse at run
  rw [strlen_run stored, none, fuel] at run
  simp only [Option.bind_eq_bind, Option.bind_some, Memory.reverseLoop, if_pos swaps] at run
  obtain ⟨⟨swapped, final⟩, loop, rest⟩ := Option.bind_eq_some_iff.mp run
  obtain ⟨⟨more, _⟩, _, first⟩ := Option.map_eq_some_iff.mp loop
  have used_all : [UInt32.ofNat 0] ++ swapped = used := congrArg Prod.fst (Option.some.inj rest)
  have swapped_all : 0 :: (UInt32.ofNat 0 - 1) :: more = swapped := congrArg Prod.fst first
  have largest : UInt32.ofNat 0 - 1 ∈ used := by
    rw [← used_all, ← swapped_all]
    simp
  have inside := result.within _ largest
  rw [none] at inside
  exact absurd inside (by decide)

end

theorem reverse_reverses (m : Memory) (str : Address) (s : CString) (stored : TextAt m str s) :
    ReversesInPlace m str s ↔ s.bytes ≠ [] := by
  constructor
  · intro inPlace none
    exact empty_not_reversed stored none inPlace
  · intro characters
    obtain ⟨used, m', run, result⟩ := reverse_run stored characters
    have still : (reversed s).bytes ≠ [] := mt List.reverse_eq_nil_iff.mp characters
    obtain ⟨used', m'', back, restored⟩ := reverse_run result.text still
    have text := restored.text
    rw [reversed_reversed] at text
    exact ⟨used, m', run, result, used', m'', back, text⟩

/-- "ip", between bytes that are not zero. -/
theorem reverse_reverses_ip : TextAt (fun a => if a = 0x1002 then 0 else if a = 0x1000 then 0x69 else 0x70) 0x1000 ⟨textBytes "ip", by decide⟩ ∧
    (ReversesInPlace (fun a => if a = 0x1002 then 0 else if a = 0x1000 then 0x69 else 0x70) 0x1000 ⟨textBytes "ip", by decide⟩ ↔
      textBytes "ip" ≠ []) :=
  ⟨⟨by decide, by decide⟩, reverse_reverses _ 0x1000 ⟨textBytes "ip", by decide⟩ ⟨by decide, by decide⟩⟩

theorem reverse_empty : TextAt (fun a => if a = 0x1000 then 0 else 1) 0x1000 ⟨[], by decide⟩ ∧
    ¬ ReversesInPlace (fun a => if a = 0x1000 then 0 else 1) 0x1000 ⟨[], by decide⟩ :=
  have stored : TextAt (fun a => if a = 0x1000 then 0 else 1) 0x1000 ⟨[], by decide⟩ := ⟨by decide, by decide⟩
  ⟨stored, empty_not_reversed stored rfl⟩

end Delos.Guarantees
