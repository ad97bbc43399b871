import Delos.Source.ElfLoader

/-!
# The pages of a segment

How many pages `allocate_segment` puts on its list, and that it takes as many as it says. A
NULL from `list_get` is the only reason to stop that is excluded: frames may run out, and
the image may be too short.
-/
namespace Delos.Invariants
open Source Lib

/-- No `list_get` returns NULL. -/
def Listed {α : Type} (x : Mapper α) (s : Paging) (post : α → Paging → Prop) : Prop := Meets (fun e => e ≠ .nullPage) x s post

section
variable {s : Paging} {a i j left : Nat}

theorem kernelAddr_listed : Listed (kernelAddr a) s fun _ _ => True := by
  refine meets_call (meets_get.mpr rfl) ?_
  rintro _ _ rfl
  by_cases low : a < identityEnd
  · rw [if_pos low]
    exact meets_pure.mpr trivial
  · rw [if_neg low]
    split
    · exact meets_pure.mpr trivial
    · exact meets_throw.mpr MapFault.noConfusion

theorem readEntry_listed : Listed (readEntry a) s fun _ _ => True :=
  meets_call kernelAddr_listed fun _ _ _ => meets_call (meets_get.mpr rfl) fun _ _ _ => meets_pure.mpr trivial

theorem writeEntry_listed {word : Nat} : Listed (writeEntry a word) s fun _ _ => True :=
  meets_call kernelAddr_listed fun _ _ _ => meets_modify.mpr trivial

theorem updateEntry_listed {f : Nat → Nat} : Listed (updateEntry a f) s fun _ _ => True :=
  meets_call readEntry_listed fun _ _ _ => writeEntry_listed

theorem clearEntry_listed : Listed (clearEntry a) s fun _ _ => True :=
  meets_call writeEntry_listed fun _ _ _ => updateEntry_listed

theorem fillEntry_listed {addr user : Nat} : Listed (fillEntry a addr user) s fun _ _ => True :=
  meets_call updateEntry_listed fun _ _ _ => meets_call updateEntry_listed fun _ _ _ =>
    meets_call updateEntry_listed fun _ _ _ => updateEntry_listed

theorem mapEntry_listed {addr : Nat} : Listed (mapEntry a addr) s fun _ _ => True :=
  meets_call updateEntry_listed fun _ _ _ => meets_call updateEntry_listed fun _ _ _ =>
    meets_call updateEntry_listed fun _ _ _ => updateEntry_listed

theorem clearTable_listed (left : Nat) : Listed (clearTable a left i) s fun _ _ => True := by
  induction left generalizing s i with
  | zero => exact meets_pure.mpr trivial
  | succ left ih => exact meets_call clearEntry_listed fun _ _ _ => ih

theorem pageTable_listed : Listed (pageTable i) s fun _ _ => True :=
  meets_call readEntry_listed fun _ _ _ => meets_pure.mpr trivial

theorem pageFrame_listed : Listed (pageFrame a) s fun _ _ => True :=
  meets_call pageTable_listed fun _ _ _ => meets_call readEntry_listed fun _ _ _ => meets_pure.mpr trivial

theorem frameWord_listed : Listed (frameWord i) s fun _ _ => True := by
  refine meets_call (meets_get.mpr rfl) ?_
  rintro _ _ rfl
  split
  · exact meets_pure.mpr trivial
  · exact meets_throw.mpr MapFault.noConfusion

theorem setFrameWord_listed {word : BitVec 32} : Listed (setFrameWord i word) s fun _ _ => True := by
  refine meets_call (meets_get.mpr rfl) ?_
  rintro _ _ rfl
  split
  · exact meets_modify.mpr trivial
  · exact meets_throw.mpr MapFault.noConfusion

theorem frameSetState_listed {occupied : Nat} : Listed (frameSetState i occupied) s fun _ _ => True := by
  refine meets_call frameWord_listed fun word _ _ => ?_
  split
  · exact setFrameWord_listed
  split
  · exact setFrameWord_listed
  · exact meets_pure.mpr trivial

theorem allocateFrameLoop_listed (left : Nat) : Listed (allocateFrameLoop left i) s fun _ _ => True := by
  induction left generalizing s i with
  | zero => exact meets_throw.mpr MapFault.noConfusion
  | succ left ih =>
    refine meets_call frameWord_listed fun word _ _ => ?_
    split
    · exact meets_call frameSetState_listed fun _ _ _ => meets_pure.mpr trivial
    · exact ih

theorem allocateFrame_listed : Listed allocateFrame s fun _ _ => True :=
  meets_call (meets_get.mpr rfl) fun _ _ _ => allocateFrameLoop_listed _

theorem allocatePageTable_listed {user : Nat} : Listed (allocatePageTable i user) s fun _ _ => True := by
  refine meets_call readEntry_listed fun word _ _ => ?_
  split
  · exact meets_pure.mpr trivial
  · exact meets_call (meets_get.mpr rfl) fun _ _ _ => meets_call (clearTable_listed _) fun _ _ _ =>
      meets_call fillEntry_listed fun _ _ _ => meets_bind.mpr (meets_modify.mpr (meets_pure.mpr trivial))

theorem allocatePageAt_listed {user : Nat} : Listed (allocatePageAt i j user) s fun _ _ => True := by
  refine meets_call allocateFrame_listed fun frame _ _ => ?_
  refine meets_call readEntry_listed fun word s1 _ => ?_
  have table : Listed (runIf (entryAddr word = unusedAddr) do let _ ← allocatePageTable i user) s1 fun _ _ => True := by
    unfold runIf
    split
    · exact meets_call allocatePageTable_listed fun _ _ _ => meets_pure.mpr trivial
    · exact meets_pure.mpr trivial
  refine meets_call table fun _ _ _ => meets_call pageTable_listed fun _ _ _ => meets_call readEntry_listed fun page _ _ => ?_
  split
  · exact meets_pure.mpr trivial
  · exact meets_call fillEntry_listed fun _ _ _ => meets_pure.mpr trivial

theorem firstUnused_listed {table : Nat} (left : Nat) : Listed (firstUnused table left j) s fun _ _ => True := by
  induction left generalizing s j with
  | zero => exact meets_pure.mpr trivial
  | succ left ih =>
    refine meets_call readEntry_listed fun page _ _ => ?_
    split
    · exact meets_pure.mpr trivial
    · exact ih

theorem allocatePageLoop_listed {user : Nat} (left : Nat) : Listed (allocatePageLoop user left i) s fun _ _ => True := by
  induction left generalizing s i with
  | zero => exact meets_throw.mpr MapFault.noConfusion
  | succ left ih =>
    unfold allocatePageLoop
    split
    · exact ih
    refine meets_call readEntry_listed fun word _ _ => ?_
    split
    · refine meets_call (firstUnused_listed _) fun found _ _ => ?_
      split
      · exact allocatePageAt_listed
      · exact ih
    · exact meets_call allocatePageTable_listed fun _ _ _ => allocatePageAt_listed

theorem allocatePage_listed {user : Nat} : Listed (allocatePage user) s fun _ _ => True := allocatePageLoop_listed _

/-! ## The list of pages -/

/-- `list_get(size - 1)` has an element to return. -/
def Indexed (lists : SegmentLists) : Prop := lists.pageTableIndexes ≠ [] → lists.pageTables ≠ []

variable {dir table : Nat} {lists : SegmentLists} {pages : List Nat}

theorem segmentTable_listed (indexed : Indexed lists) :
    Listed (segmentTable dir i lists) s fun r _ => Indexed r.2 ∧ r.2.dataPages = lists.dataPages := by
  unfold segmentTable
  split
  · rename_i known
    have some : lists.pageTables ≠ [] := indexed (List.ne_nil_of_mem known)
    rw [List.getLast?_eq_getLast_of_ne_nil some]
    exact meets_pure.mpr ⟨indexed, rfl⟩
  · refine meets_call allocatePage_listed fun page _ _ => meets_call (clearTable_listed _) fun _ _ _ =>
      meets_call pageFrame_listed fun _ _ _ => meets_call mapEntry_listed fun _ _ _ => meets_pure.mpr ⟨fun _ => ?_, rfl⟩
    simp

theorem segmentPages_listed (left : Nat) :
    Listed (segmentPages table left j pages) s fun pages' _ => pages'.length = pages.length + left := by
  induction left generalizing s j pages with
  | zero => exact meets_pure.mpr rfl
  | succ left ih =>
    refine meets_call allocatePage_listed fun page _ _ => meets_call pageFrame_listed fun _ _ _ =>
      meets_call mapEntry_listed fun _ s1 _ => meets_mono ih fun pages' _ length => ?_
    rw [length, List.length_append, List.length_singleton]
    omega

/-- The pages from the first one of the segment, or of table `i`, to the last one. -/
theorem segmentTables_listed {first last : Nat} (left : Nat) (indexed : Indexed lists) (from_first : first / 0x400000 ≤ i)
    (to_last : i + left = last / 0x400000 + 1) :
    Listed (segmentTables dir first last left i lists) s fun lists' _ => Indexed lists' ∧
      lists'.dataPages.length = lists.dataPages.length + (last / 0x1000 + 1 - max (first / 0x1000) (0x400 * i)) := by
  induction left generalizing s i lists with
  | zero =>
    refine meets_pure.mpr ⟨indexed, ?_⟩
    omega
  | succ left ih =>
    refine meets_call (segmentTable_listed indexed) fun found _ kept => meets_call (segmentPages_listed _) fun pages _ length => ?_
    refine meets_mono (ih kept.1 (by omega) (by omega)) fun lists' _ result => ⟨result.1, ?_⟩
    rw [result.2, length, kept.2, pageTableEntries]
    split <;> split <;> omega

/-! ## The copies -/

variable {data bytes : List UInt8} {offset size : Nat}

theorem codeBytes_listed : Listed (codeBytes data offset size) s fun _ _ => True := by
  change Listed (if ((data.drop offset).take size).length = size then pure _ else throw .wildProgram) s _
  split
  · exact meets_pure.mpr trivial
  · exact meets_throw.mpr MapFault.noConfusion

theorem memcpyTo_listed (bytes : List UInt8) : Listed (memcpyTo a bytes) s fun _ _ => True := by
  induction bytes generalizing s a with
  | nil => exact meets_pure.mpr trivial
  | cons b rest ih => exact meets_call kernelAddr_listed fun _ _ _ => meets_bind.mpr (meets_modify.mpr ih)

theorem copyPage_listed (some : pages ≠ []) : Listed (copyPage data offset size pages) s fun rest _ => rest.length + 1 = pages.length := by
  obtain ⟨page, rest, rfl⟩ := List.exists_cons_of_ne_nil some
  exact meets_call codeBytes_listed fun bytes _ _ => meets_call (memcpyTo_listed bytes) fun _ _ _ =>
    meets_call pageTable_listed fun _ _ _ => meets_call clearEntry_listed fun _ _ _ => meets_pure.mpr rfl

theorem copyPages_listed (left : Nat) (enough : left ≤ pages.length) :
    Listed (copyPages data left offset pages) s fun r _ => r.2.length + left = pages.length := by
  induction left generalizing s offset pages with
  | zero => exact meets_pure.mpr rfl
  | succ left ih =>
    have some : pages ≠ [] := List.length_pos_iff.mp (by omega)
    refine meets_call (copyPage_listed some) fun rest _ length => meets_mono (ih (by omega)) fun r _ result => ?_
    omega

end

end Delos.Invariants
