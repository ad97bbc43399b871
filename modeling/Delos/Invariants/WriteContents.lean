import Delos.Invariants.FileFlags
import Delos.Invariants.DiskDecoding
import Delos.Invariants.FileWrite

/-!
# The contents of a file behind a write

`append_data` takes the last data cluster for the one in which the file ends. That is
right as long as the size has not come to a multiple of the cluster size.
-/
namespace Delos.Invariants
open Lib Source

section
variable {disk disk' : ByteMemory} {e e' : Entry} {data buffer : List UInt8} {bytes offset : Nat}

/-! ## Appending -/

/-- The file ends in its last data cluster and does not fill it. -/
def Entry.EndsInLast (e : Entry) : Prop := e.data.length = e.record.size / clusterSize + 1

theorem length_data : e.data.length = e.cells.length - 1 := List.length_dropLast

theorem appendStart_ends (ends : e.EndsInLast) : appendStart e = e.record.size := by
  unfold Entry.EndsInLast at ends
  rw [length_data] at ends
  unfold appendStart clusterSize at *
  omega

/-- What an append that is not refused leaves of the file. -/
structure AppendedTo (disk disk' : ByteMemory) (e : Entry) (added : List UInt8) (e' : Entry) : Prop where
  size : e'.record.size = e.record.size + added.length
  content : (dataBytes disk' e'.data).take e'.record.size =
    (dataBytes disk e.data).take e.record.size ++ added

theorem appended_content (appended : Appended disk disk' e data bytes e')
    (room : appendNeed e.record.size bytes ≤ lowFree disk) (ends : bytes = 0 ∨ e.EndsInLast)
    (word : e.record.size + bytes < wordModulus) (enough : bytes ≤ data.length) :
    AppendedTo disk disk' e (data.take bytes) e' := by
  have length : (data.take bytes).length = bytes := List.length_take_of_le enough
  cases appended with
  | refused full _ => omega
  | stored cells _ _ content idle =>
    have size : (e.record.setSize ((e.record.size + bytes) % wordModulus)).size =
        e.record.size + bytes := by
      rw [Nat.mod_eq_of_lt word]
      exact Record.size_setSize _ _ word
    constructor
    · rw [length]
      exact size
    · simp only [size]
      show (dataBytes disk' cells.dropLast).take (e.record.size + bytes) = _
      by_cases none : bytes = 0
      · rw [idle none, none, List.take_zero, List.append_nil, Nat.add_zero]
      · rw [appendStart_ends (ends.resolve_left none)] at content
        exact content

/-- The next append finds the end of the file as well. -/
theorem appended_ends (appended : Appended disk disk' e data bytes e')
    (room : appendNeed e.record.size bytes ≤ lowFree disk) (ends : e.EndsInLast)
    (word : e.record.size + bytes < wordModulus)
    (unfilled : bytes = 0 ∨ (e.record.size + bytes) % clusterSize ≠ 0) : e'.EndsInLast := by
  unfold Entry.EndsInLast at ends ⊢
  rw [length_data] at ends ⊢
  cases appended with
  | refused full _ => omega
  | stored cells length _ _ _ =>
    simp only [Nat.mod_eq_of_lt word, Record.size_setSize _ _ word]
    rw [length]
    unfold appendNeed getClusterCountNeeded bytesInLast clusterSize at *
    split <;> omega

/-! ## Inserting -/

/-- What an insertion needs of the file, so that its two appends find the right place. -/
structure Insertable (free size offset len count : Nat) : Prop where
  inside : offset < size
  ends : count = size / clusterSize + 1
  unfilled : size % clusterSize ≠ 0
  aligned : len = 0 ∨ (offset + len) % clusterSize ≠ 0
  room : getClusterCountNeeded (size + len) ≤ free

section
variable {free size len count : Nat}

theorem Insertable.tail (insertable : Insertable free size offset len count)
    (word : size + clusterSize < wordModulus) :
    tailLength size offset count = size - offset := by
  obtain ⟨inside, ends, _, _, _⟩ := insertable
  unfold tailLength
  unfold clusterSize wordModulus at *
  omega

theorem Insertable.rooms (insertable : Insertable free size offset len count) :
    appendNeed offset len ≤ cutFree free offset count ∧
      appendNeed (offset + len) (size - offset) ≤ cutFree free offset count - appendNeed offset len := by
  obtain ⟨inside, ends, unfilled, aligned, room⟩ := insertable
  unfold cutFree appendNeed getClusterCountNeeded bytesInLast clusterSize at *
  constructor
  · split at room <;> split <;> omega
  · split at room <;> split <;> split <;> omega

theorem Insertable.word (insertable : Insertable free size offset len count) (few : free ≤ takenCluster) :
    size + len + clusterSize < wordModulus := by
  obtain ⟨_, _, _, _, room⟩ := insertable
  unfold getClusterCountNeeded clusterSize wordModulus takenCluster at *
  split at room <;> omega

theorem Insertable.ready (insertable : Insertable free size offset len count) (few : free ≤ takenCluster) :
    InsertReady free size offset len count := by
  have word := insertable.word few
  have tail := insertable.tail (by omega)
  obtain ⟨first, second⟩ := insertable.rooms
  obtain ⟨inside, ends, unfilled, aligned, room⟩ := insertable
  constructor
  · unfold clusterSize at *
    omega
  · unfold getClusterCountNeeded clusterSize at *
    rw [if_pos unfilled]
    omega
  · unfold tailBuffer getClusterCountNeeded blockHeaderSize clusterSize wordModulus at *
    split <;> omega
  · exact .inl first
  · left
    rw [tail, appendedFree, if_pos first, appendedSize, if_pos first, Nat.mod_eq_of_lt (by omega)]
    exact second

end

theorem inserted_name (inserted : Inserted disk disk' e buffer offset e') :
    e'.record.name = e.record.name := by
  obtain ⟨cut, e1, cutDisk, midDisk, kept, record, _, _, _, _, _, first, second⟩ := inserted.steps
  rw [appended_name second, appended_name first, record]
  exact Record.name_setSize _ _

theorem inserted_content (inserted : Inserted disk disk' e buffer offset e')
    (insertable : Insertable (lowFree disk) e.record.size offset buffer.length e.data.length)
    (few : lowFree disk ≤ takenCluster) :
    e'.record.size = e.record.size + buffer.length ∧
      (dataBytes disk' e'.data).take e'.record.size =
        (dataBytes disk e.data).take offset ++ buffer ++
          ((dataBytes disk e.data).take e.record.size).drop offset := by
  have word := insertable.word few
  have tail := insertable.tail (by omega)
  obtain ⟨room1, room2⟩ := insertable.rooms
  obtain ⟨inside, ends, unfilled, aligned, _⟩ := insertable
  obtain ⟨cut, e1, cutDisk, midDisk, kept, record, cells, free, mid, start, rest, first, second⟩ :=
    inserted.steps
  have size0 : cut.record.size = offset := by
    rw [record]
    exact Record.size_setSize _ _ (by omega)
  have ends0 : cut.EndsInLast := by
    unfold Entry.EndsInLast
    rw [length_data, cells, size0]
    rfl
  rw [← free, ← size0] at room1
  obtain ⟨size1, content1⟩ := appended_content first room1 (.inr ends0) (by omega) (Nat.le_refl _)
  have ends1 := appended_ends first room1 ends0 (by omega) (by rwa [size0])
  rw [List.take_length, size0] at size1 content1
  rw [size0] at room1
  have left : lowFree midDisk = lowFree cutDisk - appendNeed offset buffer.length := by
    rw [mid, appendedFree, if_pos room1]
  rw [tail] at second
  have length : e.record.size - offset ≤ kept.length := by
    have taken := congrArg List.length rest
    rw [List.length_take, List.length_drop, length_dataBytes] at taken
    unfold clusterSize at *
    omega
  obtain ⟨size2, content2⟩ := appended_content second (by rw [size1, left, free]; exact room2)
    (.inr ends1) (by omega) length
  rw [List.length_take_of_le length] at size2
  constructor
  · omega
  · have head : (dataBytes cutDisk cut.data).take offset = (dataBytes disk e.data).take offset := by
      rw [start, List.take_take, Nat.min_eq_left]
      unfold clusterSize
      omega
    have back : kept.take (e.record.size - offset) =
        ((dataBytes disk e.data).take e.record.size).drop offset := by
      have most : e.record.size - offset ≤ clusterSize * e.data.length - offset := by
        unfold clusterSize at *
        omega
      rw [← Nat.min_eq_left most, ← List.take_take, rest, List.drop_take]
    rw [content2, content1, head, back]

/-! ## The call -/

/-- What a write needs so that its bytes get where they belong. -/
structure WriteFits (free size offset len count : Nat) : Prop where
  append : offset = size → appendNeed size len ≤ free ∧ (len = 0 ∨ count = size / clusterSize + 1)
  insert : offset < size → getClusterCountNeeded ((size + len) % wordModulus) ≤ free + 2 →
    Insertable free size offset len count

/-- The bytes are at the offset, and what was there before follows. -/
def Lands (disk disk' : ByteMemory) (r r' : Record) (buffer : List UInt8) (offset : Nat) : Prop :=
  r'.name = r.name ∧ r'.size = r.size + buffer.length ∧
    contents disk' r' = (contents disk r).take offset ++ buffer ++ (contents disk r).drop offset

/-- The offset or the free clusters do not allow the write. -/
def Refuses (free size offset len : Nat) : Prop :=
  size < offset ∨ offset < size ∧ free + 2 < getClusterCountNeeded ((size + len) % wordModulus)

variable {s : Fs} {others : List (Nat × Nat)} {dir lost : List Nat} {es : List Entry}

theorem length_contents {r : Record} (ends : (dataClusters disk r).length = r.size / clusterSize + 1) :
    (contents disk r).length = r.size := by
  rw [contents, List.length_take, length_dataBytes, ends, Nat.min_eq_left]
  unfold clusterSize
  omega

theorem append_word {free size len count : Nat} (fits : appendNeed size len ≤ free ∧
    (len = 0 ∨ count = size / clusterSize + 1)) (few : free + count ≤ takenCluster)
    (word : size < wordModulus) : size + len < wordModulus := by
  obtain ⟨room, ends⟩ := fits
  unfold appendNeed getClusterCountNeeded bytesInLast clusterSize wordModulus takenCluster at *
  split at room <;> omega

theorem write_lands (filename : CString) (buffer : List UInt8) (offset : Nat) (parked : Parked s others)
    (catalog : Catalog s.disk dir es lost)
    (fits : ∀ r ∈ dirEntries s.disk, r.name = (normalizeFilename filename).bytes →
      WriteFits (lowFree s.disk) r.size offset buffer.length (dataClusters s.disk r).length) :
    Completes (write filename buffer offset) s fun res s' =>
      (res = 1 ∧ s'.disk = s.disk ∧ ∀ r ∈ dirEntries s.disk,
        r.name = (normalizeFilename filename).bytes → Refuses (lowFree s.disk) r.size offset buffer.length) ∨
      (res = 0 ∧ ∃ r ∈ dirEntries s.disk, r.name = (normalizeFilename filename).bytes ∧
        ¬ Refuses (lowFree s.disk) r.size offset buffer.length ∧
        ∃ r' ∈ dirEntries s'.disk, Lands s.disk s'.disk r r' buffer offset) := by
  have entries := catalog_entries catalog
  have member : ∀ e ∈ es, e.record ∈ dirEntries s.disk := fun e inside => by
    rw [entries]
    exact List.mem_map.mpr ⟨e, inside, rfl⟩
  have room : ∀ e ∈ es, lowFree s.disk + e.data.length ≤ takenCluster := by
    intro e inside
    have whole := lowFree_eq catalog.volume
    have some := (List.sublist_flatten_of_mem (List.mem_map.mpr ⟨e, inside, rfl⟩ :
      e.cells ∈ es.map Entry.cells)).length_le
    rw [List.flatten_cons, List.length_append, List.length_append] at whole
    rw [length_data]
    omega
  have ready : ∀ e ∈ es, e.record.name = (normalizeFilename filename).bytes →
      WriteFits (lowFree s.disk) e.record.size offset buffer.length e.data.length := by
    intro e inside named
    have need := fits _ (member e inside) named
    rwa [catalog_data catalog inside] at need
  have few : lowFree s.disk ≤ takenCluster := by
    have whole := lowFree_eq catalog.volume
    omega
  apply meets_mono (write_run filename buffer offset parked catalog ?_)
  · rintro res s' ⟨dir', es', lost', _, catalog', _, _, _, written⟩
    have unique : ∀ {i : Nat} (small : i < es.length), position (normalizeFilename filename) es = some i →
        ∀ r ∈ dirEntries s.disk, r.name = (normalizeFilename filename).bytes → r = es[i].record := by
      intro i small found r inside named
      rw [entries] at inside
      obtain ⟨e, member', rfl⟩ := List.mem_map.mp inside
      obtain ⟨_, same⟩ := position_some found
      rw [entry_unique catalog.names member' (List.getElem_mem small) (named.trans same.symm)]
    have target : ∀ {i : Nat} (small : i < es.length) (e' : Entry), es' = es.set i e' → e' ∈ es' := by
      intro i small e' changed
      rw [changed]
      exact (mem_set_entries small e').mpr (.inl rfl)
    cases written with
    | missing missing same =>
      refine .inl ⟨rfl, same, fun r inside named => ?_⟩
      rw [entries] at inside
      obtain ⟨e, member', rfl⟩ := List.mem_map.mp inside
      exact absurd named (position_none missing e member')
    | beyond found small outside same =>
      refine .inl ⟨rfl, same, fun r inside named => ?_⟩
      rw [unique small found r inside named]
      exact .inl outside
    | refused found small before full same =>
      refine .inl ⟨rfl, same, fun r inside named => ?_⟩
      rw [unique small found r inside named]
      exact .inr ⟨before, full⟩
    | @appended i found small last e' appended =>
      obtain ⟨_, named⟩ := position_some found
      have inside := List.getElem_mem small
      have need := (ready _ inside named).append last
      have word := append_word need (room _ inside) (Record.size_lt es[i].record)
      obtain ⟨size, content⟩ := appended_content appended need.1 need.2 word (Nat.le_refl _)
      rw [List.take_length] at size content
      have changed := target small e' rfl
      refine .inr ⟨rfl, _, member _ inside, named, ?_, e'.record, ?_, appended_name appended, size, ?_⟩
      · rw [last]
        rintro (less | less)
        · exact absurd less (Nat.lt_irrefl _)
        · exact absurd less.1 (Nat.lt_irrefl _)
      · rw [catalog_entries catalog']
        exact List.mem_map.mpr ⟨e', changed, rfl⟩
      · rw [catalog_contents catalog' changed, catalog_contents catalog inside, content, last, List.take_take,
          Nat.min_self, List.drop_take, Nat.sub_self, List.take_zero, List.append_nil]
    | @inserted i found small before enough e' inserted =>
      obtain ⟨_, named⟩ := position_some found
      have inside := List.getElem_mem small
      have insertable := (ready _ inside named).insert before enough
      obtain ⟨size, content⟩ := inserted_content inserted insertable few
      have changed := target small e' rfl
      refine .inr ⟨rfl, _, member _ inside, named, ?_, e'.record, ?_, ?_, size, ?_⟩
      · rintro (less | less)
        · omega
        · omega
      · rw [catalog_entries catalog']
        exact List.mem_map.mpr ⟨e', changed, rfl⟩
      · exact inserted_name inserted
      · rw [catalog_contents catalog' changed, catalog_contents catalog inside, content, List.take_take,
          Nat.min_eq_left (Nat.le_of_lt before)]
  · intro e inside named
    obtain ⟨append, insert⟩ := ready e inside named
    exact ⟨fun last => .inl (append last).1, fun before enough => (insert before enough).ready few⟩

end

end Delos.Invariants
