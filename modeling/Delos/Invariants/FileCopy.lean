import Delos.Invariants.FileCreation
import Delos.Invariants.FileDeletion
import Delos.Invariants.FileInsert

/-!
# `cp`

`cp` removes an existing destination, creates it anew and copies the clusters of
the source one by one. A system file is not removed: its chain is cut behind the
first cluster and the rest of it stays in use without an owner.
-/
namespace Delos.Invariants
open Lib Source

section
variable {s : Fs} {disk : ByteMemory} {others : List (Nat × Nat)} {dir lost cells : List Nat}
  {chains : List (List Nat)} {es : List Entry}

/-- The links of a chain at any place of the list. -/
theorem volume_link_in {front back : List Nat} {c next : Nat} (volume : Volume disk chains lost)
    (inside : front ++ c :: next :: back ∈ chains) :
    c < clusterCount ∧ next < clusterCount ∧ fatValue disk c = next ∧ next ≠ eofCluster := by
  obtain ⟨before, after, rfl⟩ := List.append_of_mem inside
  exact volume_link_at front c next back (volume_perm volume List.perm_middle)

/-- The clusters of the source are copied into the destination chain, which grows
in front of every copy but the first. -/
theorem copyClustersLoop_run (bound : Nat) (lead rest : List Nat) (marker : Nat) (front : List Nat)
    (p : Nat) (enough : rest.length < bound)
    (volume : Volume s.disk ((front ++ [p]) :: chains) lost)
    (source : lead ++ (rest ++ [marker]) ∈ chains) (eof : fatValue s.disk marker = eofCluster)
    (room : rest.length ≤ lowFree s.disk) :
    ∃ front' p' disk, copyClustersLoop bound ((rest ++ [marker]).headD 0) p s =
        .ok (p', { s with disk := disk }) ∧
      (∃ news, front' ++ [p'] = front ++ [p] ++ news) ∧ front'.length = front.length + rest.length ∧
      Volume disk ((front' ++ [p']) :: chains) lost ∧
      dataBytes disk front' = dataBytes s.disk front ++ dataBytes s.disk rest ∧
      SameOn chains.flatten s.disk disk := by
  obtain ⟨bound, rfl⟩ : ∃ b, bound = b + 1 := ⟨bound - 1, by omega⟩
  have ofSource : ∀ c ∈ lead ++ (rest ++ [marker]), c ∈ chains.flatten := fun c member =>
    List.mem_flatten.mpr ⟨_, source, member⟩
  induction rest generalizing s lead front p bound with
  | nil =>
    have small := volume_flatten_count volume marker (List.mem_append_right _ (ofSource marker (by simp)))
    refine ⟨front, p, s.disk, ?_, ⟨[], (List.append_nil _).symm⟩, rfl, volume,
      (List.append_nil _).symm, sameOn_refl⟩
    unfold copyClustersLoop
    rw [List.nil_append, List.headD_cons, run_bind (fat_run s small), eof, if_neg (by decide)]
    rfl
  | cons c rest ih =>
    obtain ⟨next, tail, more⟩ : ∃ next tail, rest ++ [marker] = next :: tail :=
      List.exists_cons_of_ne_nil (by simp)
    have here := source
    rw [List.cons_append, more] at here
    obtain ⟨small, _, link, notEof⟩ := volume_link_in volume (List.mem_cons_of_mem _ here)
    have last : p ∈ front ++ [p] := List.mem_append_right _ List.mem_cons_self
    have pSmall := volume_count volume List.mem_cons_self last
    have size : (clusterBytes s.disk c).length = clusterSize := length_clusterBytes _ _
    have fits : 0 + (clusterBytes s.disk c).length ≤ clusterSize := by omega
    have stored := volume_store volume pSmall fits
    have sameStore := sameOn_store volume last fits
    have copied := clusterBytes_writeCluster_same pSmall fits volume.mapped
    rw [List.take_zero, List.nil_append, List.drop_eq_nil_of_le (by
      rw [length_clusterBytes, size, Nat.zero_add]), List.append_nil] at copied
    have copy : memcpy (clusterAddr p) (clusterAddr c) clusterSize s =
        .ok ((), { s with disk := s.disk.writeBytes (clusterAddr p + 0) (clusterBytes s.disk c) }) := by
      have addr := cluster_inside (k := 0) (n := 0) small (by decide)
      have addr' := cluster_inside (k := 0) (n := 0) pSmall (by decide)
      have positive : 0 < fsStartAddr := by decide
      unfold memcpy
      rw [if_neg (by omega)]
      show (readMemory (clusterAddr c + 0) clusterSize >>= _) s = _
      rw [run_bind (readCluster_run s small (by decide))]
      exact writeCluster_run s _ pSmall fits
    have oldFront : ∀ d ∈ front, clusterBytes (s.disk.writeBytes (clusterAddr p + 0) (clusterBytes s.disk c)) d =
        clusterBytes s.disk d := fun d member => by
      have cluster := volume_count volume List.mem_cons_self (List.mem_append_left [p] member)
      refine clusterBytes_writeCluster_other pSmall fits cluster ?_
      rintro rfl
      exact List.disjoint_of_nodup_append (ledger_head_nodup volume.ledger) member List.mem_cons_self
    have roomStore : lowFree (s.disk.writeBytes (clusterAddr p + 0) (clusterBytes s.disk c)) =
        lowFree s.disk := by
      have before := lowFree_eq volume
      have after := lowFree_eq stored
      omega
    generalize s.disk.writeBytes (clusterAddr p + 0) (clusterBytes s.disk c) = written at *
    rw [List.length_cons] at enough room
    obtain ⟨i, linked, take, linkNext, volume', same, bytes, count⟩ :=
      extendChain_run (s := { s with disk := written }) front p stored (by simp only; omega)
    have sameAll := sameOn_trans sameStore same
    have link' : fatValue linked c = next := by
      rw [sameAll.fat c (ofSource c (by simp)), link]
    obtain ⟨bound, rfl⟩ : ∃ b, bound = b + 1 := ⟨bound - 1, by omega⟩
    obtain ⟨front', p', disk, run, ⟨news, shape⟩, length, volume'', data, same'⟩ :=
      ih (s := { s with disk := linked }) (lead ++ [c]) (front ++ [p]) i volume'
        (by rw [List.append_assoc]; exact source)
        (by rw [sameAll.fat marker (ofSource marker (by simp)), eof]) (by simp only at count ⊢; omega)
        bound (by omega) (by rw [List.append_assoc]; exact ofSource)
    have used := fun d (member : d ∈ front ++ [p]) =>
      bytes d (volume_count stored List.mem_cons_self member)
    rw [more, List.headD_cons] at run
    refine ⟨front', p', disk, ?_, ⟨i :: news, ?_⟩, ?_, volume'', ?_, sameOn_trans sameAll same'⟩
    · rw [List.cons_append, List.headD_cons]
      unfold copyClustersLoop
      rw [run_bind (fat_run s small), link, if_pos notEof, run_bind copy, run_bind take,
        run_bind linkNext, run_bind (fat_run { s with disk := linked } small)]
      simp only [link']
      exact run
    · rw [shape]
      simp
    · rw [length, List.length_append, List.length_singleton, List.length_cons]
      omega
    · have fronts : dataBytes linked front = dataBytes s.disk front := dataBytes_congr fun d member => by
        rw [used d (List.mem_append_left _ member)]
        exact oldFront d member
      have here : clusterBytes linked p = clusterBytes s.disk c := by
        rw [used p last]
        exact copied
      have rests : dataBytes linked rest = dataBytes s.disk rest := dataBytes_congr fun d member =>
        sameAll.bytes d (ofSource d (by simp [member]))
      rw [data]
      simp only
      rw [rests, show dataBytes linked (front ++ [p]) = dataBytes linked front ++ clusterBytes linked p by
        simp [dataBytes], fronts, here, List.append_assoc]
      rfl

/-- A chain has at least a first cluster and an EOF cluster. -/
theorem placed_cells {e : Entry} (placed : e.Placed disk) :
    ∃ second tail, e.cells = e.record.startCluster :: second :: tail := by
  obtain ⟨front, p, marker, shape, _⟩ := ends_shape placed.ends
  have head := placed.head
  rw [shape] at head ⊢
  cases front with
  | nil => exact ⟨marker, [], by rw [← Option.some.inj head]; rfl⟩
  | cons c rest =>
    rw [← Option.some.inj head]
    cases rest with
    | nil => exact ⟨p, [marker], rfl⟩
    | cons d rest => exact ⟨d, rest ++ [p] ++ [marker], rfl⟩

/-- The copy itself, behind the last store of the directory. -/
theorem copyFile_run {j : Nat} {e : Entry} (catalog : Catalog s.disk dir es lost) (small : j < es.length)
    (source : e ∈ es.eraseIdx j) (room : e.data.length ≤ lowFree s.disk + 1) :
    ∃ second freed copied last disk cells lost',
      fat es[j].record.startCluster s = .ok (second, s) ∧
      setFat second freeCluster s = .ok ((), { s with disk := freed }) ∧
      copyClustersLoop walkBound e.record.startCluster es[j].record.startCluster
        { s with disk := freed } = .ok (last, { s with disk := copied }) ∧
      setFat last eofCluster { s with disk := copied } = .ok ((), { s with disk := disk }) ∧
      Catalog disk dir (es.set j ⟨es[j].record, cells⟩) lost' ∧
      SameOn ((es.eraseIdx j).map Entry.cells).flatten s.disk disk ∧
      dataBytes disk cells.dropLast = dataBytes s.disk e.data ∧
      (es[j].cells.length = 2 → lost' = lost) := by
  have placed := catalog.files _ (List.getElem_mem small)
  have placedSource := catalog.files _ (List.mem_of_mem_eraseIdx source)
  obtain ⟨second, tail, shape⟩ := placed_cells placed
  obtain ⟨front, p, marker, chain⟩ := placed_chain placedSource
  have dataShape : e.data = front ++ [p] := by rw [Entry.data, chain.shape, List.dropLast_concat]
  have volume := catalog_front catalog small
  rw [shape] at volume
  have link := (volume_link volume).1
  have firstSmall := volume_count volume List.mem_cons_self List.mem_cons_self
  -- the second cluster of the destination is freed, the rest of its chain is given up
  have split := volume_split [second] tail (volume_perm
    (volume_split [es[j].record.startCluster] (second :: tail) volume) (List.Perm.swap _ _ _))
  have secondSmall := volume_count split List.mem_cons_self List.mem_cons_self
  have sameFree := sameOn_assign (v := freeCluster) split List.mem_cons_self
  have freed := volume_leak (volume_drop_nil (volume_free_head split))
  have before := lowFree_eq volume
  have after := lowFree_eq freed
  simp only [List.flatten_cons, List.length_append, List.length_cons, List.length_nil] at before after sameFree
  have sameChains : SameOn ((0 :: dir) ++ ((es.eraseIdx j).map Entry.cells).flatten) s.disk
      (setFatValue s.disk second freeCluster) := sameOn_subset sameFree fun c member =>
    List.mem_append_right _ (List.mem_append_right _ member)
  have inner : e.cells ∈ (0 :: dir) :: (es.eraseIdx j).map Entry.cells :=
    List.mem_cons_of_mem _ (List.mem_map.mpr ⟨e, source, rfl⟩)
  have ofSource : ∀ c ∈ e.cells, c ∈ (0 :: dir) ++ ((es.eraseIdx j).map Entry.cells).flatten :=
    fun c member => List.mem_append_right _ (cells_subset source member)
  have start : e.record.startCluster = (e.data ++ [marker]).headD 0 := by
    rw [chain.start, dataShape]
    cases front <;> rfl
  have few : e.cells.length ≤ takenCluster := by
    have count := lowFree_eq (volume_perm catalog.volume (List.Perm.refl _))
    have less := (List.sublist_flatten_of_mem (List.mem_cons_of_mem (0 :: dir)
      (List.mem_map.mpr ⟨e, List.mem_of_mem_eraseIdx source, rfl⟩ :
        e.cells ∈ es.map Entry.cells))).length_le
    rw [List.length_append] at count
    omega
  have shapeSource : e.cells = e.data ++ [marker] := by rw [dataShape, chain.shape]
  have eof : fatValue (setFatValue s.disk second freeCluster) marker = eofCluster := by
    rw [sameChains.fat marker (ofSource marker (by rw [shapeSource]; simp)), chain.eof]
  obtain ⟨front', last, copied, run, ⟨news, grown⟩, length, volume', data, same⟩ :=
    copyClustersLoop_run (s := { s with disk := setFatValue s.disk second freeCluster }) walkBound []
      e.data marker [] es[j].record.startCluster
      (by
        rw [shapeSource, List.length_append] at few
        unfold takenCluster at few
        unfold walkBound
        omega)
      freed (by rw [List.nil_append, ← shapeSource]; exact inner) eof (by simp only; omega)
  rw [← start] at run
  have lastSmall := volume_count volume' List.mem_cons_self (List.mem_append_right _ List.mem_cons_self)
  have marked := volume_mark volume'
  have sameMark := sameOn_assign (v := eofCluster) volume' (List.mem_append_right front' List.mem_cons_self)
  rw [List.flatten_cons] at same sameMark
  have sameAll := sameOn_trans sameChains (sameOn_trans same sameMark)
  have ends : Ends (setFatValue copied last eofCluster) (front' ++ [last]) := by
    refine ⟨front', last, rfl, ?_, fatValue_setFatValue_same volume'.mapped (by decide)⟩
    rintro rfl
    rw [dataShape] at length
    simp at length
  refine ⟨second, _, copied, last, setFatValue copied last eofCluster, front' ++ [last], tail ++ lost,
    ?_, setFat_run s secondSmall _, run, setFat_run _ lastSmall _,
    catalog_rechain catalog small marked (by rw [List.flatten_cons]; exact sameAll) ⟨?_, ends⟩,
    sameOn_subset sameAll (List.subset_append_right _ _), ?_, fun two => ?_⟩
  · rw [fat_run s firstSmall, link]
  · rw [grown]
    rfl
  · have bytes : ∀ c ∈ front', clusterBytes (setFatValue copied last eofCluster) c = clusterBytes copied c :=
      fun c member => sameBytes_setFatValue lastSmall c
        (volume_count volume' List.mem_cons_self (List.mem_append_left _ member))
    rw [List.dropLast_concat, dataBytes_congr bytes, data]
    simp only [dataBytes, List.flatMap_nil, List.nil_append]
    exact dataBytes_congr fun c member => sameChains.bytes c (ofSource c (by
      rw [shapeSource]
      exact List.mem_append_left _ member))
  · rw [shape] at two
    have none : tail = [] := List.eq_nil_of_length_eq_zero (by simpa using two)
    rw [none, List.nil_append]

/-! ## The destination -/

/-- What `cp` needs for `count` clusters of data, by what the destination is. -/
structure CopyReady (free count : Nat) (es : List Entry) (des : CString) : Prop where
  absent : position des es = none → CreateRoom free es.length ∧
    count + dirClusters (es.length + 1) + 1 ≤ free + dirClusters es.length
  user : ∀ e ∈ es, e.record.name = des.bytes → e.record.isSystem = false →
    Fits (es.length - 1) ∧ count + 1 ≤ free + e.cells.length
  system : ∀ e ∈ es, e.record.name = des.bytes → e.record.isSystem = true → count ≤ free + 1

/-- Every cluster below the marker values is accounted for. -/
theorem catalog_room (catalog : Catalog disk dir es lost) :
    lowFree disk + 1 + dirClusters es.length + (es.map Entry.cells).flatten.length + lost.length =
      takenCluster := by
  have count := lowFree_eq catalog.volume
  have length := catalog.directory.length
  rw [List.length_map] at length
  simp only [List.flatten_cons, List.length_append, List.length_cons] at count
  omega

theorem position_append {filename : CString} {e : Entry} (missing : position filename es = none)
    (named : e.record.name = filename.bytes) : position filename (es ++ [e]) = some es.length := by
  unfold position at missing ⊢
  rw [List.findIdx?_append, missing]
  simp [Named, named]

/-- The destination behind `rm` and `touch`. -/
structure Prepared (disk : ByteMemory) (count : Nat) (es es' : List Entry) (des : CString) (j : Nat) :
    Prop where
  found : position des es' = some j
  room : count ≤ lowFree disk + 1
  single : (∀ e ∈ es, e.record.name = des.bytes → e.record.isSystem = true → e.cells.length = 2) →
    ∀ small : j < es'.length, es'[j].cells.length = 2

theorem createDestination_run {des : CString} {count : Nat} (short : des.bytes.length < fileNameLen)
    (parked : Parked s others) (catalog : Catalog s.disk dir es lost) (missing : position des es = none)
    (ready : CreateRoom (lowFree s.disk) es.length)
    (room : count + dirClusters (es.length + 1) + 1 ≤ lowFree s.disk + dirClusters es.length) :
    Completes (touch des) s fun _ s' => ∃ dir' es' j, Parked s' others ∧
      Catalog s'.disk dir' es' lost ∧ Kept others s.heap s'.heap ∧
      Undisturbed des.bytes s.disk s'.disk es es' ∧ position des es' = some j ∧
      count ≤ lowFree s'.disk + 1 ∧ ∀ small : j < es'.length, es'[j].cells.length = 2 := by
  have touched := touch_run des parked catalog fun _ => ready
  rw [normalizeFilename_of_short short] at touched
  refine meets_mono touched ?_
  rintro res s' ⟨dir', es', parked', catalog', kept, same, result⟩
  cases result with
  | present found => exact absurd missing found
  | created missing eof new =>
    have before := catalog_room catalog
    have after := catalog_room catalog'
    rw [List.map_append, List.flatten_append, List.length_append, List.length_append] at after
    simp only [List.map_singleton, List.flatten_singleton, List.length_cons, List.length_nil,
      Nat.zero_add] at after
    refine ⟨dir', _, es.length, parked', catalog', kept,
      undisturbed_same (fun e inside _ => List.mem_append_left _ inside) same,
      position_append missing new.name, by omega, fun small => ?_⟩
    rw [List.getElem_append_right (Nat.le_refl _)]
    simp

theorem position_eraseIdx {des : CString} {i : Nat} (catalog : Catalog disk dir es lost)
    (small : i < es.length) (named : es[i].record.name = des.bytes) :
    position des (es.eraseIdx i) = none := by
  refine List.findIdx?_eq_none_iff.mpr fun e inside => decide_eq_false fun same => ?_
  have perm := (List.getElem_cons_eraseIdx_perm small).symm.map fun e => e.record.name
  have names := perm.nodup_iff.mp catalog.names
  rw [List.map_cons, List.nodup_cons] at names
  exact names.1 (List.mem_map.mpr ⟨e, inside, same.trans named.symm⟩)

/-- An existing destination is removed, unless it is a system file. -/
theorem removeDestination_run {des : CString} {count : Nat} {present : Prop} [Decidable present]
    (known : present ↔ position des es ≠ none) (short : des.bytes.length < fileNameLen)
    (parked : Parked s others) (catalog : Catalog s.disk dir es lost)
    (ready : CopyReady (lowFree s.disk) count es des) :
    Completes (doIf present do
      let _ ← rm des) s fun _ s' => ∃ dir' es', Parked s' others ∧ Catalog s'.disk dir' es' lost ∧
        Kept others s.heap s'.heap ∧ Undisturbed des.bytes s.disk s'.disk es es' ∧
        (position des es' = none ∧ CreateRoom (lowFree s'.disk) es'.length ∧
            count + dirClusters (es'.length + 1) + 1 ≤ lowFree s'.disk + dirClusters es'.length ∨
          (∃ (i : Nat) (small : i < es.length), position des es = some i ∧ es' = es ∧
            es[i].record.isSystem = true) ∧ count ≤ lowFree s'.disk + 1) := by
  obtain ⟨absent, user, system⟩ := ready
  have same := normalizeFilename_of_short short
  cases found : position des es with
  | none =>
    obtain ⟨create, room⟩ := absent found
    rw [doIf, if_neg (by rw [known, found]; exact fun some => some rfl)]
    exact meets_pure.mpr ⟨dir, es, parked, catalog, kept_refl, undisturbed_refl,
      Or.inl ⟨found, create, room⟩⟩
  | some i =>
    obtain ⟨small, named⟩ := position_some found
    have member := List.getElem_mem small
    have removed := rm_run des parked catalog (by
      rw [same]
      exact fun e inside name free => (user e inside name free).1)
    rw [same] at removed
    rw [doIf, if_pos (by rw [known, found]; exact Option.some_ne_none i)]
    refine meets_call removed ?_
    rintro res s' ⟨dir', es', parked', catalog', kept, undisturbed, result⟩
    have before := catalog_room catalog
    have after := catalog_room catalog'
    refine meets_pure.mpr ⟨dir', es', parked', catalog', kept, undisturbed, ?_⟩
    cases result with
    | missing none => exact absurd (found.symm.trans none) (by simp)
    | systemFile found' small' marked =>
      obtain rfl : i = _ := Option.some.inj (found.symm.trans found')
      refine Or.inr ⟨⟨i, small, rfl, rfl, marked⟩, ?_⟩
      have room := system _ member named marked
      omega
    | removed found' small' free =>
      obtain rfl : i = _ := Option.some.inj (found.symm.trans found')
      obtain ⟨fits, room⟩ := user _ member named free
      have placed := (catalog.files _ member).ends
      obtain ⟨front, p, marker, shape, _⟩ := ends_shape placed
      have two : 2 ≤ es[i].cells.length := by
        rw [shape]
        simp
      have perm := (entries_perm small).flatten.length_eq
      have shorter : (es.eraseIdx i).length = es.length - 1 := List.length_eraseIdx_of_lt small
      have again : es.length - 1 + 1 = es.length := Nat.sub_add_cancel (Nat.pos_of_ne_zero (by omega))
      have all := catalog.directory.fits
      rw [List.length_map] at all
      have less := dirClusters_pred all fits
      rw [List.flatten_cons, List.length_append] at perm
      rw [shorter] at after
      refine Or.inl ⟨position_eraseIdx catalog small named, ⟨by omega, ?_, ?_⟩, ?_⟩
      · rw [shorter, again]
        omega
      · rw [shorter, again]
        exact all
      · rw [shorter, again]
        omega

/-- `rm` and `touch` of the destination. -/
theorem prepare_run {des : CString} {count : Nat} {present : Prop} [Decidable present]
    (known : present ↔ position des es ≠ none) (short : des.bytes.length < fileNameLen)
    (parked : Parked s others) (catalog : Catalog s.disk dir es lost)
    (ready : CopyReady (lowFree s.disk) count es des) :
    Completes (do
      doIf present do
        let _ ← rm des
      touch des) s fun _ s' => ∃ dir' es' j, Parked s' others ∧ Catalog s'.disk dir' es' lost ∧
        Kept others s.heap s'.heap ∧ Undisturbed des.bytes s.disk s'.disk es es' ∧
        Prepared s'.disk count es es' des j := by
  refine meets_call (removeDestination_run known short parked catalog ready) ?_
  rintro _ s1 ⟨dir1, es1, parked1, catalog1, kept1, same1, ⟨missing, create, room⟩ |
    ⟨⟨i, small, found, rfl, system⟩, room⟩⟩
  · refine meets_mono (createDestination_run short parked1 catalog1 missing create room) ?_
    rintro _ s' ⟨dir', es', j, parked', catalog', kept, same, found', room', single⟩
    exact ⟨dir', es', j, parked', catalog', kept_trans kept1 kept, undisturbed_trans same1 same, found',
      room', fun _ => single⟩
  · have normal := normalizeFilename_of_short short
    have touched := touch_run des parked1 catalog1 (by
      rw [normal, found]
      exact fun none => absurd none (Option.some_ne_none i))
    rw [normal] at touched
    refine meets_mono touched ?_
    rintro res s' ⟨dir', es', parked', catalog', kept, same, result⟩
    cases result with
    | created missing eof new => exact absurd (found.symm.trans missing) (by simp)
    | present present =>
      have before := catalog_room catalog1
      have after := catalog_room catalog'
      refine ⟨dir', _, i, parked', catalog', kept_trans kept1 kept,
        undisturbed_trans same1 (undisturbed_same (fun e inside _ => inside) same), found, by omega,
        fun all _ => ?_⟩
      obtain ⟨_, named⟩ := position_some found
      exact all _ (List.getElem_mem small) named system

/-! ## The call -/

/-- A call that returns 0 leaves the data of the source in the destination. -/
def Copied (src des : CString) (disk disk' : ByteMemory) (es es' : List Entry) : Prop :=
  ∃ e ∈ es, e.record.name = src.bytes ∧ ∃ e' ∈ es', e'.record.name = des.bytes ∧
    dataBytes disk' e'.data = dataBytes disk e.data

/-- What `cp` stores as the size: the word at `src_file` once the folder is loaded again. -/
def SizeRead (s : Fs) (others : List (Nat × Nat)) (rs : List Record) (srcFile size : Nat) : Prop :=
  ∃ root files heap, LoadedFrom s root files rs.length heap ∧
    Loaded { s with heap := heap, root := root } others files rs ∧
      fileSize srcFile { s with heap := heap, root := root } = .ok (size, { s with heap := heap, root := root })

/-- What happens to the folder before that word is read. -/
def SizeSource (s : Fs) (others : List (Nat × Nat)) (src des : CString) (es : List Entry) (size : Nat) : Prop :=
  ∃ i root files heap res s1 dir1 es1 lost1, position src es = some i ∧ LoadedFrom s root files es.length heap ∧
    Parked { s with heap := discardedHeap files root heap, root := 0 } others ∧
    (do
      doIf (position des es ≠ none) do
        let _ ← rm des
      touch des : Kernel Nat) { s with heap := discardedHeap files root heap, root := 0 } = .ok (res, s1) ∧
      Catalog s1.disk dir1 es1 lost1 ∧ SizeRead s1 others (es1.map Entry.record) (fileAt files i) size

/-- The size is stored and the clusters are copied. -/
theorem fillDestination_run {des : CString} {e : Entry} {j srcFile : Nat}
    (short : des.bytes.length < fileNameLen) (low : kernelHeap.addr ≤ srcFile)
    (high : srcFile + fileRecordSize ≤ fsStartAddr) (parked : Parked s others)
    (catalog : Catalog s.disk dir es lost) (found : position des es = some j) (small : j < es.length)
    (source : e ∈ es.eraseIdx j) (room : e.data.length ≤ lowFree s.disk + 1) :
    Completes (do
      loadRootFolder
      let desFile ← getFile des
      let desCluster ← fileStartClusterIndex desFile
      let srcSize ← fileSize srcFile
      setFileSize desFile srcSize
      storeRootFolder
      let eof ← fat desCluster
      setFat eof freeCluster
      let lastCluster ← copyClustersLoop walkBound e.record.startCluster desCluster
      setFat lastCluster eofCluster
      pure 0) s fun res s' => ∃ dir' e' lost', Parked s' others ∧
        Catalog s'.disk dir' (es.set j e') lost' ∧ Kept others s.heap s'.heap ∧
        SameOn ((es.eraseIdx j).map Entry.cells).flatten s.disk s'.disk ∧ res = 0 ∧
        dataBytes s'.disk e'.data = dataBytes s.disk e.data ∧ (es[j].cells.length = 2 → lost' = lost) ∧
        ∃ size, SizeRead s others (es.map Entry.record) srcFile size ∧
          e'.record = es[j].record.setSize size := by
  have fits := catalog.directory.fits
  have length := catalog.directory.length
  rw [List.length_map] at fits length
  have placed := catalog.files _ (List.getElem_mem small)
  refine meets_call (loadCatalog_placed parked catalog) ?_
  rintro _ _ ⟨heap, root, files, rfl, loaded, kept, placedFolder⟩
  have start := fileStartClusterIndex_run loaded.records (i := j) (by rwa [List.length_map])
  rw [List.getElem_map] at start
  obtain ⟨size, read⟩ : ∃ size, fileSize srcFile { s with heap := heap, root := root } =
      .ok (size, { s with heap := heap, root := root }) := by
    unfold fileRecordSize at high
    exact ⟨_, readWord_run (by omega) (by omega)⟩
  obtain ⟨sized, setSize, loaded', keptSize⟩ := setFileSize_run loaded (i := j)
    (by rwa [List.length_map]) size
  rw [List.getElem_map] at loaded'
  obtain ⟨stored, disk0, dir0, run, owned, keptStore, _, catalog0, sameStore, _, count⟩ :=
    storeChanged_run ⟨es[j].record.setSize size, es[j].cells⟩ small (Record.name_setSize _ _)
      loaded' (catalog_front catalog small) catalog.directory.ends (placed_setSize placed)
      (fun e inside => catalog.files e (List.mem_of_mem_eraseIdx inside)) catalog.names fits
      (by rw [length]; exact Nat.le_add_left _ _)
  simp only at count
  have inner : j < (es.set j (Entry.mk (es[j].record.setSize size) es[j].cells)).length := by
    rwa [List.length_set]
  obtain ⟨second, freed, copied, last, disk, cells, lost', link, free, copy, mark, catalog', same, data,
    single⟩ := copyFile_run (s := { s with heap := stored, disk := disk0, root := 0 }) (e := e) catalog0
      inner (by rw [List.eraseIdx_set_eq]; exact source) (by simp only; omega)
  rw [List.getElem_set_self] at link copy catalog' single
  rw [List.set_set] at catalog'
  rw [List.eraseIdx_set_eq] at same
  simp only [Record.startCluster_setSize] at link copy
  rw [meets_next (getFile_run loaded.folder short), findIdx_record, found,
    show filePointer files (some j) = fileAt files j from rfl, meets_next start, meets_next read,
    meets_next setSize, meets_next run, meets_next link, meets_next free, meets_next copy, meets_next mark]
  refine meets_pure.mpr ⟨dir0, _, lost', .empty rfl owned, catalog',
    kept_trans kept (kept_trans keptSize keptStore), sameOn_trans sameStore same, rfl, ?_, single, size,
    ⟨root, files, heap, ?_, loaded, read⟩, rfl⟩
  rotate_left
  · rwa [List.length_map]
  rw [show (Entry.mk (es[j].record.setSize size) cells).data = cells.dropLast from rfl, data]
  exact dataBytes_congr fun c member => sameStore.bytes c
    (cells_subset source (List.dropLast_subset _ member))

/-- Nothing is changed for equal names. -/
theorem cp_same {src des : CString} (same : normalizeFilename src = normalizeFilename des) : cp src des s = .ok (1, s) := by
  unfold cp
  rw [if_pos same]
  rfl

/-- Nothing is changed for a source that does not exist. -/
theorem cp_missing {src des : CString} (parked : Parked s others)
    (catalog : Catalog s.disk dir es lost) (missing : position (normalizeFilename src) es = none) :
    Completes (cp src des) s fun res s' => res = 1 ∧ s'.disk = s.disk := by
  unfold cp
  dsimp only
  by_cases same : normalizeFilename src = normalizeFilename des
  · rw [if_pos same]
    exact meets_pure.mpr ⟨rfl, rfl⟩
  rw [if_neg same]
  apply meets_call (loadCatalog_run parked catalog)
  rintro _ _ ⟨heap, root, files, rfl, loaded, _⟩
  obtain ⟨freed, discard, _⟩ := freeRootDir_loaded loaded
  rw [meets_next (getFile_run loaded.folder (normalizeFilename_short src)), findIdx_record, missing,
    filePointer, if_pos rfl, meets_next discard]
  exact meets_pure.mpr ⟨rfl, rfl⟩

theorem doIf_congr {p q : Prop} [Decidable p] [Decidable q] {x : Kernel Unit} (same : p ↔ q) :
    doIf p x = doIf q x := by
  unfold doIf
  by_cases holds : p
  · rw [if_pos holds, if_pos (same.mp holds)]
  · rw [if_neg holds, if_neg fun other => holds (same.mpr other)]

/-- With the copy comes where its size was read. -/
theorem cp_traced (src des : CString) (parked : Parked s others) (catalog : Catalog s.disk dir es lost)
    (ready : ∀ e ∈ es, e.record.name = (normalizeFilename src).bytes →
      normalizeFilename src ≠ normalizeFilename des →
      CopyReady (lowFree s.disk) e.data.length es (normalizeFilename des)) :
    Completes (cp src des) s fun res s' => ∃ dir' es' lost', Parked s' others ∧
      Catalog s'.disk dir' es' lost' ∧ Kept others s.heap s'.heap ∧
      Undisturbed (normalizeFilename des).bytes s.disk s'.disk es es' ∧
      (((∃ e ∈ es, e.record.name = (normalizeFilename src).bytes) →
        normalizeFilename src ≠ normalizeFilename des →
        ∀ e ∈ es, e.record.name = (normalizeFilename des).bytes → e.record.isSystem = true →
          e.cells.length = 2) → lost' = lost) ∧
      ((∃ e ∈ es, e.record.name = (normalizeFilename src).bytes) →
        normalizeFilename src ≠ normalizeFilename des →
        ∃ e' ∈ es', e'.record.name = (normalizeFilename des).bytes) ∧
      (res = 0 → normalizeFilename src ≠ normalizeFilename des ∧
        ∃ e ∈ es, e.record.name = (normalizeFilename src).bytes ∧
          ∃ e' ∈ es', e'.record.name = (normalizeFilename des).bytes ∧
            dataBytes s'.disk e'.data = dataBytes s.disk e.data ∧
            ∃ r size, SizeSource s others (normalizeFilename src) (normalizeFilename des) es size ∧
              e'.record = Record.setSize r size) := by
  have shortSrc := normalizeFilename_short src
  have short := normalizeFilename_short des
  unfold cp
  dsimp only
  generalize normalizeFilename src = src at *
  generalize normalizeFilename des = des at *
  by_cases equal : src = des
  · rw [if_pos equal]
    exact meets_pure.mpr ⟨dir, es, lost, parked, catalog, kept_refl, undisturbed_refl, fun _ => rfl,
      fun _ different => absurd equal different, fun zero => absurd zero (by decide)⟩
  rw [if_neg equal]
  refine meets_call (loadCatalog_placed parked catalog) ?_
  rintro _ _ ⟨heap, root, files, rfl, loaded, kept, placedFolder⟩
  have discard := freeFolder_heap loaded.owned loaded.pointer
  obtain ⟨owned, keptFreed, records⟩ := discarded_loaded loaded
  rw [meets_next (getFile_run loaded.folder shortSrc), findIdx_record]
  cases found : position src es with
  | none =>
    rw [filePointer, if_pos rfl, meets_next discard]
    refine meets_pure.mpr ⟨dir, es, lost, .empty rfl owned, catalog, kept_trans kept keptFreed,
      undisturbed_refl, fun _ => rfl, ?_, fun zero => absurd zero (by decide)⟩
    rintro ⟨e, inside, named⟩ _
    exact absurd named (position_none found e inside)
  | some i =>
    obtain ⟨small, named⟩ := position_some found
    have member := List.getElem_mem small
    have otherName : es[i].record.name ≠ des.bytes := by
      rw [named]
      intro same
      exact equal (by cases src; cases des; simpa using same)
    have nonzero : ∀ k, filePointer files (some k) ≠ 0 := filePointer_nonzero loaded.records
    have start := fileStartClusterIndex_run loaded.records (i := i) (by rwa [List.length_map])
    rw [List.getElem_map] at start
    rw [if_neg (nonzero i), show filePointer files (some i) = fileAt files i from rfl, meets_next start,
      meets_next (getFile_run loaded.folder short), findIdx_record, meets_next discard]
    have known : filePointer files (position des es) ≠ 0 ↔ position des es ≠ none := by
      cases position des es with
      | none => simp [filePointer]
      | some k => simp [nonzero k]
    have inside := record_inside files (show i < (es.map Entry.record).length by rwa [List.length_map])
      (Nat.le_refl (0 + fileRecordSize))
    have low : kernelHeap.addr ≤ fileAt files i := by
      have := records.low
      omega
    have high : fileAt files i + fileRecordSize ≤ fsStartAddr := by
      have := records.high
      omega
    have prepared := meets_traced (prepare_run known short
      (.empty rfl owned : Parked { s with heap := discardedHeap files root heap, root := 0 } others) catalog
      (ready _ member named equal))
    refine meets_call (meets_bind.mp prepared) fun _ s1 touched => meets_call touched ?_
    rintro _ s' ⟨prepare, dir', es', j, parked', catalog', kept', undisturbed, found', room, single⟩
    obtain ⟨small', named'⟩ := position_some found'
    obtain ⟨inner, sameSource⟩ := undisturbed _ member otherName
    have source : es[i] ∈ es'.eraseIdx j := by
      rcases (mem_entries small').mp inner with here | rest
      · exact absurd (here ▸ named') otherName
      · exact rest
    obtain ⟨size, read⟩ : ∃ size, fileSize (fileAt files i) s' = .ok (size, s') := by
      unfold fileRecordSize at high
      exact ⟨_, readWord_run (by omega) (by omega)⟩
    obtain ⟨enough, asked⟩ : ∃ enough, existsNFreeClusters (getClusterCountNeeded size) s' =
        .ok (enough, s') := ⟨_, rfl⟩
    have keptAll := kept_trans kept (kept_trans keptFreed kept')
    rw [meets_next read, meets_next asked]
    cases enough with
    | false =>
      rw [if_pos rfl]
      refine (meets_next (show emit _ _ = .ok ((), _) from rfl)).mpr ?_
      refine (meets_next (show emit _ _ = .ok ((), _) from rfl)).mpr ?_
      refine (meets_next (show emit _ _ = .ok ((), _) from rfl)).mpr ?_
      exact meets_pure.mpr ⟨dir', es', lost, parked'.onScreen _, catalog', keptAll, undisturbed,
        fun _ => rfl, fun _ _ => ⟨_, List.getElem_mem small', named'⟩, fun zero => absurd zero (by decide)⟩
    | true =>
      rw [if_neg (by decide)]
      refine meets_mono (fillDestination_run short low high parked' catalog' found' small' source room) ?_
      rintro res s'' ⟨dir'', e', lost', parked'', catalog'', kept'', same, _, data, leak, size, sized, record⟩
      have name : e'.record.name = es'[j].record.name := by
        rw [record]
        exact Record.name_setSize _ _
      have target := (mem_set_entries small' e').mpr (Or.inl rfl)
      refine ⟨dir'', _, lost', parked'', catalog'', kept_trans keptAll kept'',
        undisturbed_trans undisturbed (undisturbed_set small' named' same e'),
        fun all => leak (single (all ⟨_, member, named⟩ equal) small'), fun _ _ => ⟨e', target, name.trans named'⟩,
        fun _ => ⟨equal, es[i], member, named, e', target, name.trans named', ?_, _, size, ?_, record⟩⟩
      · rw [data]
        exact dataBytes_congr fun c inside => sameSource.bytes c (List.dropLast_subset _ inside)
      · rw [doIf_congr known] at prepare
        exact ⟨i, root, files, heap, _, s', dir', es', lost, found, placedFolder, .empty rfl owned, prepare,
          catalog', sized⟩

theorem cp_run (src des : CString) (parked : Parked s others) (catalog : Catalog s.disk dir es lost)
    (ready : ∀ e ∈ es, e.record.name = (normalizeFilename src).bytes →
      normalizeFilename src ≠ normalizeFilename des →
      CopyReady (lowFree s.disk) e.data.length es (normalizeFilename des)) :
    Completes (cp src des) s fun res s' => ∃ dir' es' lost', Parked s' others ∧
      Catalog s'.disk dir' es' lost' ∧ Kept others s.heap s'.heap ∧
      Undisturbed (normalizeFilename des).bytes s.disk s'.disk es es' ∧
      (((∃ e ∈ es, e.record.name = (normalizeFilename src).bytes) →
        normalizeFilename src ≠ normalizeFilename des →
        ∀ e ∈ es, e.record.name = (normalizeFilename des).bytes → e.record.isSystem = true →
          e.cells.length = 2) → lost' = lost) ∧
      (res = 0 → Copied (normalizeFilename src) (normalizeFilename des) s.disk s'.disk es es') := by
  apply meets_mono (cp_traced src des parked catalog ready)
  rintro res s' ⟨dir', es', lost', parked', catalog', kept, same, leak, _, copied⟩
  refine ⟨dir', es', lost', parked', catalog', kept, same, leak, fun zero => ?_⟩
  obtain ⟨_, e, inside, named, e', inside', named', data, _⟩ := copied zero
  exact ⟨e, inside, named, e', inside', named', data⟩

end

end Delos.Invariants
