import Mathlib.Data.List.Basic
import Delos.Invariants.ListRuns

/-!
# The three loops of `reschedule_process`

The processes of the terminal are collected in a list of their own, they leave the list of blocked
processes, and they come back to its front, the last one first. Each loop walks one list and changes the
other: the walked list keeps its blocks, and the number of blocks in use follows the lengths.
-/
namespace Delos.Invariants
open Lib Source

/-- `kmalloc` finds a block while fewer than `n` are in use. -/
def Ample (alloc : Allocator) (n : Nat) : Prop := ∀ h : ListHeap, h.live.card < n → alloc.pick h ≠ 0

section
variable {h h' : ListHeap} {list last other lastOther n : Nat} {as bs l r : List Nat} {a : Nat} {alloc : Allocator}
  {shellId : Nat → Nat} {pid : Nat}

theorem ListAt.reads (at_ : ListAt h list last (l ++ a :: r)) :
    a ≠ 0 ∧ ∃ n, readNode a h = .ok (n, h) ∧ n.next = r.headD 0 ∧ n.prev = l.getLastD 0 ∧ n.data = h.data a := by
  obtain ⟨live, n, here⟩ := at_.nodes a (by simp)
  obtain ⟨before, behind, _⟩ := at_.parts
  obtain ⟨next, prev, data⟩ := fields_of_block here
  refine ⟨fun null => at_.null (by simp [null]), n, readNode_run live here, ?_, ?_, data.symm⟩
  · exact next.symm.trans behind
  · exact prev.symm.trans before

/-- Blocks in use and new blocks. -/
theorem added_card (new : a ∉ h.live) (live : h'.live = insert a h.live) : h'.live.card = h.live.card + 1 := by
  rw [live, Finset.card_insert_of_notMem new]

theorem collectProcesses_run (shellId : Nat → Nat) (pid : Nat) (ample : Ample alloc n) {fuel : Nat} {rest : List Nat}
    (at_ : ListAt h list last (l ++ rest)) (temporary : ListAt h other lastOther bs)
    (apart : ∀ b ∈ list :: (l ++ rest), b ∉ other :: bs) (enough : rest.length < fuel)
    (room : h.live.card + ((rest.map h.data).filter (shellId · = pid)).length ≤ n) (clean : bs = [] → lastOther = 0) :
    ∃ h' lastOther' bs', collectProcesses alloc shellId pid other fuel (rest.headD 0) h = .ok ((), h') ∧
      ListAt h' list last (l ++ rest) ∧ (l ++ rest).map h'.data = (l ++ rest).map h.data ∧
      ListAt h' other lastOther' bs' ∧ (∀ b ∈ bs', b ∈ h.live → b ∈ bs) ∧
      bs'.map h'.data = bs.map h.data ++ (rest.map h.data).filter (shellId · = pid) ∧
      h'.live.card + bs.length = h.live.card + bs'.length ∧ (bs' = [] → lastOther' = 0) ∧
      BlocksKept h h' (other :: bs) := by
  induction rest generalizing h l fuel lastOther bs with
  | nil =>
    cases fuel with
    | zero => simp at enough
    | succ fuel =>
      refine ⟨h, lastOther, bs, rfl, at_, rfl, temporary, fun b member _ => member, ?_, rfl, clean, fun b live _ => ⟨live, rfl⟩⟩
      simp
  | cons a rest ih =>
    cases fuel with
    | zero => simp at enough
    | succ fuel =>
      obtain ⟨valid, node, read, next, _, data⟩ := at_.reads
      have enough' : rest.length < fuel := Nat.lt_of_succ_lt_succ enough
      unfold collectProcesses
      rw [List.headD_cons, if_neg valid, run_bind read, data]
      by_cases mine : shellId (h.data a) = pid
      · have given : alloc.pick h ≠ 0 := ample h (by
          rw [List.map_cons, List.filter_cons_of_pos (by simpa using mine)] at room
          simp only [List.length_cons] at room
          omega)
        obtain ⟨h1, run, live, added, sequence, kept⟩ := listAddLast_run temporary given (h.data a)
        have new := alloc.fresh h given
        have count := added_card new live
        obtain ⟨at1, same⟩ := at_.kept kept apart
        have apart1 : ∀ b ∈ list :: (l ++ a :: rest), b ∉ other :: (bs ++ [alloc.pick h]) := fun b member inside => by
          have used : b ∈ h.live := by
            rcases List.mem_cons.mp member with rfl | member
            · exact at_.head
            · exact (at_.nodes b member).1
          rw [← List.cons_append] at inside
          rcases List.mem_append.mp inside with inside | inside
          · exact apart b member inside
          · exact new (List.mem_singleton.mp inside ▸ used)
        obtain ⟨_, node1, read1, next1, _⟩ := at1.reads
        have walked : (l ++ [a]) ++ rest = l ++ a :: rest := by simp
        have restSame : rest.map h1.data = rest.map h.data :=
          List.map_congr_left fun b member => List.map_inj_left.mp same b (by simp [member])
        obtain ⟨h', lastOther', bs', run', at', same', temporary', old', sequence', count', clean', kept'⟩ :=
          ih (h := h1) (l := l ++ [a]) (walked ▸ at1) added (walked ▸ apart1) enough' (by
            rw [restSame, count]
            rw [List.map_cons, List.filter_cons_of_pos (by simpa using mine)] at room
            simp only [List.length_cons] at room
            omega) (fun empty => by simp at empty)
        rw [walked] at at' same'
        refine ⟨h', lastOther', bs', ?_, at', same'.trans same, temporary', fun b member used => ?_, ?_, ?_, clean', ?_⟩
        · rw [if_pos mine, run_bind run, run_bind read1, next1]
          exact run'
        · rcases List.mem_append.mp (old' b member (live ▸ Finset.mem_insert_of_mem used)) with inside | inside
          · exact inside
          · exact absurd used (List.mem_singleton.mp inside ▸ new)
        · rw [sequence', sequence, restSame, List.map_cons, List.filter_cons_of_pos (by simpa using mine)]
          simp
        · simp only [List.length_append, List.length_singleton] at count'
          omega
        · refine kept.trans kept' fun b inside used => ?_
          rw [← List.cons_append] at inside
          rcases List.mem_append.mp inside with inside | inside
          · exact inside
          · exact absurd used (List.mem_singleton.mp inside ▸ new)
      · have walked : (l ++ [a]) ++ rest = l ++ a :: rest := by simp
        obtain ⟨h', lastOther', bs', run', rest'⟩ := ih (l := l ++ [a]) (walked ▸ at_) temporary (walked ▸ apart) enough' (by
          rw [List.map_cons, List.filter_cons_of_neg (by simpa using mine)] at room
          exact room) clean
        rw [walked] at rest'
        refine ⟨h', lastOther', bs', ?_, ?_⟩
        · rw [if_neg mine, next]
          exact run'
        · rw [List.map_cons, List.filter_cons_of_neg (by simpa using mine)]
          exact rest'

/-- `other` is walked, `list` loses what it meets. -/
theorem removeProcesses_run {fuel : Nat} {rest : List Nat} (at_ : ListAt h list last as)
    (temporary : ListAt h other lastOther (l ++ rest)) (apart : ∀ b ∈ other :: (l ++ rest), b ∉ list :: as)
    (enough : rest.length < fuel) :
    ∃ h' last' as', removeProcesses list fuel (rest.headD 0) h = .ok ((), h') ∧ ListAt h' list last' as' ∧ as' ⊆ as ∧
      as'.map h'.data = (as.map h.data).diff (rest.map h.data) ∧ h'.live.card + as.length = h.live.card + as'.length ∧
      BlocksKept h h' (list :: as) := by
  induction rest generalizing h l fuel last as with
  | nil =>
    cases fuel with
    | zero => simp at enough
    | succ fuel =>
      exact ⟨h, last, as, rfl, at_, List.Subset.refl as, rfl, rfl, fun b live _ => ⟨live, rfl⟩⟩
  | cons a rest ih =>
    cases fuel with
    | zero => simp at enough
    | succ fuel =>
      obtain ⟨valid, node, read, _, _, data⟩ := temporary.reads
      obtain ⟨h1, last1, as1, run, at1, subset, sequence, count, _, kept⟩ := listRemoveData_erase at_ (h.data a)
      obtain ⟨temporary1, same⟩ := temporary.kept kept apart
      obtain ⟨_, node1, read1, next1, _⟩ := temporary1.reads
      have walked : (l ++ [a]) ++ rest = l ++ a :: rest := by simp
      have restSame : rest.map h1.data = rest.map h.data :=
        List.map_congr_left fun b member => List.map_inj_left.mp same b (by simp [member])
      have less : ∀ b ∈ list :: as1, b ∈ list :: as := fun b inside => by
        rcases List.mem_cons.mp inside with rfl | inside
        · exact List.mem_cons_self
        · exact List.mem_cons_of_mem _ (subset inside)
      obtain ⟨h', last', as', run', at', subset', sequence', count', kept'⟩ := ih at1 (l := l ++ [a]) (walked ▸ temporary1)
        (fun b member inside => apart b (walked ▸ member) (less b inside)) (Nat.lt_of_succ_lt_succ enough)
      refine ⟨h', last', as', ?_, at', List.Subset.trans subset' subset, ?_, by omega, kept.trans kept' fun b inside _ => less b inside⟩
      · unfold removeProcesses
        rw [List.headD_cons, if_neg valid, run_bind read, data, run_bind run, run_bind read1, next1]
        exact run'
      · rw [sequence', sequence, restSame, List.map_cons, List.diff_cons]

/-- `other` is walked from its end, and what is met comes to the front of `list`. -/
theorem returnProcesses_run (ample : Ample alloc n) {fuel : Nat} {front : List Nat} (at_ : ListAt h list last as)
    (temporary : ListAt h other lastOther (front ++ r)) (apart : ∀ b ∈ other :: (front ++ r), b ∉ list :: as)
    (enough : front.length < fuel) (room : h.live.card + front.length ≤ n) :
    ∃ h' last' as', returnProcesses alloc list fuel (front.getLastD 0) h = .ok ((), h') ∧ ListAt h' list last' as' ∧
      as'.map h'.data = front.map h.data ++ as.map h.data ∧ h'.live.card + as.length = h.live.card + as'.length ∧
      ListAt h' other lastOther (front ++ r) ∧ (∀ b ∈ as', b ∈ h.live → b ∈ as) ∧
      BlocksKept h h' (list :: as) := by
  induction front using List.reverseRecOn generalizing h r fuel last as with
  | nil =>
    cases fuel with
    | zero => simp at enough
    | succ fuel => exact ⟨h, last, as, rfl, at_, rfl, rfl, temporary, fun b member _ => member, fun b live _ => ⟨live, rfl⟩⟩
  | append_singleton front a ih =>
    cases fuel with
    | zero => simp at enough
    | succ fuel =>
      have walked : front ++ [a] ++ r = front ++ a :: r := by simp
      rw [walked] at temporary apart
      rw [List.length_append, List.length_singleton] at room enough
      obtain ⟨valid, node, read, _, _, data⟩ := temporary.reads
      have given : alloc.pick h ≠ 0 := ample h (by omega)
      obtain ⟨h1, run, live, added, sequence, kept⟩ := listAddFirst_run at_ given (h.data a)
      have new := alloc.fresh h given
      have count := added_card new live
      obtain ⟨temporary1, same⟩ := temporary.kept kept apart
      obtain ⟨_, node1, read1, _, prev1, _⟩ := temporary1.reads
      have frontSame : front.map h1.data = front.map h.data :=
        List.map_congr_left fun b member => List.map_inj_left.mp same b (by simp [member])
      have apart1 : ∀ b ∈ other :: (front ++ a :: r), b ∉ list :: alloc.pick h :: as := fun b member inside => by
        have used : b ∈ h.live := by
          rcases List.mem_cons.mp member with rfl | member
          · exact temporary.head
          · exact (temporary.nodes b member).1
        rcases List.mem_cons.mp inside with rfl | inside
        · exact apart _ member List.mem_cons_self
        · rcases List.mem_cons.mp inside with rfl | inside
          · exact new used
          · exact apart b member (List.mem_cons_of_mem _ inside)
      obtain ⟨h', last', as', run', at', sequence', count', temporary', old', kept'⟩ :=
        ih added temporary1 apart1 (Nat.lt_of_succ_lt_succ enough) (by omega)
      rw [List.length_cons] at count'
      refine ⟨h', last', as', ?_, at', ?_, by omega, walked ▸ temporary', fun b member used => ?_, ?_⟩
      · unfold returnProcesses
        rw [List.getLastD_concat, if_neg valid, run_bind read, data, run_bind run, run_bind read1, prev1]
        exact run'
      · rw [sequence', sequence, frontSame]
        simp
      · rcases List.mem_cons.mp (old' b member (live ▸ Finset.mem_insert_of_mem used)) with rfl | inside
        · exact absurd used new
        · exact inside
      · refine kept.trans kept' fun b inside used => ?_
        rcases List.mem_cons.mp inside with rfl | inside
        · exact List.mem_cons_self
        · rcases List.mem_cons.mp inside with rfl | inside
          · exact absurd used new
          · exact List.mem_cons_of_mem _ inside

theorem freeNodes_run {fuel : Nat} (chain : ChainFrom h as) (distinct : as.Nodup) (enough : as.length < fuel) :
    freeNodes fuel (as.headD 0) h = .ok ((), { h with live := h.live \ as.toFinset }) := by
  induction as generalizing h fuel with
  | nil =>
    cases fuel with
    | zero => simp at enough
    | succ fuel =>
      have none : h.live \ ([] : List Nat).toFinset = h.live := by simp
      rw [none]
      rfl
  | cons a as ih =>
    cases fuel with
    | zero => simp at enough
    | succ fuel =>
      obtain ⟨valid, ⟨node, read, _, next⟩, tail⟩ := chain.step
      obtain ⟨new, distinct⟩ := List.nodup_cons.mp distinct
      have freed : ChainFrom { h with live := h.live.erase a } as := by
        constructor
        · intro b member
          have other : b ≠ a := fun same => new (same ▸ member)
          exact ⟨Finset.mem_erase.mpr ⟨other, (tail.nodes b member).1⟩, (tail.nodes b member).2⟩
        · exact tail.null
        · exact tail.linked
      unfold freeNodes
      rw [List.headD_cons, if_neg valid, run_bind read,
        run_bind (show freeBlock a h = .ok ((), { h with live := h.live.erase a }) from rfl), next,
        ih freed distinct (Nat.lt_of_succ_lt_succ enough)]
      congr 3
      ext b
      simp only [Finset.mem_sdiff, Finset.mem_erase, List.mem_toFinset, List.mem_cons]
      tauto

theorem listFree_run (at_ : ListAt h list last as) :
    ∃ h', listFree list h = .ok ((), h') ∧ h'.live.card + as.length + 1 = h.live.card ∧ BlocksKept h h' (list :: as) := by
  refine ⟨{ h with live := (h.live \ as.toFinset).erase list }, ?_, ?_, fun b live outside => ⟨?_, rfl⟩⟩
  · unfold listFree
    rw [run_bind (readList_run at_.head at_.record), run_bind (show (get : Listing ListHeap) h = .ok (h, h) from rfl),
      run_bind (freeNodes_run at_.chain at_.nodup at_.few)]
    rfl
  · have inside : as.toFinset ⊆ h.live := fun a member => (at_.nodes a (List.mem_toFinset.mp member)).1
    have head : list ∈ h.live \ as.toFinset :=
      Finset.mem_sdiff.mpr ⟨at_.head, fun member => at_.apart (List.mem_toFinset.mp member)⟩
    have nodes := Finset.card_sdiff_add_card_eq_card inside
    have last := Finset.card_erase_add_one head
    rw [List.toFinset_card_of_nodup at_.nodup] at nodes
    simp only
    omega
  · obtain ⟨notList, notNode⟩ := not_or.mp fun inside => outside (List.mem_cons.mpr inside)
    exact Finset.mem_erase.mpr ⟨notList, Finset.mem_sdiff.mpr ⟨live, fun member => notNode (List.mem_toFinset.mp member)⟩⟩

/-- The list behind the three loops. -/
theorem rescheduleList_run (at_ : ListAt h list last as) (distinct : (as.map h.data).Nodup)
    (ample : Ample alloc (h.live.card + ((as.map h.data).filter (shellId · = pid)).length + 1)) :
    ∃ h' last' as', rescheduleList alloc shellId pid list h = .ok ((), h') ∧ ListAt h' list last' as' ∧
      as'.map h'.data = (as.map h.data).filter (shellId · = pid) ++ (as.map h.data).filter (shellId · ≠ pid) ∧
      h'.live.card = h.live.card ∧ BlocksKept h h' (list :: as) := by
  generalize chosen : (as.map h.data).filter (shellId · = pid) = own at ample ⊢
  have given : alloc.pick h ≠ 0 := ample h (by omega)
  have new := alloc.fresh h given
  have create : listCreate alloc h = .ok (alloc.pick h, h.allocate (alloc.pick h) (.list ⟨0, 0, 0⟩)) := allocateBlock_run given _
  have temporary0 := listCreate_run create given
  generalize alloc.pick h = pcbs at given new create temporary0
  generalize first : h.allocate pcbs (.list ⟨0, 0, 0⟩) = h0 at create temporary0
  have live0 : h0.live = insert pcbs h.live := by rw [← first]; rfl
  have kept0 : BlocksKept h h0 [] := fun b live _ => by
    have other : b ≠ pcbs := fun same => new (same ▸ live)
    rw [live0, ← first, block_allocate, if_neg other]
    exact ⟨Finset.mem_insert_of_mem live, rfl⟩
  have used : ∀ b ∈ list :: as, b ∈ h.live := fun b member => by
    rcases List.mem_cons.mp member with rfl | member
    · exact at_.head
    · exact (at_.nodes b member).1
  obtain ⟨at0, same0⟩ := at_.kept kept0 fun b _ => List.not_mem_nil
  -- collecting
  obtain ⟨h1, last1, ps, run1, at1, same1, temporary1, old1, sequence1, count1, clean1, kept1⟩ :=
    collectProcesses_run shellId pid ample at0 (l := []) temporary0
      (fun b member inside => new (List.mem_singleton.mp inside ▸ used b member)) at0.few
      (by rw [same0, chosen, added_card new live0]; omega) fun _ => rfl
  rw [List.nil_append] at at1 same1
  rw [same0, chosen, List.map_nil, List.nil_append] at sequence1
  rw [same0] at same1
  have fresh : ∀ b ∈ pcbs :: ps, b ∉ h.live := fun b member inside => by
    rcases List.mem_cons.mp member with rfl | member
    · exact new inside
    · exact List.not_mem_nil (old1 b member (live0 ▸ Finset.mem_insert_of_mem inside))
  have apart1 : ∀ b ∈ pcbs :: ps, b ∉ list :: as := fun b member inside => fresh b member (used b inside)
  -- removing
  obtain ⟨h2, last2, as2, run2, at2, subset2, sequence2, count2, kept2⟩ :=
    removeProcesses_run (l := []) at1 temporary1 apart1 temporary1.few
  obtain ⟨temporary2, same2⟩ := temporary1.kept kept2 apart1
  rw [same1, sequence1] at sequence2
  have others : (as.map h.data).diff own = (as.map h.data).filter (shellId · ≠ pid) := by
    rw [distinct.sdiff_eq_filter]
    refine List.filter_congr fun x member => ?_
    simp [← chosen, List.mem_filter, List.mem_map.mp member]
  have parts := List.length_eq_length_filter_add (l := as.map h.data) (shellId · = pid)
  have lengths := congrArg List.length sequence1
  have lengths2 := congrArg List.length sequence2
  have count0 := added_card new live0
  rw [chosen] at parts
  rw [others] at lengths2
  simp only [List.length_map, List.length_nil, ne_eq, decide_not] at parts lengths lengths2 count1
  -- returning
  have ends : last1 = ps.getLastD 0 := by
    cases ps with
    | nil => exact clean1 rfl
    | cons b rest => exact temporary1.ends (List.cons_ne_nil b rest)
  have less : ∀ b ∈ list :: as2, b ∈ list :: as := fun b inside => by
    rcases List.mem_cons.mp inside with rfl | inside
    · exact List.mem_cons_self
    · exact List.mem_cons_of_mem _ (subset2 inside)
  obtain ⟨h3, last3, as3, run3, at3, sequence3, count3, temporary3, old3, kept3⟩ :=
    returnProcesses_run (r := []) ample at2 (show ListAt h2 _ _ (ps ++ []) by rw [List.append_nil]; exact temporary2)
      (fun b member inside => apart1 b (by rwa [List.append_nil] at member) (less b inside)) temporary2.few (by omega)
  rw [List.append_nil] at temporary3
  have lengths3 := congrArg List.length sequence3
  simp only [List.length_append, List.length_map] at lengths3
  -- the list of its own goes
  obtain ⟨h4, run4, count4, kept4⟩ := listFree_run temporary3
  have apart3 : ∀ b ∈ list :: as3, b ∉ pcbs :: ps := fun b member inside => by
    rcases List.mem_cons.mp member with rfl | member
    · exact apart1 b inside List.mem_cons_self
    · have used2 : b ∈ h2.live := by
        rcases List.mem_cons.mp inside with rfl | inside
        · exact temporary2.head
        · exact (temporary2.nodes b inside).1
      exact apart1 b inside (less b (List.mem_cons_of_mem _ (old3 b member used2)))
  obtain ⟨at4, same4⟩ := at3.kept kept4 apart3
  refine ⟨h4, last3, as3, ?_, at4, ?_, by omega, ?_⟩
  · unfold rescheduleList
    rw [run_bind create, run_bind (readList_run at0.head at0.record),
      run_bind (show (get : Listing ListHeap) h0 = .ok (h0, h0) from rfl), run_bind run1,
      run_bind (readList_run temporary1.head temporary1.record),
      run_bind (show (get : Listing ListHeap) h1 = .ok (h1, h1) from rfl), run_bind run2,
      run_bind (readList_run temporary2.head temporary2.record),
      run_bind (show (get : Listing ListHeap) h2 = .ok (h2, h2) from rfl), ends, run_bind run3, run4]
  · rw [same4, sequence3, same2, sequence1, sequence2, others]
  · intro b live outside
    obtain ⟨live0, here0⟩ := kept0 b live List.not_mem_nil
    obtain ⟨live1, here1⟩ := kept1 b live0 fun inside => new (List.mem_singleton.mp inside ▸ live)
    obtain ⟨live2, here2⟩ := kept2 b live1 outside
    obtain ⟨live3, here3⟩ := kept3 b live2 fun inside => outside (less b inside)
    obtain ⟨live4, here4⟩ := kept4 b live3 fun inside => fresh b inside live
    exact ⟨live4, by rw [here4, here3, here2, here1, here0]⟩

end

end Delos.Invariants
