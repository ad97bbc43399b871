import Mathlib.Data.List.Nodup
import Mathlib.Data.List.Lattice
import Delos.Lib.Links
import Delos.Source.LinkedList

/-!
# The functions of list.cpp on a well-formed list

`ListAt h list last as` says that the nodes `as` hang together in both directions behind the
head at `list`. Each function is specified by the nodes behind it; all blocks but those of
the list itself stay as they are. `last` is the last node unless the list is empty: then it is
whatever was left there.
-/
namespace Delos.Invariants
open Lib Source

structure ListAt (h : ListHeap) (list last : Nat) (as : List Nat) : Prop where
  valid : list ≠ 0
  head : list ∈ h.live
  record : h.block list = .list ⟨as.headD 0, last, as.length⟩
  ends : as ≠ [] → last = as.getLastD 0
  nodes : ∀ a ∈ as, a ∈ h.live ∧ ∃ n, h.block a = .node n
  nodup : as.Nodup
  null : 0 ∉ as
  linked : LinkedSegment h.next h.prev 0 as 0

/-- The blocks outside `mine` stay as they are. -/
def BlocksKept (h h' : ListHeap) (mine : List Nat) : Prop :=
  ∀ b ∈ h.live, b ∉ mine → b ∈ h'.live ∧ h'.block b = h.block b

section
variable {h h' h'' : ListHeap} {list last a b : Nat} {as l r : List Nat} {n : ListNode} {alloc : Allocator}

theorem block_store (a : Nat) (v : ListBlock) (h : ListHeap) (b : Nat) :
    (h.store a v).block b = if b = a then v else h.block b := by
  by_cases same : b = a
  · rw [if_pos same, same]
    exact Function.update_self ..
  · rw [if_neg same]
    exact Function.update_of_ne same ..

theorem block_stored (a : Nat) (v : ListBlock) (h : ListHeap) : (h.store a v).block a = v := Function.update_self ..

theorem live_store {v : ListBlock} (live : a ∈ h.live) : a ∈ (h.store b v).live := live

/-- The fields of a node. -/
theorem fields_of_block (here : h.block a = .node n) : h.next a = n.next ∧ h.prev a = n.prev ∧ h.data a = n.data := by
  unfold ListHeap.next ListHeap.prev ListHeap.data
  rw [here]
  exact ⟨rfl, rfl, rfl⟩

theorem readNode_run (live : a ∈ h.live) (here : h.block a = .node n) : readNode a h = .ok (n, h) := by
  unfold readNode
  rw [run_bind (show (get : Listing ListHeap) h = .ok (h, h) from rfl), if_pos live, here]
  rfl

theorem readList_run {v : ListHead} (live : list ∈ h.live) (here : h.block list = .list v) :
    readList list h = .ok (v, h) := by
  unfold readList
  rw [run_bind (show (get : Listing ListHeap) h = .ok (h, h) from rfl), if_pos live, here]
  rfl

theorem updateNode_run (live : a ∈ h.live) (here : h.block a = .node n) (f : ListNode → ListNode) :
    updateNode a f h = .ok ((), h.store a (.node (f n))) := by
  unfold updateNode
  rw [run_bind (readNode_run live here)]
  rfl

theorem updateList_run {v : ListHead} (live : list ∈ h.live) (here : h.block list = .list v) (f : ListHead → ListHead) :
    updateList list f h = .ok ((), h.store list (.list (f v))) := by
  unfold updateList
  rw [run_bind (readList_run live here)]
  rfl

/-- What the second part changes is new, or among what the first part changes. -/
theorem BlocksKept.trans {mine more : List Nat} (first : BlocksKept h h' mine) (second : BlocksKept h' h'' more)
    (less : ∀ b ∈ more, b ∈ h.live → b ∈ mine) : BlocksKept h h'' mine := fun b live outside => by
  obtain ⟨live', same⟩ := first b live outside
  obtain ⟨live'', same'⟩ := second b live' fun inside => outside (less b inside live)
  exact ⟨live'', same'.trans same⟩

theorem links_of_block (same : h'.block a = h.block a) :
    h'.next a = h.next a ∧ h'.prev a = h.prev a ∧ h'.data a = h.data a := by
  unfold ListHeap.next ListHeap.prev ListHeap.data
  rw [same]
  exact ⟨rfl, rfl, rfl⟩

theorem map_data (same : ∀ a ∈ as, h'.block a = h.block a) : as.map h'.data = as.map h.data :=
  List.map_congr_left fun a member => (links_of_block (same a member)).2.2

/-- A list does not notice what happens outside its blocks. -/
theorem ListAt.kept {mine : List Nat} (at_ : ListAt h list last as) (kept : BlocksKept h h' mine)
    (apart : ∀ b ∈ list :: as, b ∉ mine) : ListAt h' list last as ∧ as.map h'.data = as.map h.data := by
  have inside : ∀ a ∈ as, a ∈ h'.live ∧ h'.block a = h.block a := fun a member =>
    kept a (at_.nodes a member).1 (apart a (List.mem_cons_of_mem _ member))
  obtain ⟨live, same⟩ := kept list at_.head (apart list List.mem_cons_self)
  refine ⟨⟨at_.valid, live, same.trans at_.record, at_.ends, fun a member => ?_, at_.nodup, at_.null, ?_⟩,
    map_data fun a member => (inside a member).2⟩
  · obtain ⟨n, here⟩ := (at_.nodes a member).2
    exact ⟨(inside a member).1, n, (inside a member).2.trans here⟩
  · refine (segment_congr fun a member => ?_).mpr at_.linked
    obtain ⟨nexts, prevs, _⟩ := links_of_block (inside a member).2
    exact ⟨nexts, prevs⟩

theorem ListAt.apart (at_ : ListAt h list last as) : list ∉ as := fun inside => by
  obtain ⟨_, n, here⟩ := at_.nodes list inside
  rw [at_.record] at here
  cases here

theorem ListAt.few (at_ : ListAt h list last as) : as.length < h.fuel := by
  have inside : as.toFinset ⊆ h.live := fun a member => (at_.nodes a (List.mem_toFinset.mp member)).1
  have count := Finset.card_le_card inside
  rw [List.toFinset_card_of_nodup at_.nodup] at count
  exact Nat.lt_succ_of_le count

/-! ## Adding -/

theorem allocateBlock_run (given : alloc.pick h ≠ 0) (v : ListBlock) :
    allocateBlock alloc v h = .ok (alloc.pick h, h.allocate (alloc.pick h) v) := by
  unfold allocateBlock
  rw [run_bind (show (get : Listing ListHeap) h = .ok (h, h) from rfl), if_neg given]
  rfl

theorem block_allocate (a : Nat) (v : ListBlock) (h : ListHeap) (b : Nat) :
    (h.allocate a v).block b = if b = a then v else h.block b := block_store a v h b

/-- A node in front of the others. -/
theorem ListAt.cons (at_ : ListAt h list last as) {data : Nat} (new : a ∉ h.live) (valid : a ≠ 0)
    (live : h'.live = insert a h.live) (node : h'.block a = .node ⟨as.headD 0, 0, data⟩)
    (record : h'.block list = .list ⟨a, if as = [] then a else last, as.length + 1⟩)
    (head : ∀ b n, as.head? = some b → h.block b = .node n → h'.block b = .node { n with prev := a })
    (other : ∀ b, b ≠ a → b ≠ list → b ∉ as.head? → h'.block b = h.block b) :
    ListAt h' list (if as = [] then a else last) (a :: as) ∧
      (a :: as).map h'.data = data :: as.map h.data ∧ BlocksKept h h' (list :: as) := by
  have fresh : ∀ b ∈ as, b ≠ a := fun b member same => new (same ▸ (at_.nodes b member).1)
  have notList : ∀ b ∈ as, b ≠ list := fun b member same => at_.apart (same ▸ member)
  have block : ∀ b ∈ as, ∀ n, h.block b = .node n →
      h'.block b = .node { n with prev := if b ∈ as.head? then a else n.prev } := fun b member n here => by
    by_cases first : b ∈ as.head?
    · rw [if_pos first]
      exact head b n first here
    · rw [if_neg first, other b (fresh b member) (notList b member) first, here]
  have links : ∀ b ∈ as, h'.next b = h.next b ∧ h'.data b = h.data b ∧
      h'.prev b = if b ∈ as.head? then a else h.prev b := fun b member => by
    obtain ⟨_, n, here⟩ := at_.nodes b member
    unfold ListHeap.next ListHeap.prev ListHeap.data
    rw [block b member n here, here]
    exact ⟨rfl, rfl, rfl⟩
  refine ⟨⟨at_.valid, ?_, record, fun _ => ?_, fun b member => ?_, ?_, ?_, ?_, ?_, ?_⟩, ?_, fun b inside outside => ?_⟩
  · rw [live]
    exact Finset.mem_insert_of_mem at_.head
  · rw [getLastD_cons_append]
    by_cases empty : as = []
    · rw [if_pos empty, empty]
      rfl
    · rw [if_neg empty, at_.ends empty]
      cases as with
      | nil => exact absurd rfl empty
      | cons b rest => rfl
  · rw [live]
    rcases List.mem_cons.mp member with rfl | inside
    · exact ⟨Finset.mem_insert_self _ _, _, node⟩
    · obtain ⟨live', n, here⟩ := at_.nodes b inside
      exact ⟨Finset.mem_insert_of_mem live', _, block b inside n here⟩
  · exact List.nodup_cons.mpr ⟨fun inside => fresh a inside rfl, at_.nodup⟩
  · exact fun inside => (List.mem_cons.mp inside).elim (fun same => valid same.symm) at_.null
  · unfold ListHeap.prev
    rw [node]
  · unfold ListHeap.next
    rw [node]
  · refine at_.linked.front (fun b first => ?_) (fun b member => (links b member).1) fun b member => ?_
    · have member : b ∈ as := List.mem_of_head? first
      rw [(links b member).2.2, if_pos (show b ∈ as.head? from first)]
    · have inside := List.mem_of_mem_tail member
      rw [(links b inside).2.2, if_neg fun first => ?_]
      cases as with
      | nil => cases member
      | cons c rest =>
        obtain rfl : c = b := Option.some.inj first
        exact (List.nodup_cons.mp at_.nodup).1 member
  · rw [List.map_cons]
    congr 1
    · unfold ListHeap.data
      rw [node]
    · exact List.map_congr_left fun b member => (links b member).2.1
  · rw [live]
    refine ⟨Finset.mem_insert_of_mem inside, other b (fun same => new (same ▸ inside)) ?_ fun first => ?_⟩
    · exact fun same => outside (same ▸ List.mem_cons_self)
    · exact outside (List.mem_cons_of_mem _ (List.mem_of_head? first))

/-- A node behind the others. -/
theorem ListAt.snoc (at_ : ListAt h list last as) {data : Nat} (new : a ∉ h.live) (valid : a ≠ 0)
    (live : h'.live = insert a h.live) (node : h'.block a = .node ⟨0, as.getLastD 0, data⟩)
    (record : h'.block list = .list ⟨(as ++ [a]).headD 0, a, as.length + 1⟩)
    (tail : ∀ b n, as.getLast? = some b → h.block b = .node n → h'.block b = .node { n with next := a })
    (other : ∀ b, b ≠ a → b ≠ list → b ∉ as.getLast? → h'.block b = h.block b) :
    ListAt h' list a (as ++ [a]) ∧ (as ++ [a]).map h'.data = as.map h.data ++ [data] ∧ BlocksKept h h' (list :: as) := by
  have fresh : ∀ b ∈ as, b ≠ a := fun b member same => new (same ▸ (at_.nodes b member).1)
  have notList : ∀ b ∈ as, b ≠ list := fun b member same => at_.apart (same ▸ member)
  have block : ∀ b ∈ as, ∀ n, h.block b = .node n →
      h'.block b = .node { n with next := if b ∈ as.getLast? then a else n.next } := fun b member n here => by
    by_cases final : b ∈ as.getLast?
    · rw [if_pos final]
      exact tail b n final here
    · rw [if_neg final, other b (fresh b member) (notList b member) final, here]
  have links : ∀ b ∈ as, h'.prev b = h.prev b ∧ h'.data b = h.data b ∧
      h'.next b = if b ∈ as.getLast? then a else h.next b := fun b member => by
    obtain ⟨_, n, here⟩ := at_.nodes b member
    unfold ListHeap.next ListHeap.prev ListHeap.data
    rw [block b member n here, here]
    exact ⟨rfl, rfl, rfl⟩
  refine ⟨⟨at_.valid, ?_, ?_, fun _ => ?_, fun b member => ?_, ?_, ?_, segment_append.mpr ⟨?_, ?_, ?_, trivial⟩⟩, ?_,
    fun b inside outside => ?_⟩
  · rw [live]
    exact Finset.mem_insert_of_mem at_.head
  · rw [record, List.length_append, List.length_singleton]
  · rw [List.getLastD_eq_getLast?, List.getLast?_append_of_ne_nil _ (List.cons_ne_nil a [])]
    rfl
  · rw [live]
    rcases List.mem_append.mp member with inside | final
    · obtain ⟨live', n, here⟩ := at_.nodes b inside
      exact ⟨Finset.mem_insert_of_mem live', _, block b inside n here⟩
    · rw [List.mem_singleton.mp final]
      exact ⟨Finset.mem_insert_self _ _, _, node⟩
  · refine List.nodup_append.mpr ⟨at_.nodup, List.nodup_singleton a, fun b inside c final => ?_⟩
    rw [List.mem_singleton.mp final]
    exact fresh b inside
  · intro inside
    rcases List.mem_append.mp inside with inside | final
    · exact at_.null inside
    · exact valid (List.mem_singleton.mp final).symm
  · refine at_.linked.back (fun b final => ?_) (fun b member => ?_) fun b member => (links b member).1
    · have member : b ∈ as := List.mem_of_getLast? final
      rw [(links b member).2.2, if_pos (show b ∈ as.getLast? from final)]
      rfl
    · have inside := List.mem_of_mem_dropLast member
      rw [(links b inside).2.2, if_neg fun final => ?_]
      have split := List.dropLast_append_getLast? b final
      have distinct := at_.nodup
      rw [← split] at distinct
      exact (List.nodup_append.mp distinct).2.2 b member b List.mem_cons_self rfl
  · unfold ListHeap.prev
    rw [node]
  · unfold ListHeap.next
    rw [node]
    rfl
  · rw [List.map_append, List.map_singleton]
    congr 1
    · exact List.map_congr_left fun b member => (links b member).2.1
    · unfold ListHeap.data
      rw [node]
  · rw [live]
    refine ⟨Finset.mem_insert_of_mem inside, other b (fun same => new (same ▸ inside)) ?_ fun final => ?_⟩
    · exact fun same => outside (same ▸ List.mem_cons_self)
    · exact outside (List.mem_cons_of_mem _ (List.mem_of_getLast? final))

theorem listAddFirst_run (at_ : ListAt h list last as) (given : alloc.pick h ≠ 0) (data : Nat) :
    ∃ h', listAddFirst alloc list data h = .ok ((), h') ∧ h'.live = insert (alloc.pick h) h.live ∧
      ListAt h' list (if as = [] then alloc.pick h else last) (alloc.pick h :: as) ∧
      (alloc.pick h :: as).map h'.data = data :: as.map h.data ∧ BlocksKept h h' (list :: as) := by
  have new := alloc.fresh h given
  generalize node : alloc.pick h = a at given new
  have notList : list ≠ a := fun same => new (same ▸ at_.head)
  have live : list ∈ insert a h.live := Finset.mem_insert_of_mem at_.head
  have create : listNodeCreate alloc data h = .ok (a, h.allocate a (.node ⟨0, 0, data⟩)) :=
    node ▸ allocateBlock_run (node ▸ given) _
  have record : (h.allocate a (.node ⟨0, 0, data⟩)).block list = .list ⟨as.headD 0, last, as.length⟩ := by
    rw [block_allocate, if_neg notList, at_.record]
  generalize shape : (⟨as.headD 0, last, as.length⟩ : ListHead) = v at record
  unfold listAddFirst
  rw [if_neg at_.valid, run_bind create, if_neg given, run_bind (readList_run live record)]
  cases as with
  | nil =>
    rw [if_pos (show v.first = 0 by rw [← shape]; rfl), run_bind (updateList_run live record _),
      run_bind (updateList_run live (block_stored ..) _), updateList_run live (block_stored ..)]
    refine ⟨_, rfl, rfl, at_.cons new given rfl ?_ ?_ (fun b n first => by cases first) fun b other out _ => ?_⟩
    · simp [block_store, block_allocate, notList.symm]
    · simp [block_store, ← shape]
    · simp [block_store, block_allocate, other, out]
  | cons c rest =>
    obtain ⟨liveC, n, here⟩ := at_.nodes c List.mem_cons_self
    have notC : c ≠ a := fun same => new (same ▸ liveC)
    have apart : c ≠ list := fun same => at_.apart (same ▸ List.mem_cons_self)
    have valid : c ≠ 0 := fun same => at_.null (same ▸ List.mem_cons_self)
    have first : v.first = c := by
      rw [← shape]
      rfl
    rw [if_neg (first ▸ valid), first, run_bind (updateNode_run (Finset.mem_insert_self a _) (by rw [block_allocate, if_pos rfl]) _),
      run_bind (updateNode_run (n := n) (Finset.mem_insert_of_mem liveC)
        (by rw [block_store, if_neg notC, block_allocate, if_neg notC, here]) _),
      run_bind (updateList_run (v := v) live
        (by rw [block_store, if_neg apart.symm, block_store, if_neg notList, record]) _),
      updateList_run live (block_stored ..)]
    refine ⟨_, rfl, rfl, at_.cons new given rfl ?_ ?_ (fun b m first there => ?_) fun b other out notFirst => ?_⟩
    · simp [block_store, notList.symm, notC.symm]
    · simp [block_store, ← shape]
    · obtain rfl : c = b := Option.some.inj first
      obtain rfl : n = m := ListBlock.node.inj (here.symm.trans there)
      simp [block_store, apart]
    · have notC' : b ≠ c := fun same => notFirst (same ▸ rfl)
      simp [block_store, block_allocate, other, out, notC']

theorem listAddLast_run (at_ : ListAt h list last as) (given : alloc.pick h ≠ 0) (data : Nat) :
    ∃ h', listAddLast alloc list data h = .ok ((), h') ∧ h'.live = insert (alloc.pick h) h.live ∧
      ListAt h' list (alloc.pick h) (as ++ [alloc.pick h]) ∧
      (as ++ [alloc.pick h]).map h'.data = as.map h.data ++ [data] ∧ BlocksKept h h' (list :: as) := by
  have new := alloc.fresh h given
  generalize node : alloc.pick h = a at given new
  have notList : list ≠ a := fun same => new (same ▸ at_.head)
  have live : list ∈ insert a h.live := Finset.mem_insert_of_mem at_.head
  have create : listNodeCreate alloc data h = .ok (a, h.allocate a (.node ⟨0, 0, data⟩)) :=
    node ▸ allocateBlock_run (node ▸ given) _
  have record : (h.allocate a (.node ⟨0, 0, data⟩)).block list = .list ⟨as.headD 0, last, as.length⟩ := by
    rw [block_allocate, if_neg notList, at_.record]
  generalize shape : (⟨as.headD 0, last, as.length⟩ : ListHead) = v at record
  unfold listAddLast
  rw [if_neg at_.valid, run_bind create, if_neg given, run_bind (readList_run live record)]
  rcases List.eq_nil_or_concat as with rfl | ⟨front, c, rfl⟩
  · rw [if_pos (show v.first = 0 by rw [← shape]; rfl), run_bind (updateList_run live record _),
      run_bind (updateList_run live (block_stored ..) _), updateList_run live (block_stored ..)]
    refine ⟨_, rfl, rfl, at_.snoc new given rfl ?_ ?_ (fun b n first => by cases first) fun b other out _ => ?_⟩
    · simp [block_store, block_allocate, notList.symm]
    · simp [block_store, ← shape]
    · simp [block_store, block_allocate, other, out]
  · rw [List.concat_eq_append] at *
    have member : c ∈ front ++ [c] := by simp
    obtain ⟨liveC, n, here⟩ := at_.nodes c member
    have notC : c ≠ a := fun same => new (same ▸ liveC)
    have apart : c ≠ list := fun same => at_.apart (same ▸ member)
    have ends : last = c := by
      rw [at_.ends (by simp), List.getLastD_concat]
    have valid : (front ++ [c]).headD 0 ≠ 0 := by
      have first : (front ++ [c]).headD 0 ∈ front ++ [c] := by
        cases front with
        | nil => simp
        | cons d rest => simp
      exact fun same => at_.null (same ▸ first)
    subst ends
    have first : v.first = (front ++ [last]).headD 0 := by
      rw [← shape]
    have final : v.last = last := by
      rw [← shape]
    rw [if_neg (first ▸ valid), final, run_bind (updateNode_run (Finset.mem_insert_self a _) (by rw [block_allocate, if_pos rfl]) _),
      run_bind (updateNode_run (n := n) (Finset.mem_insert_of_mem liveC)
        (by rw [block_store, if_neg notC, block_allocate, if_neg notC, here]) _),
      run_bind (updateList_run (v := v) live
        (by rw [block_store, if_neg apart.symm, block_store, if_neg notList, record]) _),
      updateList_run live (block_stored ..)]
    refine ⟨_, rfl, rfl, at_.snoc new given rfl ?_ ?_ (fun b m final there => ?_) fun b other out notFinal => ?_⟩
    · simp [block_store, notList.symm, notC.symm]
    · have front_ : ((front ++ [last]) ++ [a]).headD 0 = (front ++ [last]).headD 0 := by cases front <;> rfl
      rw [block_stored, ← shape, front_]
    · obtain rfl : last = b := by simpa using final
      obtain rfl : n = m := ListBlock.node.inj (here.symm.trans there)
      simp [block_store, apart]
    · have notC' : b ≠ last := fun same => notFinal (by simp [same])
      simp [block_store, block_allocate, other, out, notC']

/-! ## Removing -/

theorem ListAt.parts (at_ : ListAt h list last (l ++ a :: r)) :
    h.prev a = l.getLastD 0 ∧ h.next a = r.headD 0 ∧ LinkedSegment h.next h.prev 0 l a ∧
      LinkedSegment h.next h.prev a r 0 := by
  obtain ⟨before, here, behind, after⟩ := segment_append.mp at_.linked
  exact ⟨here, behind, before, after⟩

/-- What is left when the links around a node are changed and its block is freed. -/
theorem ListAt.without (at_ : ListAt h list last (l ++ a :: r)) {left : Nat} (live : h'.live = h.live.erase a)
    (record : h'.block list = .list ⟨(l ++ r).headD 0, left, (l ++ r).length⟩)
    (ends : l ++ r ≠ [] → left = (l ++ r).getLastD 0)
    (before : ∀ b n, l.getLast? = some b → h.block b = .node n → h'.block b = .node { n with next := r.headD 0 })
    (behind : ∀ b n, r.head? = some b → h.block b = .node n → h'.block b = .node { n with prev := l.getLastD 0 })
    (other : ∀ b, b ≠ list → b ∉ l.getLast? → b ∉ r.head? → h'.block b = h.block b) :
    ListAt h' list left (l ++ r) ∧ (l ++ r).map h'.data = (l ++ r).map h.data ∧
      BlocksKept h h' (list :: (l ++ a :: r)) := by
  obtain ⟨_, _, left_, right_⟩ := at_.parts
  have distinct := at_.nodup
  obtain ⟨distinctL, distinctR, disjoint⟩ := List.nodup_append.mp distinct
  obtain ⟨newR, distinctR⟩ := List.nodup_cons.mp distinctR
  have insideL : ∀ {b}, b ∈ l → b ∈ l ++ a :: r := fun member => List.mem_append_left _ member
  have insideR : ∀ {b}, b ∈ r → b ∈ l ++ a :: r := fun member =>
    List.mem_append_right _ (List.mem_cons_of_mem _ member)
  have notList : ∀ {b}, b ∈ l ++ a :: r → b ≠ list := fun member same => at_.apart (same ▸ member)
  have notR : ∀ {b}, b ∈ l → b ∉ r.head? := fun member first =>
    disjoint _ member _ (List.mem_cons_of_mem _ (List.mem_of_head? first)) rfl
  have notL : ∀ {b}, b ∈ r → b ∉ l.getLast? := fun member final =>
    disjoint _ (List.mem_of_getLast? final) _ (List.mem_cons_of_mem _ member) rfl
  have blockL : ∀ b ∈ l, ∀ n, h.block b = .node n →
      h'.block b = .node { n with next := if b ∈ l.getLast? then r.headD 0 else n.next } := fun b member n here => by
    by_cases final : b ∈ l.getLast?
    · rw [if_pos final]
      exact before b n final here
    · rw [if_neg final, other b (notList (insideL member)) final (notR member), here]
  have blockR : ∀ b ∈ r, ∀ n, h.block b = .node n →
      h'.block b = .node { n with prev := if b ∈ r.head? then l.getLastD 0 else n.prev } := fun b member n here => by
    by_cases first : b ∈ r.head?
    · rw [if_pos first]
      exact behind b n first here
    · rw [if_neg first, other b (notList (insideR member)) (notL member) first, here]
  have linksL : ∀ b ∈ l, h'.prev b = h.prev b ∧ h'.data b = h.data b ∧
      h'.next b = if b ∈ l.getLast? then r.headD 0 else h.next b := fun b member => by
    obtain ⟨_, n, here⟩ := at_.nodes b (insideL member)
    unfold ListHeap.next ListHeap.prev ListHeap.data
    rw [blockL b member n here, here]
    exact ⟨rfl, rfl, rfl⟩
  have linksR : ∀ b ∈ r, h'.next b = h.next b ∧ h'.data b = h.data b ∧
      h'.prev b = if b ∈ r.head? then l.getLastD 0 else h.prev b := fun b member => by
    obtain ⟨_, n, here⟩ := at_.nodes b (insideR member)
    unfold ListHeap.next ListHeap.prev ListHeap.data
    rw [blockR b member n here, here]
    exact ⟨rfl, rfl, rfl⟩
  have kept : ∀ {b}, b ∈ h.live → b ≠ a → b ∈ h'.live := fun inside different => by
    rw [live]
    exact Finset.mem_erase.mpr ⟨different, inside⟩
  refine ⟨⟨at_.valid, kept at_.head fun same => at_.apart (by simp [same]), record, ends, fun b member => ?_, ?_, ?_,
    segment_append.mpr ⟨?_, ?_⟩⟩, ?_, fun b inside outside => ?_⟩
  · rcases List.mem_append.mp member with member | member
    · obtain ⟨inside, n, here⟩ := at_.nodes b (insideL member)
      exact ⟨kept inside fun same => disjoint b member a List.mem_cons_self same, _, blockL b member n here⟩
    · obtain ⟨inside, n, here⟩ := at_.nodes b (insideR member)
      exact ⟨kept inside fun same => newR (same ▸ member), _, blockR b member n here⟩
  · exact List.nodup_append.mpr ⟨distinctL, distinctR, fun b memberL c memberR =>
      disjoint b memberL c (List.mem_cons_of_mem _ memberR)⟩
  · exact fun member => at_.null ((List.mem_append.mp member).elim insideL insideR)
  · refine left_.back (fun b final => ?_) (fun b member => ?_) fun b member => (linksL b member).1
    · rw [(linksL b (List.mem_of_getLast? final)).2.2, if_pos (show b ∈ l.getLast? from final)]
    · have inside := List.mem_of_mem_dropLast member
      rw [(linksL b inside).2.2, if_neg fun final => ?_]
      have split := List.dropLast_append_getLast? b final
      rw [← split] at distinctL
      exact (List.nodup_append.mp distinctL).2.2 b member b List.mem_cons_self rfl
  · refine right_.front (fun b first => ?_) (fun b member => (linksR b member).1) fun b member => ?_
    · rw [(linksR b (List.mem_of_head? first)).2.2, if_pos (show b ∈ r.head? from first)]
    · have inside := List.mem_of_mem_tail member
      rw [(linksR b inside).2.2, if_neg fun first => ?_]
      cases r with
      | nil => cases member
      | cons c rest =>
        obtain rfl : c = b := Option.some.inj first
        exact (List.nodup_cons.mp distinctR).1 member
  · rw [List.map_append, List.map_append]
    congr 1
    · exact List.map_congr_left fun b member => (linksL b member).2.1
    · exact List.map_congr_left fun b member => (linksR b member).2.1
  · have different : b ≠ a := fun same => outside (by simp [same])
    refine ⟨kept inside different, other b (fun same => outside (same ▸ List.mem_cons_self)) ?_ ?_⟩
    · exact fun final => outside (List.mem_cons_of_mem _ (insideL (List.mem_of_getLast? final)))
    · exact fun first => outside (List.mem_cons_of_mem _ (insideR (List.mem_of_head? first)))

theorem nodeAt_run (linked : LinkedSegment h.next h.prev b (l ++ a :: r) 0)
    (nodes : ∀ a ∈ l, a ∈ h.live ∧ ∃ n, h.block a = .node n) :
    nodeAt l.length ((l ++ a :: r).headD 0) h = .ok (a, h) := by
  induction l generalizing b with
  | nil => rfl
  | cons c l ih =>
    obtain ⟨live, n, here⟩ := nodes c List.mem_cons_self
    obtain ⟨_, behind, tail⟩ := linked
    have next : n.next = (l ++ a :: r).headD 0 := (fields_of_block here).1.symm.trans behind
    unfold List.length nodeAt
    rw [show (c :: l ++ a :: r).headD 0 = c from rfl, run_bind (readNode_run live here), next]
    exact ih tail fun b member => nodes b (List.mem_cons_of_mem _ member)

/-- The heap behind `unlink`, by the neighbours of the node. -/
theorem unlink_run (at_ : ListAt h list last (l ++ a :: r)) :
    ∃ h' left, unlink list a ⟨(l ++ a :: r).headD 0, last, (l ++ a :: r).length⟩ h = .ok ((), h') ∧ h'.live = h.live ∧
      h'.block list = .list ⟨(l ++ r).headD 0, left, (l ++ a :: r).length⟩ ∧
      (l ++ r ≠ [] → left = (l ++ r).getLastD 0) ∧ (l ++ r = [] → left = a) ∧
      (∀ b n, l.getLast? = some b → h.block b = .node n → h'.block b = .node { n with next := r.headD 0 }) ∧
      (∀ b n, r.head? = some b → h.block b = .node n → h'.block b = .node { n with prev := l.getLastD 0 }) ∧
      ∀ b, b ≠ list → b ∉ l.getLast? → b ∉ r.head? → h'.block b = h.block b := by
  have member : a ∈ l ++ a :: r := by simp
  obtain ⟨liveA, n, here⟩ := at_.nodes a member
  obtain ⟨before, behind, _⟩ := at_.parts
  rw [(fields_of_block here).2.1] at before
  rw [(fields_of_block here).1] at behind
  have notA : a ≠ list := fun same => at_.apart (same ▸ member)
  have distinct := at_.nodup
  have ends := at_.ends (by simp)
  generalize shape : (⟨(l ++ a :: r).headD 0, last, (l ++ a :: r).length⟩ : ListHead) = v
  have record := at_.record
  rw [shape] at record
  have first : v.first = (l ++ a :: r).headD 0 := by rw [← shape]
  have final : v.last = last := by rw [← shape]
  have size : v.size = (l ++ a :: r).length := by rw [← shape]
  unfold unlink
  cases l with
  | nil =>
    have here_ : a = v.first := first.symm
    rw [if_pos here_, ← here_, run_bind (readNode_run liveA here), run_bind (updateList_run at_.head record _), behind]
    cases r with
    | nil =>
      rw [if_neg (show ¬ ([] : List Nat).headD 0 ≠ 0 from not_not.mpr rfl)]
      refine ⟨_, last, rfl, rfl, ?_, fun some => absurd rfl some, fun _ => ends, (fun b m some => by cases some),
        (fun b m some => by cases some), fun b other _ _ => ?_⟩
      · rw [block_stored, final, size]
        rfl
      · rw [block_store, if_neg other]
    | cons c rest =>
      have memberC : c ∈ [] ++ a :: c :: rest := by simp
      obtain ⟨liveC, m, there⟩ := at_.nodes c memberC
      have notC : c ≠ list := fun same => at_.apart (same ▸ memberC)
      have valid : (c :: rest).headD 0 ≠ 0 := fun same => at_.null (same ▸ memberC)
      rw [if_pos valid, List.headD_cons, updateNode_run (n := m) (live_store liveC) (by rw [block_store, if_neg notC, there])]
      refine ⟨_, last, rfl, rfl, ?_, fun _ => ends, (fun none => by cases none), (fun b m some => by cases some),
        fun b k some seen => ?_, fun b other _ notFirst => ?_⟩
      · rw [block_store, if_neg notC.symm, block_stored, final, size]
        rfl
      · obtain rfl : c = b := Option.some.inj some
        obtain rfl : m = k := ListBlock.node.inj (there.symm.trans seen)
        exact block_stored ..
      · have notHead : b ≠ c := fun same => notFirst (congrArg some same.symm)
        rw [block_store, if_neg notHead, block_store, if_neg other]
  | cons f front =>
    obtain ⟨newF, distinctTail⟩ := List.nodup_cons.mp distinct
    have notFirst : a ≠ v.first := fun same => newF (by rw [← show a = f from same.trans first]; simp)
    obtain ⟨init, e, split⟩ : ∃ init e, f :: front = init ++ [e] :=
      ⟨(f :: front).dropLast, (f :: front).getLast (List.cons_ne_nil f front),
        (List.dropLast_append_getLast (List.cons_ne_nil f front)).symm⟩
    have lastE : (f :: front).getLastD 0 = e := by rw [split, List.getLastD_concat]
    have someE : (f :: front).getLast? = some e := by rw [split, List.getLast?_concat]
    have memberE : e ∈ f :: front ++ a :: r := by
      rw [split]
      simp
    obtain ⟨liveE, m, there⟩ := at_.nodes e memberE
    have notE : e ≠ list := fun same => at_.apart (same ▸ memberE)
    have validE : e ≠ 0 := fun same => at_.null (same ▸ memberE)
    rw [lastE] at before
    rw [if_neg notFirst]
    cases r with
    | nil =>
      have atEnd : a = v.last := by
        rw [final, ends, List.getLastD_concat]
      rw [if_pos atEnd, ← atEnd, run_bind (readNode_run liveA here), run_bind (updateList_run at_.head record _),
        before, if_pos validE, updateNode_run (n := m) (live_store liveE) (by rw [block_store, if_neg notE, there])]
      refine ⟨_, e, rfl, rfl, ?_, fun _ => ?_, (fun none => by cases none), fun b k some seen => ?_,
        (fun b m some => by cases some), fun b other notLast _ => ?_⟩
      · rw [block_store, if_neg notE.symm, block_stored, first, size]
        rfl
      · rw [List.append_nil, lastE]
      · obtain rfl : e = b := Option.some.inj (someE.symm.trans some)
        obtain rfl : m = k := ListBlock.node.inj (there.symm.trans seen)
        exact block_stored ..
      · have notFinal : b ≠ e := fun same => notLast (same ▸ someE)
        rw [block_store, if_neg notFinal, block_store, if_neg other]
    | cons c rest =>
      have memberC : c ∈ f :: front ++ a :: c :: rest := by simp
      obtain ⟨liveC, k, seenC⟩ := at_.nodes c memberC
      have notC : c ≠ list := fun same => at_.apart (same ▸ memberC)
      obtain ⟨_, distinctR, disjoint⟩ := List.nodup_append.mp distinct
      have insideE : e ∈ f :: front := by rw [split]; simp
      have eNotA : e ≠ a := disjoint e insideE a List.mem_cons_self
      have eNotC : e ≠ c := disjoint e insideE c (by simp)
      have notLast : a ≠ v.last := by
        rw [final, ends, List.getLastD_eq_getLast?, List.getLast?_append_of_ne_nil _ (List.cons_ne_nil a _),
          List.getLast?_cons_cons]
        intro same
        refine (List.nodup_cons.mp distinctR).1 (List.mem_of_getLast? (a := a) ?_)
        cases tail : (c :: rest).getLast? with
        | none => simp at tail
        | some g =>
          rw [tail] at same
          exact congrArg some same.symm
      rw [if_neg notLast, run_bind (readNode_run liveA here), before, behind,
        run_bind (updateNode_run liveE there _),
        run_bind (readNode_run (n := n) (live_store liveA) (by rw [block_store, if_neg eNotA.symm, here])), behind, before,
        List.headD_cons, updateNode_run (n := k) (live_store liveC) (by rw [block_store, if_neg eNotC.symm, seenC])]
      refine ⟨_, last, rfl, rfl, ?_, fun _ => ?_, (fun none => by cases none), fun b j some seen => ?_,
        fun b j some seen => ?_, fun b other notL notR => ?_⟩
      · rw [block_store, if_neg notC.symm, block_store, if_neg notE.symm, record, ← shape]
        rfl
      · rw [ends, List.getLastD_eq_getLast?, List.getLastD_eq_getLast?,
          List.getLast?_append_of_ne_nil _ (List.cons_ne_nil a _), List.getLast?_cons_cons,
          List.getLast?_append_of_ne_nil _ (List.cons_ne_nil c rest)]
      · obtain rfl : e = b := Option.some.inj (someE.symm.trans some)
        obtain rfl : m = j := ListBlock.node.inj (there.symm.trans seen)
        rw [block_store, if_neg eNotC, block_stored]
      · obtain rfl : c = b := Option.some.inj some
        obtain rfl : k = j := ListBlock.node.inj (seenC.symm.trans seen)
        rw [block_stored, lastE]
      · have notHead : b ≠ c := fun same => notR (congrArg some same.symm)
        have notFinal : b ≠ e := fun same => notL (same ▸ someE)
        rw [block_store, if_neg notHead, block_store, if_neg notFinal]

/-- The node at an index leaves the list. -/
theorem listRemove_run (at_ : ListAt h list last (l ++ a :: r)) :
    ∃ h' left, listRemove list l.length h = .ok ((), h') ∧ h'.live = h.live.erase a ∧ ListAt h' list left (l ++ r) ∧
      (l ++ r = [] → left ≠ 0) ∧ (l ++ r).map h'.data = (l ++ r).map h.data ∧
      BlocksKept h h' (list :: (l ++ a :: r)) := by
  obtain ⟨h1, left, run, live, record, ends, stale, before, behind, other⟩ := unlink_run at_
  have walk := nodeAt_run at_.linked fun b member => at_.nodes b (List.mem_append_left _ member)
  have notA : a ≠ list := fun same => at_.apart (by simp [same])
  have liveList : list ∈ h1.live.erase a := Finset.mem_erase.mpr ⟨notA.symm, live ▸ at_.head⟩
  have count : (l ++ a :: r).length - 1 = (l ++ r).length := by simp
  generalize final : ListHeap.store list (.list ⟨(l ++ r).headD 0, left, (l ++ a :: r).length - 1⟩)
    { h1 with live := h1.live.erase a } = h'
  have live' : h'.live = h.live.erase a := by rw [← final, ← live]; rfl
  have block : ∀ b, b ≠ list → h'.block b = h1.block b := fun b out => by
    rw [← final, block_store, if_neg out]
  have record' : h'.block list = .list ⟨(l ++ r).headD 0, left, (l ++ r).length⟩ := by
    rw [← final, block_stored, count]
  have before' : ∀ b n, l.getLast? = some b → h.block b = .node n → h'.block b = .node { n with next := r.headD 0 } :=
    fun b n some here => by
      have member : b ∈ l ++ a :: r := List.mem_append_left _ (List.mem_of_getLast? some)
      rw [block b fun same => at_.apart (same ▸ member)]
      exact before b n some here
  have behind' : ∀ b n, r.head? = some b → h.block b = .node n → h'.block b = .node { n with prev := l.getLastD 0 } :=
    fun b n some here => by
      have member : b ∈ l ++ a :: r := List.mem_append_right _ (List.mem_cons_of_mem _ (List.mem_of_head? some))
      rw [block b fun same => at_.apart (same ▸ member)]
      exact behind b n some here
  obtain ⟨without, data, kept⟩ := at_.without live' record' ends before' behind' fun b out notL notR =>
    (block b out).trans (other b out notL notR)
  refine ⟨h', left, ?_, live', without, fun none => stale none ▸ fun null => at_.null (by simp [null]), data, kept⟩
  unfold listRemove
  rw [run_bind (readList_run at_.head at_.record), if_neg (by simp), run_bind walk, run_bind run,
    run_bind (show freeBlock a h1 = .ok ((), { h1 with live := h1.live.erase a }) from rfl), ← final]
  exact updateList_run (h := { h1 with live := h1.live.erase a }) liveList record _

theorem listRemove_beyond (at_ : ListAt h list last as) {index : Nat} (large : as.length ≤ index) :
    listRemove list index h = .ok ((), h) := by
  unfold listRemove
  rw [run_bind (readList_run at_.head at_.record), if_pos large]
  rfl

/-! ## Walking -/

/-- The nodes met on the way to the end. -/
structure ChainFrom (h : ListHeap) (as : List Nat) : Prop where
  nodes : ∀ a ∈ as, a ∈ h.live ∧ ∃ n, h.block a = .node n
  null : 0 ∉ as
  linked : ∃ before, LinkedSegment h.next h.prev before as 0

theorem ListAt.chain (at_ : ListAt h list last as) : ChainFrom h as := ⟨at_.nodes, at_.null, 0, at_.linked⟩

theorem ChainFrom.step (chain : ChainFrom h (a :: as)) :
    a ≠ 0 ∧ (∃ n, readNode a h = .ok (n, h) ∧ n.data = h.data a ∧ n.next = as.headD 0) ∧ ChainFrom h as := by
  obtain ⟨live, n, here⟩ := chain.nodes a List.mem_cons_self
  obtain ⟨before, _, behind, tail⟩ := chain.linked
  obtain ⟨next, _, data⟩ := fields_of_block here
  refine ⟨fun same => chain.null (same ▸ List.mem_cons_self),
    ⟨n, readNode_run live here, data.symm, next.symm.trans behind⟩, ?_⟩
  constructor
  · exact fun b member => chain.nodes b (List.mem_cons_of_mem _ member)
  · exact fun member => chain.null (List.mem_cons_of_mem _ member)
  · exact ⟨a, tail⟩

theorem findData_run {fuel : Nat} (data index : Nat) (chain : ChainFrom h as) (enough : as.length < fuel) :
    findData data fuel (as.headD 0) index h =
      .ok (if data ∈ as.map h.data then some (index + (as.map h.data).idxOf data) else none, h) := by
  induction as generalizing fuel index with
  | nil =>
    cases fuel with
    | zero => simp at enough
    | succ fuel => rfl
  | cons a as ih =>
    cases fuel with
    | zero => simp at enough
    | succ fuel =>
      obtain ⟨valid, ⟨n, run, here, next⟩, tail⟩ := chain.step
      unfold findData
      rw [List.headD_cons, if_neg valid, run_bind run, here, next]
      by_cases same : h.data a = data
      · rw [if_pos same]
        simp [same]
        rfl
      · rw [if_neg same, ih (index + 1) tail (Nat.lt_of_succ_lt_succ enough)]
        have other : ¬ data = h.data a := fun eq => same eq.symm
        simp [other, same, List.idxOf_cons_ne, Nat.add_assoc, Nat.add_comm 1]

theorem containsLoop_run {fuel data : Nat} {cmp : Nat → Nat → Bool} (chain : ChainFrom h as) (enough : as.length < fuel) :
    containsLoop cmp data fuel (as.headD 0) h = .ok ((as.map h.data).any (cmp data), h) := by
  induction as generalizing fuel with
  | nil =>
    cases fuel with
    | zero => simp at enough
    | succ fuel => rfl
  | cons a as ih =>
    cases fuel with
    | zero => simp at enough
    | succ fuel =>
      obtain ⟨valid, ⟨n, run, here, next⟩, tail⟩ := chain.step
      unfold containsLoop
      rw [List.headD_cons, if_neg valid, run_bind run, here, next]
      by_cases found : cmp data (h.data a) = true
      · rw [if_pos found]
        simp [found]
        rfl
      · rw [if_neg found, ih tail (Nat.lt_of_succ_lt_succ enough)]
        simp [found]

theorem listContains_run (at_ : ListAt h list last as) (data : Nat) (cmp : Nat → Nat → Bool) :
    listContains list data cmp h = .ok ((as.map h.data).any (cmp data), h) := by
  unfold listContains
  rw [run_bind (readList_run at_.head at_.record), run_bind (show (get : Listing ListHeap) h = .ok (h, h) from rfl)]
  exact containsLoop_run at_.chain at_.few

theorem listGet_run (at_ : ListAt h list last as) (index : Int) :
    listGet list index h = .ok (if index < 0 then 0 else (as.map h.data).getD index.toNat 0, h) := by
  unfold listGet
  rw [run_bind (readList_run at_.head at_.record)]
  by_cases negative : index < 0
  · rw [if_pos (Or.inl negative), if_pos negative]
    rfl
  by_cases beyond : as.length ≤ index.toNat
  · rw [if_pos (Or.inr beyond), if_neg negative, List.getD_eq_getElem?_getD, List.getElem?_eq_none (by simpa using beyond)]
    rfl
  · have inside : index.toNat < as.length := Nat.lt_of_not_le beyond
    have split : as = as.take index.toNat ++ as[index.toNat] :: as.drop (index.toNat + 1) := by simp
    have front : (as.take index.toNat).length = index.toNat := List.length_take_of_le inside.le
    obtain ⟨live, n, here⟩ := at_.nodes _ (List.getElem_mem inside)
    have walk : nodeAt index.toNat (as.headD 0) h = .ok (as[index.toNat], h) := by
      have linked := at_.linked
      rw [split] at linked
      have walk := nodeAt_run linked fun b member => at_.nodes b (List.mem_of_mem_take member)
      rw [front, ← split] at walk
      exact walk
    rw [if_neg (not_or.mpr ⟨negative, beyond⟩), if_neg negative, run_bind walk, run_bind (readNode_run live here)]
    rw [List.getD_eq_getElem?_getD, List.getElem?_map, List.getElem?_eq_getElem inside, ← (fields_of_block here).2.2]
    rfl

/-- The first node with the data leaves the list. -/
theorem listRemoveData_run {data : Nat} (at_ : ListAt h list last (l ++ a :: r)) (here : h.data a = data)
    (first : data ∉ l.map h.data) :
    ∃ h' left, listRemoveData list data h = .ok ((), h') ∧ h'.live = h.live.erase a ∧ ListAt h' list left (l ++ r) ∧
      (l ++ r = [] → left ≠ 0) ∧ (l ++ r).map h'.data = (l ++ r).map h.data ∧
      BlocksKept h h' (list :: (l ++ a :: r)) := by
  obtain ⟨h', left, run, result⟩ := listRemove_run at_
  refine ⟨h', left, ?_, result⟩
  have found := findData_run data 0 at_.chain at_.few
  rw [if_pos (by simp [here]), List.map_append, List.map_cons, List.idxOf_append_of_notMem first, here,
    List.idxOf_cons_self, Nat.add_zero, Nat.zero_add, List.length_map] at found
  unfold listRemoveData
  rw [if_neg at_.valid, run_bind (readList_run at_.head at_.record),
    run_bind (show (get : Listing ListHeap) h = .ok (h, h) from rfl), run_bind found]
  exact run

theorem listRemoveData_absent {data : Nat} (at_ : ListAt h list last as) (absent : data ∉ as.map h.data) :
    listRemoveData list data h = .ok ((), h) := by
  have found := findData_run data 0 at_.chain at_.few
  rw [if_neg absent] at found
  unfold listRemoveData
  rw [if_neg at_.valid, run_bind (readList_run at_.head at_.record),
    run_bind (show (get : Listing ListHeap) h = .ok (h, h) from rfl), run_bind found]
  rfl

/-- Removing data is `erase`, and a block goes with each element that goes. -/
theorem listRemoveData_erase (at_ : ListAt h list last as) (data : Nat) :
    ∃ h' last' as', listRemoveData list data h = .ok ((), h') ∧ ListAt h' list last' as' ∧ as' ⊆ as ∧
      as'.map h'.data = (as.map h.data).erase data ∧ h'.live.card + as.length = h.live.card + as'.length ∧
      ((as' = [] ∧ last' = 0) ↔ as = [] ∧ last = 0) ∧ BlocksKept h h' (list :: as) := by
  by_cases absent : data ∉ as.map h.data
  · refine ⟨h, last, as, listRemoveData_absent at_ absent, at_, List.Subset.refl as, ?_, rfl, Iff.rfl, ?_⟩
    · rw [List.erase_of_not_mem absent]
    · exact fun b live _ => ⟨live, rfl⟩
  · obtain ⟨front, back, split, first⟩ := List.eq_append_cons_of_mem (not_not.mp absent)
    obtain ⟨l, rest, rfl, rfl, behind⟩ := List.map_eq_append_iff.mp split
    obtain ⟨a, r, rfl, here, rfl⟩ := List.map_eq_cons_iff.mp behind
    obtain ⟨h', left, run, live, removed, stale, sequence, kept⟩ := listRemoveData_run at_ here first
    refine ⟨h', left, l ++ r, run, removed, ?_, ?_, ?_, ?_, kept⟩
    · intro b member
      rcases List.mem_append.mp member with inside | inside <;> simp [inside]
    · rw [sequence, split, List.map_append, List.erase_append_right _ first, List.erase_cons_head]
    · have liveA : a ∈ h.live := (at_.nodes a (by simp)).1
      have count := Finset.card_erase_add_one liveA
      rw [live]
      simp only [List.length_append, List.length_cons]
      omega
    · constructor
      · exact fun ⟨empty, null⟩ => absurd null (stale empty)
      · exact fun ⟨empty, _⟩ => by simp at empty

end

end Delos.Invariants
