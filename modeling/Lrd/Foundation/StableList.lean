import Mathlib.Data.List.AList

/-!
# Linked lists with stable handles

A doubly linked list hands out an iterator for every node it holds, and the
iterator keeps naming that node while the node moves. Here a node is a pair of a
handle and an element, handles are never reused, and moving a node to the front
keeps its handle.

A container that finds its nodes through a map from keys to handles is right
when the map and the list agree (`StableList.Indexes`). The lemmas below say
which paired updates of the two keep them in agreement.
-/

namespace Foundation

/-! ## Association lists -/

section Lookup

variable {κ β : Type} [DecidableEq κ] {entries : List (κ × β)} {key : κ} {value : β}

theorem mem_of_lookup (found : entries.lookup key = some value) : (key, value) ∈ entries := by
  obtain ⟨before, after, rfl, _⟩ := List.lookup_eq_some_iff.mp found
  exact List.mem_append_right _ List.mem_cons_self

/-- Where no key occurs twice, every entry is found under its key. -/
theorem lookup_of_mem (nodup : (entries.map Prod.fst).Nodup) (member : (key, value) ∈ entries) :
    entries.lookup key = some value := by
  obtain ⟨before, after, rfl⟩ := List.append_of_mem member
  rw [List.map_append, List.map_cons, List.nodup_middle, List.nodup_cons] at nodup
  refine List.lookup_eq_some_iff.mpr ⟨before, after, rfl, ?_⟩
  intro entry earlier
  rw [bne_iff_ne]
  rintro rfl
  exact nodup.1 (List.mem_append_left _ (List.mem_map.mpr ⟨entry, earlier, rfl⟩))

theorem lookup_eq_some_iff_mem (nodup : (entries.map Prod.fst).Nodup) :
    entries.lookup key = some value ↔ (key, value) ∈ entries :=
  ⟨mem_of_lookup, lookup_of_mem nodup⟩

/-- What is not found is not there. -/
theorem lookup_eq_none_iff_not_mem : entries.lookup key = none ↔ key ∉ entries.map Prod.fst := by
  rw [List.lookup_eq_none_iff]
  constructor
  · intro absent member
    obtain ⟨entry, present, rfl⟩ := List.mem_map.mp member
    exact absurd rfl (bne_iff_ne.mp (absent entry present))
  · intro absent entry present
    rw [bne_iff_ne]
    rintro rfl
    exact absent (List.mem_map_of_mem present)

end Lookup

/-! ## The list -/

/-- A linked list, front first. Every node carries a handle of its own. -/
structure StableList (α : Type) where
  nodes : List (Nat × α)
  next : Nat
  nodup : (nodes.map Prod.fst).Nodup
  fresh : ∀ node ∈ nodes, node.1 < next

namespace StableList

variable {α κ : Type}

/-- No nodes, and no handles given out. -/
def empty : StableList α := ⟨[], 0, List.nodup_nil, fun _ member => absurd member List.not_mem_nil⟩

/-- The elements, front first. -/
def toList (list : StableList α) : List α := list.nodes.map Prod.snd

/-- The element of the node a handle names. -/
def get? (list : StableList α) (handle : Nat) : Option α := list.nodes.lookup handle

/-- The element of the last node. -/
def back? (list : StableList α) : Option α := list.toList.getLast?

/-- Add a node at the front; its handle is the list's next one. -/
def pushFront (list : StableList α) (element : α) : StableList α where
  nodes := (list.next, element) :: list.nodes
  next := list.next + 1
  nodup := by
    rw [List.map_cons, List.nodup_cons]
    refine ⟨?_, list.nodup⟩
    intro member
    obtain ⟨node, present, same⟩ := List.mem_map.mp member
    have below := list.fresh node present
    omega
  fresh := by
    intro node member
    rcases List.mem_cons.mp member with rfl | earlier
    · exact Nat.lt_succ_self _
    · exact Nat.lt_succ_of_lt (list.fresh node earlier)

/-- Move the node a handle names to the front, as `splice` does. -/
def spliceFront (list : StableList α) (handle : Nat) : StableList α where
  nodes := list.nodes.filter (fun node => node.1 = handle) ++
    list.nodes.filter (fun node => ¬ node.1 = handle)
  next := list.next
  nodup := by
    have perm := List.filter_append_perm (fun node : Nat × α => decide (node.1 = handle)) list.nodes
    simp only [← decide_not] at perm
    exact ((perm.map Prod.fst).nodup_iff).mpr list.nodup
  fresh := by
    intro node member
    rcases List.mem_append.mp member with kept | kept
    · exact list.fresh node (List.mem_filter.mp kept).1
    · exact list.fresh node (List.mem_filter.mp kept).1

/-- Write through a handle. -/
def set (list : StableList α) (handle : Nat) (element : α) : StableList α where
  nodes := list.nodes.map fun node => if node.1 = handle then (handle, element) else node
  next := list.next
  nodup := by
    rw [List.map_map]
    have same : (Prod.fst ∘ fun node : Nat × α =>
        if node.1 = handle then (handle, element) else node) = Prod.fst := by
      funext node
      by_cases named : node.1 = handle
      · simp only [Function.comp_apply, named, ↓reduceIte]
      · simp only [Function.comp_apply, named, ↓reduceIte]
    rw [same]
    exact list.nodup
  fresh := by
    intro node member
    obtain ⟨original, present, rfl⟩ := List.mem_map.mp member
    by_cases named : original.1 = handle
    · simpa only [named, ↓reduceIte] using list.fresh original present
    · simpa only [named, ↓reduceIte] using list.fresh original present

/-- Remove the node a handle names. -/
def erase (list : StableList α) (handle : Nat) : StableList α where
  nodes := list.nodes.filter fun node => ¬ node.1 = handle
  next := list.next
  nodup := list.nodup.sublist (List.filter_sublist.map _)
  fresh := fun node member => list.fresh node (List.mem_filter.mp member).1

/-- Remove the last node. -/
def popBack (list : StableList α) : StableList α where
  nodes := list.nodes.dropLast
  next := list.next
  nodup := list.nodup.sublist ((List.dropLast_sublist _).map _)
  fresh := fun node member => list.fresh node (List.dropLast_subset _ member)

/-- A handle names one element. -/
theorem eq_of_handle {list : StableList α} {handle : Nat} {first second : α}
    (left : (handle, first) ∈ list.nodes) (right : (handle, second) ∈ list.nodes) :
    first = second := by
  have pair := List.inj_on_of_nodup_map list.nodup left right rfl
  exact (Prod.mk.inj pair).2

theorem mem_spliceFront (list : StableList α) (handle : Nat) (node : Nat × α) :
    node ∈ (list.spliceFront handle).nodes ↔ node ∈ list.nodes := by
  simp only [spliceFront, List.mem_append, List.mem_filter, decide_eq_true_eq]
  tauto

/-- Setting changes one node. -/
theorem mem_set (list : StableList α) (handle : Nat) (element : α) (node : Nat × α) :
    node ∈ (list.set handle element).nodes ↔
      (node.1 ≠ handle ∧ node ∈ list.nodes) ∨
        (node = (handle, element) ∧ ∃ old, (handle, old) ∈ list.nodes) := by
  simp only [set, List.mem_map]
  constructor
  · rintro ⟨original, present, rfl⟩
    by_cases named : original.1 = handle
    · subst named
      exact Or.inr ⟨if_pos rfl, original.2, present⟩
    · rw [if_neg named]
      exact Or.inl ⟨named, present⟩
  · rintro (⟨other, present⟩ | ⟨rfl, old, present⟩)
    · exact ⟨node, present, if_neg other⟩
    · exact ⟨(handle, old), present, if_pos rfl⟩

theorem mem_erase (list : StableList α) (handle : Nat) (node : Nat × α) :
    node ∈ (list.erase handle).nodes ↔ node ∈ list.nodes ∧ node.1 ≠ handle := by
  simp only [erase, List.mem_filter, decide_eq_true_eq, ne_eq]

/-- Splicing moves nodes only. -/
theorem spliceFront_perm (list : StableList α) (handle : Nat) :
    (list.spliceFront handle).nodes.Perm list.nodes := by
  have perm := List.filter_append_perm (fun node : Nat × α => decide (node.1 = handle)) list.nodes
  simp only [← decide_not] at perm
  exact perm

/-! ## Agreement with an index -/

variable [DecidableEq κ]

/-- The index maps exactly the keys of the list, each to its own node. -/
def Indexes (key : α → κ) (list : StableList α) (index : AList fun _ : κ => Nat) : Prop :=
  ∀ k handle, index.lookup k = some handle ↔
    ∃ element, (handle, element) ∈ list.nodes ∧ key element = k

variable {key : α → κ} {list : StableList α} {index : AList fun _ : κ => Nat}

/-- Nothing indexes nothing. -/
theorem Indexes.empty : Indexes key (StableList.empty : StableList α) ∅ := by
  intro k handle
  constructor
  · intro found
    rw [AList.lookup_empty] at found
    cases found
  · rintro ⟨element, member, _⟩
    exact absurd member List.not_mem_nil

/-- The index has the keys of the list. -/
theorem Indexes.mem_iff (agree : Indexes key list index) (k : κ) :
    k ∈ index ↔ k ∈ list.toList.map key := by
  rw [← AList.lookup_isSome, Option.isSome_iff_exists]
  constructor
  · rintro ⟨handle, found⟩
    obtain ⟨element, member, same⟩ := (agree k handle).mp found
    exact List.mem_map.mpr ⟨element, List.mem_map.mpr ⟨_, member, rfl⟩, same⟩
  · intro member
    obtain ⟨element, present, same⟩ := List.mem_map.mp member
    obtain ⟨node, inside, rfl⟩ := List.mem_map.mp present
    exact ⟨node.1, (agree k node.1).mpr ⟨node.2, inside, same⟩⟩

/-- No key occurs twice in an indexed list. -/
theorem Indexes.nodup_keys (agree : Indexes key list index) : (list.toList.map key).Nodup := by
  have distinct := list.nodup.of_map
  rw [toList, List.map_map, List.nodup_map_iff_inj_on distinct]
  intro first firstMember second secondMember same
  have firstFound := (agree (key first.2) first.1).mpr ⟨first.2, firstMember, rfl⟩
  have secondFound := (agree (key first.2) second.1).mpr ⟨second.2, secondMember, same.symm⟩
  have handles : first.1 = second.1 := Option.some.inj (firstFound.symm.trans secondFound)
  exact List.inj_on_of_nodup_map list.nodup firstMember secondMember handles

/-- The index has as many keys as the list has nodes. -/
theorem Indexes.size_eq (agree : Indexes key list index) :
    index.keys.length = list.nodes.length := by
  have perm : index.keys.Perm (list.toList.map key) := by
    rw [List.perm_ext_iff_of_nodup index.keys_nodup agree.nodup_keys]
    intro k
    exact (AList.mem_keys).symm.trans (agree.mem_iff k)
  rw [perm.length_eq, List.length_map, toList, List.length_map]

/-- A new element is indexed by its handle. -/
theorem Indexes.pushFront (agree : Indexes key list index) (element : α)
    (absent : key element ∉ index) :
    Indexes key (list.pushFront element) (index.insert (key element) list.next) := by
  intro k handle
  by_cases same : k = key element
  · subst same
    rw [AList.lookup_insert]
    constructor
    · intro found
      cases found
      exact ⟨element, List.mem_cons_self, rfl⟩
    · rintro ⟨other, member, sameKey⟩
      rcases List.mem_cons.mp member with equal | earlier
      · rw [(Prod.mk.inj equal).1]
      · have found := (agree _ handle).mpr ⟨other, earlier, sameKey⟩
        exact absurd (AList.lookup_isSome.mp (Option.isSome_iff_exists.mpr ⟨handle, found⟩)) absent
  · rw [AList.lookup_insert_ne same, agree k handle]
    constructor
    · rintro ⟨other, member, sameKey⟩
      exact ⟨other, List.mem_cons_of_mem _ member, sameKey⟩
    · rintro ⟨other, member, sameKey⟩
      rcases List.mem_cons.mp member with equal | earlier
      · rw [(Prod.mk.inj equal).2] at sameKey
        exact absurd sameKey.symm same
      · exact ⟨other, earlier, sameKey⟩

/-- Splicing keeps the index. -/
theorem Indexes.spliceFront (agree : Indexes key list index) (handle : Nat) :
    Indexes key (list.spliceFront handle) index := by
  intro k other
  rw [agree k other]
  exact exists_congr fun element => by rw [mem_spliceFront]

/-- Setting an element under its own key keeps the index. -/
theorem Indexes.set (agree : Indexes key list index) {handle : Nat} {element : α}
    (found : index.lookup (key element) = some handle) :
    Indexes key (list.set handle element) index := by
  obtain ⟨old, present, oldKey⟩ := (agree _ handle).mp found
  intro k other
  rw [agree k other]
  constructor
  · rintro ⟨stored, member, same⟩
    by_cases named : other = handle
    · subst named
      rw [eq_of_handle member present, oldKey] at same
      exact ⟨element, (mem_set ..).mpr (Or.inr ⟨rfl, old, present⟩), same⟩
    · exact ⟨stored, (mem_set ..).mpr (Or.inl ⟨named, member⟩), same⟩
  · rintro ⟨stored, member, same⟩
    rcases (mem_set ..).mp member with ⟨_, earlier⟩ | ⟨equal, _⟩
    · exact ⟨stored, earlier, same⟩
    · obtain ⟨rfl, rfl⟩ := Prod.mk.inj equal
      exact ⟨old, present, oldKey.trans same⟩

/-- Erasing a node and its key. -/
theorem Indexes.erase (agree : Indexes key list index) {k : κ} {handle : Nat}
    (found : index.lookup k = some handle) :
    Indexes key (list.erase handle) (index.erase k) := by
  obtain ⟨removed, present, removedKey⟩ := (agree k handle).mp found
  intro query other
  by_cases same : query = k
  · subst same
    rw [AList.lookup_erase]
    constructor
    · intro impossible
      cases impossible
    · rintro ⟨element, member, elementKey⟩
      obtain ⟨inside, different⟩ := (mem_erase ..).mp member
      have again := (agree query other).mpr ⟨element, inside, elementKey⟩
      exact absurd (Option.some.inj (again.symm.trans found)) different
  · rw [AList.lookup_erase_ne same, agree query other]
    constructor
    · rintro ⟨element, member, elementKey⟩
      refine ⟨element, (mem_erase ..).mpr ⟨member, ?_⟩, elementKey⟩
      rintro rfl
      rw [eq_of_handle member present, removedKey] at elementKey
      exact same elementKey.symm
    · rintro ⟨element, member, elementKey⟩
      exact ⟨element, ((mem_erase ..).mp member).1, elementKey⟩

/-- Removing the last node together with its key keeps the agreement. -/
theorem Indexes.popBack (agree : Indexes key list index) {last : α}
    (back : list.back? = some last) :
    Indexes key list.popBack (index.erase (key last)) := by
  obtain ⟨node, nodeLast, rfl⟩ : ∃ node, list.nodes.getLast? = some node ∧ node.2 = last := by
    rw [back?, toList, List.getLast?_map, Option.map_eq_some_iff] at back
    exact back
  have split : list.nodes = list.nodes.dropLast ++ [node] :=
    (List.dropLast_append_getLast? node nodeLast).symm
  have found : index.lookup (key node.2) = some node.1 :=
    (agree _ _).mpr ⟨node.2, by rw [split]; simp, rfl⟩
  have same : list.popBack.nodes = (list.erase node.1).nodes := by
    have nodup := list.nodup
    rw [split, List.map_append, List.nodup_append] at nodup
    have kept : list.nodes.dropLast.filter (fun other => ¬ other.1 = node.1) =
        list.nodes.dropLast := by
      apply List.filter_eq_self.mpr
      intro other member
      rw [decide_eq_true_eq]
      intro equal
      exact nodup.2.2 other.1 (List.mem_map.mpr ⟨other, member, rfl⟩) node.1
        (by simp) equal
    change list.nodes.dropLast = list.nodes.filter fun other => ¬ other.1 = node.1
    rw [split, List.filter_append, List.dropLast_concat, kept]
    simp
  have erased := agree.erase found
  intro k handle
  rw [erased k handle, same]

/-! ## Elements after an update -/

section Elements

variable {α κ : Type} {list : StableList α}

theorem toList_popBack (list : StableList α) : list.popBack.toList = list.toList.dropLast :=
  List.map_dropLast

/-- A handle names one node. -/
theorem split_of_mem {handle : Nat} {element : α} (named : (handle, element) ∈ list.nodes) :
    ∃ before after, list.nodes = before ++ (handle, element) :: after ∧
      ∀ node ∈ before ++ after, node.1 ≠ handle := by
  obtain ⟨before, after, split⟩ := List.append_of_mem named
  have nodup := list.nodup
  rw [split, List.map_append, List.map_cons, List.nodup_middle, List.nodup_cons,
    ← List.map_append] at nodup
  refine ⟨before, after, split, ?_⟩
  intro node member same
  exact nodup.1 (List.mem_map.mpr ⟨node, member, same⟩)

/-- A handle names one node. -/
theorem filter_handle {handle : Nat} {element : α} (named : (handle, element) ∈ list.nodes) :
    list.nodes.filter (fun node => node.1 = handle) = [(handle, element)] := by
  obtain ⟨before, after, split, others⟩ := split_of_mem named
  have none : ∀ nodes ⊆ before ++ after, nodes.filter (fun node => node.1 = handle) = [] := by
    intro nodes within
    apply List.filter_eq_nil_iff.mpr
    intro node member
    rw [decide_eq_true_eq]
    exact others node (within member)
  rw [split, List.filter_append, List.filter_cons, none before (List.subset_append_left _ _),
    none after (List.subset_append_right _ _)]
  simp only [decide_true, ↓reduceIte, List.nil_append]

theorem get?_of_mem {handle : Nat} {element : α} (named : (handle, element) ∈ list.nodes) :
    list.get? handle = some element :=
  lookup_of_mem list.nodup named

variable [DecidableEq κ] {key : α → κ} {index : AList fun _ : κ => Nat}

/-- The nodes other than the one a key is found at hold the elements with other keys. -/
theorem Indexes.map_others (agree : Indexes key list index) {k : κ} {handle : Nat}
    (found : index.lookup k = some handle) :
    (list.nodes.filter fun node => ¬ node.1 = handle).map Prod.snd =
      list.toList.filter fun element => ¬ key element = k := by
  obtain ⟨element, present, elementKey⟩ := (agree k handle).mp found
  rw [toList, List.filter_map]
  refine congrArg (List.map Prod.snd) (List.filter_congr fun node member => ?_)
  have same : node.1 = handle ↔ key node.2 = k := by
    constructor
    · rintro rfl
      have inside : (node.1, node.2) ∈ list.nodes := member
      rw [eq_of_handle inside present, elementKey]
    · intro nodeKey
      have again := (agree k node.1).mpr ⟨node.2, member, nodeKey⟩
      exact Option.some.inj (again.symm.trans found)
  simp only [Function.comp_apply, same]

/-- Erasing a key takes its element away. -/
theorem Indexes.toList_erase (agree : Indexes key list index) {k : κ} {handle : Nat}
    (found : index.lookup k = some handle) :
    (list.erase handle).toList = list.toList.filter fun element => ¬ key element = k :=
  agree.map_others found

/-- Moving the node of a key to the front puts its element before the elements with
other keys. -/
theorem Indexes.toList_spliceFront (agree : Indexes key list index) {k : κ} {handle : Nat}
    (found : index.lookup k = some handle) {element : α}
    (named : (handle, element) ∈ list.nodes) :
    (list.spliceFront handle).toList =
      element :: list.toList.filter fun other => ¬ key other = k := by
  rw [← agree.map_others found, toList, StableList.spliceFront, List.map_append,
    filter_handle named]
  rfl

/-- Writing through a handle leaves the other nodes. -/
theorem filter_set (list : StableList α) (handle : Nat) (element : α) :
    ((list.set handle element).nodes.filter fun node => ¬ node.1 = handle) =
      list.nodes.filter fun node => ¬ node.1 = handle := by
  rw [set, List.filter_map]
  have kept : ((fun node : Nat × α => decide ¬ node.1 = handle) ∘
      fun node => if node.1 = handle then (handle, element) else node) =
        fun node => decide ¬ node.1 = handle := by
    funext node
    by_cases named : node.1 = handle
    · simp only [Function.comp_apply, named, ↓reduceIte]
    · simp only [Function.comp_apply, named, ↓reduceIte]
  rw [kept]
  refine (List.map_congr_left fun node member => ?_).trans (List.map_id _)
  rw [List.mem_filter, decide_eq_true_eq] at member
  exact if_neg member.2

/-- Writing an element under its key and moving its node to the front puts it before
the elements with other keys. -/
theorem Indexes.toList_set_spliceFront (agree : Indexes key list index) {handle : Nat}
    {element : α} (found : index.lookup (key element) = some handle) :
    ((list.set handle element).spliceFront handle).toList =
      element :: list.toList.filter fun other => ¬ key other = key element := by
  obtain ⟨old, present, _⟩ := (agree _ handle).mp found
  have named : (handle, element) ∈ (list.set handle element).nodes :=
    (mem_set ..).mpr (Or.inr ⟨rfl, old, present⟩)
  rw [(agree.set found).toList_spliceFront found named, ← (agree.set found).map_others found,
    filter_set, agree.map_others found]

end Elements

end StableList

end Foundation
