import Mathlib.Order.Lattice
import Mathlib.Order.Defs.LinearOrder
import Mathlib.Data.List.Induction
import Mathlib.Data.List.Perm.Basic

/-!
# Binary heaps on vectors

`HeapAlgorithms` is the documented contract of the standard heap algorithms: for
a comparison that is a strict weak order on the elements at hand, pushing the
last element and popping the first one maintain a heap, and neither adds nor
loses an element. The layout of the heap is left open. `siftHeap` is an
implementation, so the contract can be met.

A strict weak order on a list is a comparison by a key in a linear order
(`OrdersBy`). The first element of a heap has the greatest key
(`IsHeap.key_le_front`).
-/

namespace Foundation

variable {α K : Type}

/-- The comparison orders the elements of the list by their keys. -/
def OrdersBy [LinearOrder K] (less : α → α → Bool) (key : α → K) (list : List α) : Prop :=
  ∀ a ∈ list, ∀ b ∈ list, less a b = decide (key a < key b)

/-- What orders a list orders its parts. -/
theorem OrdersBy.subset [LinearOrder K] {less : α → α → Bool} {key : α → K}
    {list smaller : List α} (orders : OrdersBy less key list)
    (subset : ∀ a ∈ smaller, a ∈ list) : OrdersBy less key smaller :=
  fun a aMember b bMember => orders a (subset a aMember) b (subset b bMember)

/-- No element is less than one of its children, which stand at `2i+1` and `2i+2`. -/
def IsHeap (less : α → α → Bool) (list : List α) : Prop :=
  ∀ i a b, 0 < i → list[(i - 1) / 2]? = some a → list[i]? = some b → less a b = false

/-- The contract of `std::push_heap` and `std::pop_heap`. -/
structure HeapAlgorithms (α : Type) where
  pushHeap : (α → α → Bool) → List α → List α
  popHeap : (α → α → Bool) → List α → List α
  push_perm : ∀ (less : α → α → Bool) (list : List α), (pushHeap less list).Perm list
  pop_perm : ∀ (less : α → α → Bool) (list : List α), (popHeap less list).Perm list
  push_isHeap : ∀ {K : Type} [LinearOrder K] (less : α → α → Bool) (key : α → K)
    (list : List α) (last : α), OrdersBy less key (list ++ [last]) → IsHeap less list →
      IsHeap less (pushHeap less (list ++ [last]))
  pop_isHeap : ∀ {K : Type} [LinearOrder K] (less : α → α → Bool) (key : α → K)
    (root : α) (rest : List α), OrdersBy less key (root :: rest) → IsHeap less (root :: rest) →
      ∃ heap, popHeap less (root :: rest) = heap ++ [root] ∧ IsHeap less heap

variable [LinearOrder K] {less : α → α → Bool} {key : α → K} {list : List α}

/-- In a heap a child is below its parent. -/
theorem IsHeap.key_le (heap : IsHeap less list) (orders : OrdersBy less key list) {i : Nat}
    {a b : α} (positive : 0 < i) (parent : list[(i - 1) / 2]? = some a)
    (child : list[i]? = some b) : key b ≤ key a := by
  have unordered := heap i a b positive parent child
  rw [orders a (List.mem_of_getElem? parent) b (List.mem_of_getElem? child),
    decide_eq_false_iff_not] at unordered
  exact not_lt.mp unordered

/-- The first element of a heap has the greatest key. -/
theorem IsHeap.key_le_front {root : α} {rest : List α} (heap : IsHeap less (root :: rest))
    (orders : OrdersBy less key (root :: rest)) : ∀ a ∈ root :: rest, key a ≤ key root := by
  have bound : ∀ (i : Nat) (a : α), (root :: rest)[i]? = some a → key a ≤ key root := by
    intro i
    induction i using Nat.strongRecOn with
    | ind i ih =>
        intro a found
        by_cases first : i = 0
        · subst first
          rw [List.getElem?_cons_zero, Option.some.injEq] at found
          rw [found]
        · have below : (i - 1) / 2 < i := by omega
          obtain ⟨inside, _⟩ := List.getElem?_eq_some_iff.mp found
          have parentInside : (i - 1) / 2 < (root :: rest).length := Nat.lt_trans below inside
          have parent := List.getElem?_eq_getElem parentInside
          exact (heap.key_le orders (Nat.pos_of_ne_zero first) parent found).trans
            (ih _ below _ parent)
  intro a member
  obtain ⟨i, found⟩ := List.mem_iff_getElem?.mp member
  exact bound i a found

/-! ## Sifting up -/

/-- Exchange the element at `hole` with its parent while the parent is less. -/
def siftUp (less : α → α → Bool) : Nat → List α → Nat → List α
  | 0, list, _ => list
  | fuel + 1, list, hole =>
      match list[(hole - 1) / 2]?, list[hole]? with
      | some parent, some element =>
          if 0 < hole ∧ less parent element = true then
            siftUp less fuel ((list.set hole parent).set ((hole - 1) / 2) element) ((hole - 1) / 2)
          else list
      | _, _ => list

/-- The list is a heap but for the edge into `hole`, and the parent of `hole` may
take its place above the children of `hole`. -/
structure SiftReady (key : α → K) (list : List α) (hole : Nat) : Prop where
  except : ∀ i a b, 0 < i → i ≠ hole → list[(i - 1) / 2]? = some a → list[i]? = some b →
    key b ≤ key a
  grand : ∀ i a b, 0 < i → 0 < hole → (i - 1) / 2 = hole → list[(hole - 1) / 2]? = some a →
    list[i]? = some b → key b ≤ key a

/-- Sifting up moves entries only. -/
theorem siftUp_perm (less : α → α → Bool) (fuel : Nat) (list : List α) (hole : Nat) :
    (siftUp less fuel list hole).Perm list := by
  induction fuel generalizing list hole with
  | zero => exact List.Perm.refl _
  | succ fuel ih =>
      unfold siftUp
      split
      · rename_i parent element parentFound elementFound
        split
        · obtain ⟨parentInside, parentIs⟩ := List.getElem?_eq_some_iff.mp parentFound
          obtain ⟨elementInside, elementIs⟩ := List.getElem?_eq_some_iff.mp elementFound
          apply (ih _ _).trans
          rw [← parentIs, ← elementIs]
          exact List.set_set_perm elementInside parentInside
        · exact List.Perm.refl _
      · exact List.Perm.refl _

/-- One exchange moves the hole to its parent. -/
theorem SiftReady.exchange {hole : Nat} {parent element : α} (ready : SiftReady key list hole)
    (positive : 0 < hole) (parentFound : list[(hole - 1) / 2]? = some parent)
    (elementFound : list[hole]? = some element) (smaller : key parent < key element) :
    SiftReady key ((list.set hole parent).set ((hole - 1) / 2) element) ((hole - 1) / 2) := by
  obtain ⟨parentInside, _⟩ := List.getElem?_eq_some_iff.mp parentFound
  obtain ⟨elementInside, _⟩ := List.getElem?_eq_some_iff.mp elementFound
  have read : ∀ i, ((list.set hole parent).set ((hole - 1) / 2) element)[i]? =
      if i = (hole - 1) / 2 then some element else if i = hole then some parent else list[i]? := by
    intro i
    by_cases atParent : i = (hole - 1) / 2
    · subst atParent
      rw [if_pos rfl, List.getElem?_set_self (by rw [List.length_set]; exact parentInside)]
    · rw [if_neg atParent, List.getElem?_set_ne (Ne.symm atParent)]
      by_cases atHole : i = hole
      · subst atHole
        rw [if_pos rfl, List.getElem?_set_self elementInside]
      · rw [if_neg atHole, List.getElem?_set_ne (Ne.symm atHole)]
  have parentBound : ∀ i b, 0 < i → i ≠ hole → (i - 1) / 2 = (hole - 1) / 2 →
      list[i]? = some b → key b ≤ key parent := by
    intro i b iPositive different sibling found
    exact ready.except i parent b iPositive different (by rw [sibling]; exact parentFound) found
  constructor
  · intro i a b iPositive notParent above below
    rw [read] at above below
    rw [if_neg notParent] at below
    by_cases atHole : i = hole
    · subst atHole
      rw [if_pos rfl, Option.some.injEq] at below
      rw [if_pos rfl, Option.some.injEq] at above
      rw [← above, ← below]
      exact smaller.le
    · rw [if_neg atHole] at below
      by_cases sibling : (i - 1) / 2 = (hole - 1) / 2
      · rw [if_pos sibling, Option.some.injEq] at above
        rw [← above]
        exact (parentBound i b iPositive atHole sibling below).trans smaller.le
      · rw [if_neg sibling] at above
        by_cases child : (i - 1) / 2 = hole
        · rw [if_pos child, Option.some.injEq] at above
          rw [← above]
          exact ready.grand i parent b iPositive positive child parentFound below
        · rw [if_neg child] at above
          exact ready.except i a b iPositive atHole above below
  · intro i a b iPositive upPositive child above below
    have grandparent : ((hole - 1) / 2 - 1) / 2 ≠ (hole - 1) / 2 := by omega
    have notHole : ((hole - 1) / 2 - 1) / 2 ≠ hole := by omega
    rw [read, if_neg grandparent, if_neg notHole] at above
    have parentBelow : key parent ≤ key a :=
      ready.except _ a parent upPositive (by omega) above parentFound
    have notParent : i ≠ (hole - 1) / 2 := by omega
    rw [read, if_neg notParent] at below
    by_cases atHole : i = hole
    · rw [if_pos atHole, Option.some.injEq] at below
      rw [← below]
      exact parentBelow
    · rw [if_neg atHole] at below
      exact (parentBound i b iPositive atHole child below).trans parentBelow

/-- Where nothing is left to be sifted there is a heap. -/
theorem SiftReady.isHeap {hole : Nat} (ready : SiftReady key list hole)
    (orders : OrdersBy less key list)
    (stopped : ∀ a b, 0 < hole → list[(hole - 1) / 2]? = some a → list[hole]? = some b →
      key b ≤ key a) : IsHeap less list := by
  intro i a b positive above below
  rw [orders a (List.mem_of_getElem? above) b (List.mem_of_getElem? below),
    decide_eq_false_iff_not, not_lt]
  by_cases atHole : i = hole
  · subst atHole
    exact stopped a b positive above below
  · exact ready.except i a b positive atHole above below

/-- Sifting up from a ready hole ends in a heap. -/
theorem siftUp_isHeap {hole fuel : Nat} (orders : OrdersBy less key list)
    (ready : SiftReady key list hole) (enough : hole ≤ fuel) :
    IsHeap less (siftUp less fuel list hole) := by
  induction fuel generalizing list hole with
  | zero =>
      apply ready.isHeap orders
      intro a b positive
      omega
  | succ fuel ih =>
      unfold siftUp
      split
      · rename_i parent element parentFound elementFound
        have compared := orders parent (List.mem_of_getElem? parentFound) element
          (List.mem_of_getElem? elementFound)
        split
        · rename_i condition
          obtain ⟨positive, smaller⟩ := condition
          rw [compared, decide_eq_true_eq] at smaller
          have perm : ((list.set hole parent).set ((hole - 1) / 2) element).Perm list := by
            obtain ⟨parentInside, parentIs⟩ := List.getElem?_eq_some_iff.mp parentFound
            obtain ⟨elementInside, elementIs⟩ := List.getElem?_eq_some_iff.mp elementFound
            rw [← parentIs, ← elementIs]
            exact List.set_set_perm elementInside parentInside
          apply ih (orders.subset fun a member => perm.mem_iff.mp member)
            (ready.exchange positive parentFound elementFound smaller)
          omega
        · rename_i condition
          apply ready.isHeap orders
          intro a b positive above below
          have sameParent : parent = a := Option.some.inj (parentFound.symm.trans above)
          have sameElement : element = b := Option.some.inj (elementFound.symm.trans below)
          subst sameParent sameElement
          have notLess : ¬ less parent element = true := fun isLess => condition ⟨positive, isLess⟩
          rw [compared, decide_eq_true_eq, not_lt] at notLess
          exact notLess
      · rename_i missing
        apply ready.isHeap orders
        intro a b _ above below
        exact (missing a b above below).elim

/-- Sift the last element of the list up. -/
def siftPush (less : α → α → Bool) (list : List α) : List α :=
  siftUp less list.length list (list.length - 1)

/-- Pushing keeps the heap. -/
theorem siftPush_isHeap {last : α} (orders : OrdersBy less key (list ++ [last]))
    (heap : IsHeap less list) : IsHeap less (siftPush less (list ++ [last])) := by
  have inner : OrdersBy less key list := orders.subset fun a member => List.mem_append_left _ member
  have length : (list ++ [last]).length = list.length + 1 := by simp
  have beyond : ∀ i b, i ≠ list.length → (list ++ [last])[i]? = some b → list[i]? = some b := by
    intro i b different found
    obtain ⟨inside, _⟩ := List.getElem?_eq_some_iff.mp found
    rwa [List.getElem?_append_left (by omega)] at found
  have ready : SiftReady key (list ++ [last]) list.length := by
    constructor
    · intro i a b positive different above below
      have below := beyond i b different below
      obtain ⟨inside, _⟩ := List.getElem?_eq_some_iff.mp below
      exact heap.key_le inner positive (beyond _ a (by omega) above) below
    · intro i a b positive _ child _ below
      obtain ⟨inside, _⟩ := List.getElem?_eq_some_iff.mp below
      omega
  unfold siftPush
  rw [length, Nat.add_sub_cancel]
  exact siftUp_isHeap orders ready (Nat.le_succ _)

/-- Build a heap by pushing one element after the other. -/
def siftBuild (less : α → α → Bool) (list : List α) : List α :=
  list.foldl (fun heap element => siftPush less (heap ++ [element])) []

theorem siftBuild_snoc (less : α → α → Bool) (list : List α) (last : α) :
    siftBuild less (list ++ [last]) = siftPush less (siftBuild less list ++ [last]) := by
  simp only [siftBuild, List.foldl_append, List.foldl_cons, List.foldl_nil]

/-- Building a heap moves entries only. -/
theorem siftBuild_perm (less : α → α → Bool) (list : List α) :
    (siftBuild less list).Perm list := by
  induction list using List.reverseRecOn with
  | nil => exact List.Perm.refl _
  | append_singleton list last ih =>
      rw [siftBuild_snoc]
      exact (siftUp_perm _ _ _ _).trans (ih.append_right [last])

/-- What is built is a heap. -/
theorem siftBuild_isHeap (orders : OrdersBy less key list) : IsHeap less (siftBuild less list) := by
  induction list using List.reverseRecOn with
  | nil =>
      intro i a b _ above
      simp [siftBuild] at above
  | append_singleton list last ih =>
      rw [siftBuild_snoc]
      have perm := (siftBuild_perm less list).append_right [last]
      exact siftPush_isHeap (orders.subset fun a member => perm.mem_iff.mp member)
        (ih (orders.subset fun a member => List.mem_append_left _ member))

/-- Heaps by sifting: a push sifts the last element up, a pop moves the root to
the back and rebuilds the rest. -/
def siftHeap (α : Type) : HeapAlgorithms α where
  pushHeap := siftPush
  popHeap less list :=
    match list with
    | [] => []
    | root :: rest => siftBuild less rest ++ [root]
  push_perm less list := siftUp_perm less _ list _
  pop_perm less list := by
    cases list with
    | nil => exact List.Perm.refl _
    | cons root rest =>
        exact ((siftBuild_perm less rest).append_right [root]).trans (List.perm_append_singleton ..)
  push_isHeap less key list last orders heap := siftPush_isHeap orders heap
  pop_isHeap less key root rest orders heap :=
    ⟨siftBuild less rest, rfl,
      siftBuild_isHeap (orders.subset fun a member => List.mem_cons_of_mem _ member)⟩

end Foundation
