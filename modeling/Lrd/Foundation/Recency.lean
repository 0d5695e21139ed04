import Mathlib.Data.List.Basic
import Mathlib.Data.List.Induction

/-!
# Last uses and latest writes

When a key was last used, read off the list of all uses, and which value was last
written under it. A list of keys in which every use moves its key to the front is
ordered by last use, so that its end is the key that has not been used for longest
(`OrderedByUse`).
-/

namespace Foundation

variable {κ β : Type} [DecidableEq κ]

/-! ## Latest writes -/

/-- The value that was last written under a key. -/
def latest (writes : List (κ × β)) (key : κ) : Option β :=
  writes.foldl (fun found write => if write.1 = key then some write.2 else found) none

theorem latest_snoc (writes : List (κ × β)) (write : κ × β) (key : κ) :
    latest (writes ++ [write]) key =
      if write.1 = key then some write.2 else latest writes key :=
  List.foldl_append ..

theorem latest_snoc_self (writes : List (κ × β)) (key : κ) (value : β) :
    latest (writes ++ [(key, value)]) key = some value := by
  rw [latest_snoc, if_pos rfl]

theorem latest_snoc_of_ne (writes : List (κ × β)) {key other : κ} (value : β)
    (different : other ≠ key) : latest (writes ++ [(key, value)]) other = latest writes other := by
  rw [latest_snoc, if_neg different.symm]

/-- What is latest was written. -/
theorem mem_of_latest {writes : List (κ × β)} {key : κ} {value : β}
    (found : latest writes key = some value) : (key, value) ∈ writes := by
  induction writes using List.reverseRecOn with
  | nil => cases found
  | append_singleton writes write ih =>
      rw [latest_snoc] at found
      split at found
      · rename_i same
        subst same
        rw [← Option.some.inj found]
        exact List.mem_append_right _ (List.mem_singleton_self write)
      · exact List.mem_append_left _ (ih found)

/-! ## Last uses -/

/-- When a key was last used, counting uses from one; zero for a key never used. -/
def lastUse (uses : List κ) (key : κ) : Nat := uses.length - uses.reverse.idxOf key

theorem lastUse_le (uses : List κ) (key : κ) : lastUse uses key ≤ uses.length :=
  Nat.sub_le ..

theorem lastUse_snoc_self (uses : List κ) (key : κ) :
    lastUse (uses ++ [key]) key = uses.length + 1 := by
  rw [lastUse, List.reverse_append, List.reverse_singleton, List.singleton_append,
    List.idxOf_cons_self, List.length_append, List.length_singleton, Nat.sub_zero]

/-- Uses of other keys do not matter. -/
theorem lastUse_snoc_of_ne (uses : List κ) {key other : κ} (different : other ≠ key) :
    lastUse (uses ++ [key]) other = lastUse uses other := by
  rw [lastUse, List.reverse_append, List.reverse_singleton, List.singleton_append,
    List.idxOf_cons_ne _ different.symm, List.length_append, List.length_singleton,
    Nat.add_sub_add_right]
  rfl

/-- Keys that were used later come first. -/
def OrderedByUse (uses : List κ) (keys : List κ) : Prop :=
  keys.Pairwise fun first second => lastUse uses second < lastUse uses first

namespace OrderedByUse

variable {uses keys : List κ}

theorem nil (uses : List κ) : OrderedByUse uses [] := List.Pairwise.nil

theorem sublist {fewer : List κ} (ordered : OrderedByUse uses keys) (within : fewer.Sublist keys) :
    OrderedByUse uses fewer :=
  List.Pairwise.sublist within ordered

/-- Using a key changes nothing about the others. -/
theorem other (ordered : OrderedByUse uses keys) {key : κ} (absent : key ∉ keys) :
    OrderedByUse (uses ++ [key]) keys := by
  refine List.Pairwise.imp_of_mem ?_ ordered
  intro first second inFirst inSecond later
  rw [lastUse_snoc_of_ne uses (ne_of_mem_of_not_mem inFirst absent),
    lastUse_snoc_of_ne uses (ne_of_mem_of_not_mem inSecond absent)]
  exact later

/-- A key that is used goes to the front of those it is not among. -/
theorem use (ordered : OrderedByUse uses keys) {key : κ} (absent : key ∉ keys) :
    OrderedByUse (uses ++ [key]) (key :: keys) := by
  refine List.pairwise_cons.mpr ⟨?_, ordered.other absent⟩
  intro held member
  rw [lastUse_snoc_self, lastUse_snoc_of_ne uses (ne_of_mem_of_not_mem member absent)]
  exact Nat.lt_succ_of_le (lastUse_le uses held)

/-- The end of the list has not been used for longest. -/
theorem last_oldest {front : List κ} {oldest : κ} (ordered : OrderedByUse uses (front ++ [oldest])) :
    ∀ other ∈ front, lastUse uses oldest < lastUse uses other := by
  intro other member
  exact (List.pairwise_append.mp ordered).2.2 other member oldest (List.mem_singleton_self _)

end OrderedByUse

end Foundation
