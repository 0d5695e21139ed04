import Mathlib.Data.List.Perm.Basic
import Mathlib.Data.List.Nodup

/-!
# Handles into a table

A table gives meaning to keys, and a key that was given up may be given out again with
another meaning. Handles own their keys: no two handles have the same key, and the table
has under each what its handle stands for (`Owned`). This survives whatever happens to the
keys that no handle owns.
-/

namespace Foundation

variable {κ φ η : Type} {key : η → κ} {value : η → φ}

/-- Every handle has a key of its own, under which the table has its value. -/
structure Owned (key : η → κ) (value : η → φ) (table : κ → Option φ) (handles : List η) :
    Prop where
  distinct : (handles.map key).Nodup
  opened : ∀ handle ∈ handles, table (key handle) = some (value handle)

namespace Owned

variable {table : κ → Option φ} {handles others : List η} {handle : η}

theorem nil (table : κ → Option φ) : Owned key value table [] :=
  ⟨List.nodup_nil, fun _ member => absurd member List.not_mem_nil⟩

/-- The order of the handles does not matter. -/
theorem perm (owned : Owned key value table handles) (same : others.Perm handles) :
    Owned key value table others :=
  ⟨(same.map key).nodup_iff.mpr owned.distinct,
    fun handle member => owned.opened handle (same.mem_iff.mp member)⟩

variable [DecidableEq κ]

/-- A key that no handle owns may change its meaning. -/
theorem elsewhere (owned : Owned key value table handles) {changed : κ}
    (unowned : ∀ handle ∈ handles, key handle ≠ changed) (meaning : Option φ) :
    Owned key value (Function.update table changed meaning) handles where
  distinct := owned.distinct
  opened handle member := by
    rw [Function.update_of_ne (unowned handle member)]
    exact owned.opened handle member

/-- A key that means nothing may be given to a new handle. -/
theorem opens (owned : Owned key value table handles) (free : table (key handle) = none) :
    Owned key value (Function.update table (key handle) (some (value handle)))
      (handle :: handles) := by
  have unowned : ∀ other ∈ handles, key other ≠ key handle := by
    intro other member same
    have opened := owned.opened other member
    rw [same, free] at opened
    cases opened
  have rest := owned.elsewhere unowned (some (value handle))
  refine ⟨List.nodup_cons.mpr ⟨?_, rest.distinct⟩, List.forall_mem_cons.mpr ⟨?_, rest.opened⟩⟩
  · rintro member
    obtain ⟨other, among, same⟩ := List.mem_map.mp member
    exact unowned other among same
  · exact Function.update_self ..

/-- A handle may be given up with its key. -/
theorem closes (owned : Owned key value table (handle :: handles)) :
    Owned key value (Function.update table (key handle) none) handles := by
  obtain ⟨unowned, distinct⟩ := List.nodup_cons.mp owned.distinct
  have rest : Owned key value table handles :=
    ⟨distinct, fun other member => owned.opened other (List.mem_cons_of_mem handle member)⟩
  refine rest.elsewhere ?_ none
  intro other member same
  exact unowned (List.mem_map.mpr ⟨other, member, same⟩)

end Owned

end Foundation
