import Mathlib.Data.List.Basic

/-!
# Records

Lists to which a system appends what happens. What was recorded keeps its position, and
a record's last entry is told from the others by its position.
-/

namespace Foundation

variable {α β : Type} {record : List α} {index : Nat} {entry : α}

theorem found_append (found : record[index]? = some entry) (more : List α) :
    (record ++ more)[index]? = some entry := by
  obtain ⟨inside, _⟩ := List.getElem?_eq_some_iff.mp found
  rw [List.getElem?_append_left inside, found]

/-- An entry of an extended record was there before, or it is the last. -/
theorem found_snoc {last : α} (found : (record ++ [last])[index]? = some entry) :
    record[index]? = some entry ∨ index = record.length ∧ entry = last := by
  rcases Nat.lt_or_ge index record.length with earlier | beyond
  · rw [List.getElem?_append_left earlier] at found
    exact Or.inl found
  · obtain ⟨inside, _⟩ := List.getElem?_eq_some_iff.mp found
    rw [List.length_append, List.length_singleton] at inside
    rw [List.getElem?_append_right beyond] at found
    exact Or.inr ⟨by omega, List.mem_singleton.mp (List.mem_of_getElem? found)⟩

/-- The only entry of a record. -/
theorem eq_singleton (short : record.length ≤ 1) (member : entry ∈ record) : record = [entry] := by
  have one : record.length = 1 := Nat.le_antisymm short (List.length_pos_of_mem member)
  obtain ⟨only, rfl⟩ := List.length_eq_one_iff.mp one
  rw [List.mem_singleton.mp member]

/-- One more entry of a selection. -/
theorem filterMap_snoc (select : α → Option β) (record : List α) (last : α) :
    (record ++ [last]).filterMap select = record.filterMap select ++ (select last).toList := by
  rw [List.filterMap_append]
  cases selected : select last with
  | none => rw [List.filterMap_cons_none selected, List.filterMap_nil, Option.toList_none]
  | some value => rw [List.filterMap_cons_some selected, List.filterMap_nil, Option.toList_some]

end Foundation
