import Mathlib.Data.List.FinRange
import Mathlib.Data.List.Perm.Basic

/-!
# Slots

Finitely many parties, each of which may hold something. `contents` lists what they
hold. When one party changes, the list loses what it held and gains what it holds now,
up to order (`contents_update`).
-/

namespace Foundation

variable {count : Nat} {β γ : Type}

/-- What the parties hold, party by party. -/
def contents (held : β → Option γ) (slots : Fin count → β) : List γ :=
  (List.finRange count).filterMap fun index => held (slots index)

/-- What the parties other than one hold. -/
def contentsBut (held : β → Option γ) (slots : Fin count → β) (index : Fin count) : List γ :=
  ((List.finRange count).erase index).filterMap fun other => held (slots other)

/-- The contents are those of one slot and of the others. -/
theorem contents_split (held : β → Option γ) (slots : Fin count → β) (index : Fin count) :
    (contents held slots).Perm ((held (slots index)).toList ++ contentsBut held slots index) := by
  have perm := (List.perm_cons_erase (List.mem_finRange index)).filterMap
    fun other => held (slots other)
  rw [List.filterMap_cons] at perm
  cases own : held (slots index) with
  | none =>
      rw [own] at perm
      exact perm
  | some item =>
      rw [own] at perm
      exact perm

/-- A party that changes leaves what the others hold. -/
theorem contentsBut_update (held : β → Option γ) (slots : Fin count → β) (index : Fin count)
    (slot : β) :
    contentsBut held (Function.update slots index slot) index = contentsBut held slots index := by
  refine List.filterMap_congr fun other member => ?_
  have different : other ≠ index := ((List.nodup_finRange count).mem_erase_iff.mp member).1
  rw [Function.update_of_ne different]

/-- The contents after one slot has changed. -/
theorem contents_update (held : β → Option γ) (slots : Fin count → β) (index : Fin count)
    (slot : β) :
    (contents held (Function.update slots index slot)).Perm
      ((held slot).toList ++ contentsBut held slots index) := by
  have split := contents_split held (Function.update slots index slot) index
  rwa [Function.update_self, contentsBut_update] at split

/-! ## Parties in a list -/

/-- A list of parties one of which changes. -/
theorem perm_set {slots : List β} {index : Nat} {slot : β} (found : slots[index]? = some slot) :
    ∃ others, slots.Perm (slot :: others) ∧
      ∀ changed, (slots.set index changed).Perm (changed :: others) := by
  obtain ⟨inside, rfl⟩ := List.getElem?_eq_some_iff.mp found
  exact ⟨slots.eraseIdx index, (List.getElem_cons_eraseIdx_perm inside).symm,
    List.set_perm_cons_eraseIdx inside⟩

/-- When one party changes, what all of them hold loses what it held and gains what it holds
now. -/
theorem flatMap_set (held : β → List γ) {slots : List β} {index : Nat} {slot : β}
    (found : slots[index]? = some slot) :
    ∃ others, (slots.flatMap held).Perm (held slot ++ others) ∧
      ∀ changed, ((slots.set index changed).flatMap held).Perm (held changed ++ others) := by
  obtain ⟨others, before, after⟩ := perm_set found
  exact ⟨others.flatMap held, before.flatMap_right held,
    fun changed => (after changed).flatMap_right held⟩

end Foundation
