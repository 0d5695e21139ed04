import Mathlib.Data.List.Nodup

/-!
# Waiting for a free place

Callers share a number of places and wait on a condition variable while none is free. Who
frees a place notifies one sleeper, of the platform's choice. A sleeper wakes when it is
notified, for no reason, or because its time is up, and then looks again; meanwhile somebody
else may have taken the place.

No notification is lost (`Attentive`): as long as somebody sleeps, there are no more free
places than callers who were woken and have yet to look.
-/

namespace Foundation

/-- Who waits on a condition variable: those asleep, and those who were woken and have not
looked yet, with whether their time is up. -/
structure Condition (ι : Type) where
  asleep : List ι
  woken : List (ι × Bool)

namespace Condition

variable {ι : Type} [DecidableEq ι]

/-- Nobody waits. -/
def nobody : Condition ι := ⟨[], []⟩

omit [DecidableEq ι] in
/-- All who wait, asleep or woken. -/
def waiting (condition : Condition ι) : List ι :=
  condition.asleep ++ condition.woken.map Prod.fst

/-- A caller that was woken has looked. -/
def leave (condition : Condition ι) (who : ι) : Condition ι :=
  { condition with woken := condition.woken.eraseP fun entry => entry.1 = who }

/-- A caller has looked, found no place and goes to sleep. -/
def sleep (condition : Condition ι) (who : ι) : Condition ι :=
  { condition.leave who with asleep := who :: condition.asleep }

/-- A sleeper wakes. -/
def wake (condition : Condition ι) (who : ι) (late : Bool) : Condition ι :=
  if who ∈ condition.asleep then ⟨condition.asleep.erase who, (who, late) :: condition.woken⟩
  else condition

/-- One sleeper is notified: the one chosen, or another if that one does not sleep. -/
def notifyOne (condition : Condition ι) (choice : ι) : Condition ι :=
  if choice ∈ condition.asleep then condition.wake choice false
  else
    match condition.asleep with
    | [] => condition
    | first :: _ => condition.wake first false

/-! ## Who waits -/

section Waiting

variable {condition : Condition ι}

/-- Who wakes up still waits for a turn. -/
theorem waiting_wake (condition : Condition ι) (who : ι) (late : Bool) :
    (condition.wake who late).waiting.Perm condition.waiting := by
  unfold wake
  split
  · rename_i sleeps
    exact List.perm_middle.trans ((List.perm_cons_erase sleeps).symm.append_right _)
  · exact List.Perm.refl _

/-- Who is notified still waits for a turn. -/
theorem waiting_notifyOne (condition : Condition ι) (choice : ι) :
    (condition.notifyOne choice).waiting.Perm condition.waiting := by
  unfold notifyOne
  split
  · exact condition.waiting_wake choice false
  · split
    · exact List.Perm.refl _
    · exact condition.waiting_wake _ false

theorem waiting_leave (condition : Condition ι) (who : ι) :
    (condition.leave who).waiting.Sublist condition.waiting :=
  (List.Sublist.refl _).append (List.eraseP_sublist.map Prod.fst)

theorem map_fst_leave (condition : Condition ι) (who : ι) :
    (condition.leave who).woken.map Prod.fst = (condition.woken.map Prod.fst).erase who := by
  rw [List.erase_eq_eraseP', List.eraseP_map]
  rfl

/-- Who has looked and is not asleep does not wait any more. -/
theorem not_waiting_leave (distinct : condition.waiting.Nodup) {who : ι}
    (awake : who ∉ condition.asleep) : who ∉ (condition.leave who).waiting := by
  intro waits
  rcases List.mem_append.mp waits with sleeps | woken
  · exact awake sleeps
  · rw [map_fst_leave] at woken
    exact (List.nodup_append.mp distinct).2.1.not_mem_erase woken

theorem waiting_sleep (condition : Condition ι) (who : ι) :
    (condition.sleep who).waiting = who :: (condition.leave who).waiting :=
  rfl

end Waiting

/-! ## Notifications are not lost -/

/-- Nobody waits twice, and while somebody sleeps, no more places are free than callers were
woken and have yet to look. -/
structure Attentive (free : Nat) (condition : Condition ι) : Prop where
  distinct : condition.waiting.Nodup
  covered : condition.asleep ≠ [] → free ≤ condition.woken.length

namespace Attentive

variable {free : Nat} {condition : Condition ι}

omit [DecidableEq ι] in
theorem nobody (free : Nat) : Attentive free (Condition.nobody : Condition ι) where
  distinct := List.nodup_nil
  covered sleeps := absurd rfl sleeps

omit [DecidableEq ι] in
/-- The same, with nobody among the waiting. -/
theorem of_nobody (nobody : ∀ who, who ∉ condition.waiting) : Attentive free condition where
  distinct := by
    rw [List.eq_nil_iff_forall_not_mem.mpr nobody]
    exact List.nodup_nil
  covered sleeps := by
    obtain ⟨who, asleep⟩ := List.exists_mem_of_ne_nil _ sleeps
    exact absurd (List.mem_append_left _ asleep) (nobody who)

/-- Leaving takes at most one from the woken. -/
theorem length_leave (condition : Condition ι) (who : ι) :
    condition.woken.length ≤ (condition.leave who).woken.length + 1 := by
  rw [leave, List.length_eraseP]
  split
  · exact Nat.le_add_of_sub_le (Nat.le_refl _)
  · exact Nat.le_succ _

/-- A place is taken, perhaps by one who was woken. -/
theorem take (attentive : Attentive (free + 1) condition) (who : ι) :
    Attentive free (condition.leave who) where
  distinct := attentive.distinct.sublist (condition.waiting_leave who)
  covered sleeps := by
    have before := attentive.covered sleeps
    have left := length_leave condition who
    omega

/-- One who was woken and found no place gives up. -/
theorem giveUp (attentive : Attentive 0 condition) (who : ι) :
    Attentive 0 (condition.leave who) where
  distinct := attentive.distinct.sublist (condition.waiting_leave who)
  covered _ := Nat.zero_le _

/-- Who finds no place may sleep. -/
theorem sleep (attentive : Attentive 0 condition) {who : ι} (awake : who ∉ condition.asleep) :
    Attentive 0 (condition.sleep who) where
  distinct := by
    rw [waiting_sleep, List.nodup_cons]
    exact ⟨not_waiting_leave attentive.distinct awake,
      attentive.distinct.sublist (condition.waiting_leave who)⟩
  covered _ := Nat.zero_le _

/-- Waking somebody leaves nobody out. -/
theorem wake (attentive : Attentive free condition) (who : ι) (late : Bool) :
    Attentive free (condition.wake who late) where
  distinct := (condition.waiting_wake who late).nodup_iff.mpr attentive.distinct
  covered sleeps := by
    unfold Condition.wake at sleeps ⊢
    split
    · rename_i asleep
      exact Nat.le_succ_of_le (attentive.covered (List.ne_nil_of_mem asleep))
    · rename_i awake
      rw [if_neg awake] at sleeps
      exact attentive.covered sleeps

/-- A place becomes free and one sleeper is notified. -/
theorem notifyOne (attentive : Attentive free condition) (choice : ι) :
    Attentive (free + 1) (condition.notifyOne choice) where
  distinct := (condition.waiting_notifyOne choice).nodup_iff.mpr attentive.distinct
  covered := by
    -- Whoever is notified is one more of those who have yet to look.
    have woken : ∀ who ∈ condition.asleep, free + 1 ≤ (condition.wake who false).woken.length := by
      intro who asleep
      rw [Condition.wake, if_pos asleep]
      exact Nat.succ_le_succ (attentive.covered (List.ne_nil_of_mem asleep))
    unfold Condition.notifyOne
    split
    · rename_i asleep
      exact fun _ => woken choice asleep
    · split
      · rename_i none
        exact fun sleeps => absurd none sleeps
      · rename_i first others some
        refine fun _ => woken first ?_
        rw [some]
        exact List.mem_cons_self

end Attentive

end Condition

end Foundation
