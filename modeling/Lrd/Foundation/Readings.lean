import Lrd.Foundation.Interleaving
import Mathlib.Algebra.Order.BigOperators.Group.List
import Mathlib.Algebra.Order.Group.Nat
import Mathlib.Data.List.Infix
import Mathlib.Data.UInt

/-!
# Readings of counters that others advance

A call that reads several counters one after another, while other calls advance them, does not
see one state of the system. What it sees is still bounded: a counter read during a call is at
least what it was when the call was made and at most what it is when the call has returned
(`Concurrent.Tallies.reading`), and so is a sum of counters read at different times
(`Concurrent.Tallies.reading_sum`). The counters are words, so the bound needs runs that are too
short for a counter to wrap around.
-/

namespace Foundation

variable {S : Signature} {σ ε ρ α ι : Type}

variable {index : Nat} {indices : List ι}

namespace System

variable (code : Concurrent S σ ε ρ α) (state : σ)

/-- Calls carry on as the schedule goes on. -/
theorem run_carryOn (earlier later : List (Label ε ρ)) :
    CarryOn (run code state earlier).calls (run code state (earlier ++ later)).calls := by
  induction later using List.reverseRecOn with
  | nil =>
      rw [List.append_nil]
      exact CarryOn.refl _
  | append_singleton later label ih =>
      rw [← List.append_assoc, run_snoc]
      exact ih.trans (step_carryOn code _ label)

/-- A longer run has a longer history. -/
theorem run_history_prefix (earlier later : List (Label ε ρ)) :
    (run code state earlier).history <+: (run code state (earlier ++ later)).history := by
  induction later using List.reverseRecOn with
  | nil => rw [List.append_nil]
  | append_singleton later label ih =>
      rw [← List.append_assoc, run_snoc]
      refine ih.trans ?_
      rcases step_cases code (run code state (earlier ++ later)) label with
        ⟨_, _, stepped⟩ | ⟨_, _, _, _, _, _, _, _, stepped⟩ | stepped
      · rw [stepped]
      · rw [stepped]
        exact List.prefix_append ..
      · rw [stepped]

variable {code state}

/-- What a call has performed, it has performed after it was made. -/
theorem performed_after_made {schedule before earlier later : List (Label ε ρ)} {environment : ε}
    {op : S.Op} (begun : before <+: schedule)
    (unmade : (run code state before).calls.length ≤ index)
    (split : schedule = earlier ++ .advance index environment :: later)
    (performs : (run code state earlier).Performs index op) : before <+: earlier := by
  have first : earlier <+: schedule := split ▸ List.prefix_append ..
  rcases List.prefix_or_prefix_of_prefix begun first with within | ⟨more, longer⟩
  · exact within
  · obtain ⟨request, trace, next, found⟩ := performs
    obtain ⟨_, there, _⟩ := run_carryOn code state earlier more index _ found
    rw [longer] at there
    exact absurd (List.getElem?_eq_some_iff.mp there).1 (Nat.not_lt.mpr unmade)

end System

namespace Concurrent

variable (code : Concurrent S σ ε ρ α) (part : ι → σ → UInt64)

/-- An operation counts up at most one of the counters, by one. -/
def Tallies : Prop :=
  ∀ environment op state,
    (∀ index, part index (code.perform environment op state).2 = part index state) ∨
    ∃ moved, part moved (code.perform environment op state).2 = part moved state + 1 ∧
      ∀ index, index ≠ moved → part index (code.perform environment op state).2 = part index state

/-- Some of the counters, added up without wrapping around. -/
def total (part : ι → σ → UInt64) (indices : List ι) (state : σ) : Nat :=
  (indices.map fun index => (part index state).toNat).sum

variable {code part}

theorem total_cons (first : ι) (indices : List ι) (state : σ) :
    total part (first :: indices) state = (part first state).toNat + total part indices state :=
  List.sum_cons ..

/-- The total depends on the parts only. -/
theorem total_congr {state other : σ}
    (same : ∀ index ∈ indices, part index state = part index other) :
    total part indices state = total part indices other := by
  refine congrArg List.sum (List.map_congr_left fun index member => ?_)
  rw [same index member]

theorem toNat_succ_le (word : UInt64) : (word + 1).toNat ≤ word.toNat + 1 := by
  rw [UInt64.toNat_add]
  exact Nat.mod_le ..

/-- One operation adds at most one to the total. -/
theorem Tallies.total_step (tallies : code.Tallies part) (distinct : indices.Nodup)
    (environment : ε) (op : S.Op) (state : σ) :
    total part indices (code.perform environment op state).2 ≤ total part indices state + 1 := by
  rcases tallies environment op state with same | ⟨moved, counted, others⟩
  · rw [total_congr fun index _ => same index]
    exact Nat.le_succ _
  · induction indices with
    | nil => exact Nat.zero_le _
    | cons first indices ih =>
        obtain ⟨fresh, rest⟩ := List.nodup_cons.mp distinct
        rw [total_cons, total_cons]
        by_cases here : first = moved
        · subst here
          -- The other counters are not the one that moved.
          rw [counted, total_congr fun index member => others index (ne_of_mem_of_not_mem member fresh)]
          have := toNat_succ_le (part first state)
          omega
        · rw [others first here]
          have := ih rest
          omega

variable {state : σ}

/-- Counters that start at zero count no more than there are operations. -/
theorem Tallies.total_le (tallies : code.Tallies part) (zero : ∀ index, part index state = 0)
    (distinct : indices.Nodup) (schedule : List (Label ε ρ)) :
    total part indices (System.run code state schedule).state ≤
      (System.run code state schedule).history.length := by
  refine System.run_history_invariant (fun current history =>
    total part indices current ≤ history.length) ?_ ?_ schedule
  · simp [total, zero]
  · intro environment op current history bounded
    rw [List.length_append, List.length_singleton]
    exact (tallies.total_step distinct environment op current).trans (Nat.succ_le_succ bounded)

/-- In a run too short for a counter to wrap around, counters only grow. -/
theorem Tallies.grows (tallies : code.Tallies part) (zero : ∀ index, part index state = 0)
    {earlier later : List (Label ε ρ)}
    (short : (System.run code state (earlier ++ later)).history.length < 2 ^ 64) (index : ι) :
    (part index (System.run code state earlier).state).toNat ≤
      (part index (System.run code state (earlier ++ later)).state).toNat := by
  induction later using List.reverseRecOn with
  | nil => rw [List.append_nil]
  | append_singleton later label ih =>
      rw [← List.append_assoc] at short ⊢
      have shorter := (System.run_history_prefix code state (earlier ++ later) [label]).length_le
      refine (ih (Nat.lt_of_le_of_lt shorter short)).trans ?_
      rw [System.run_snoc] at short ⊢
      rcases System.step_cases code (System.run code state (earlier ++ later)) label with
        ⟨_, _, stepped⟩ | ⟨_, environment, _, _, op, _, _, _, stepped⟩ | stepped
      · rw [stepped]
      · have bounded := tallies.total_le zero (List.pairwise_singleton _ index) (earlier ++ later)
        rw [total_cons] at bounded
        rw [stepped] at short ⊢
        rw [List.length_append, List.length_singleton] at short
        simp only
        rcases tallies environment op (System.run code state (earlier ++ later)).state with
          same | ⟨moved, counted, others⟩
        · rw [same]
        · by_cases here : index = moved
          · subst here
            rw [counted, UInt64.toNat_add, UInt64.toNat_one, Nat.mod_eq_of_lt (by omega)]
            exact Nat.le_succ _
          · rw [others index here]
      · rw [stepped]

/-- A counter read by a call lies between what it was before the call was made and what it has
become. -/
theorem Tallies.reading (tallies : code.Tallies part) (zero : ∀ index, part index state = 0)
    {schedule before : List (Label ε ρ)} (begun : before <+: schedule)
    (short : (System.run code state schedule).history.length < 2 ^ 64) {call : Call S ρ α}
    (made : (System.run code state schedule).calls[index]? = some call)
    (unmade : (System.run code state before).calls.length ≤ index) {event : Event S}
    (traced : event ∈ call.trace) {counter : ι} {value : UInt64}
    (reads : ∀ environment current, (code.perform environment event.op current).1 = event.answer →
      part counter current = value) :
    (part counter (System.run code state before).state).toNat ≤ value.toNat ∧
      value.toNat ≤ (part counter (System.run code state schedule).state).toNat := by
  obtain ⟨earlier, environment, later, split, performs, answered⟩ :=
    System.run_performed state schedule index call made event traced
  have read := reads environment _ answered
  obtain ⟨between, rfl⟩ := System.performed_after_made begun unmade split performs
  rw [← read]
  subst split
  constructor
  · refine tallies.grows zero ?_ counter
    exact Nat.lt_of_le_of_lt (System.run_history_prefix ..).length_le short
  · exact tallies.grows zero short counter

/-- A sum that is small enough does not wrap. -/
theorem toNat_sum {values : List UInt64} (short : (values.map UInt64.toNat).sum < 2 ^ 64) :
    values.sum.toNat = (values.map UInt64.toNat).sum := by
  induction values with
  | nil => rfl
  | cons first values ih =>
      rw [List.map_cons, List.sum_cons] at short ⊢
      rw [List.sum_cons, UInt64.toNat_add, ih (by omega)]
      exact Nat.mod_eq_of_lt short

/-- A sum of counters, each read at another time during a call, lies between what the sum was
before the call was made and what it has become. -/
theorem Tallies.reading_sum (tallies : code.Tallies part) (zero : ∀ index, part index state = 0)
    {schedule before : List (Label ε ρ)} (begun : before <+: schedule)
    (short : (System.run code state schedule).history.length < 2 ^ 64) {call : Call S ρ α}
    (made : (System.run code state schedule).calls[index]? = some call)
    (unmade : (System.run code state before).calls.length ≤ index) {counters : List ι}
    (distinct : counters.Nodup) {values : ι → UInt64}
    (each : ∀ counter ∈ counters, ∃ event ∈ call.trace, ∀ environment current,
      (code.perform environment event.op current).1 = event.answer → part counter current =
      values counter) :
    total part counters (System.run code state before).state ≤ (counters.map values).sum.toNat ∧
      (counters.map values).sum.toNat ≤
        total part counters (System.run code state schedule).state := by
  have bounds : ∀ counter ∈ counters,
      (part counter (System.run code state before).state).toNat ≤ (values counter).toNat ∧
        (values counter).toNat ≤ (part counter (System.run code state schedule).state).toNat := by
    intro counter member
    obtain ⟨event, traced, reads⟩ := each counter member
    exact tallies.reading zero begun short made unmade traced reads
  have below : ∀ {low high : ι → Nat}, (∀ counter ∈ counters, low counter ≤ high counter) →
      (counters.map low).sum ≤ (counters.map high).sum := fun pointwise =>
    List.sum_le_sum pointwise
  have above := below fun counter member => (bounds counter member).2
  have few := tallies.total_le zero distinct schedule
  have exact : (counters.map values).sum.toNat =
      (counters.map fun counter => (values counter).toNat).sum := by
    rw [toNat_sum]
    · rw [List.map_map]
      rfl
    · rw [List.map_map]
      exact Nat.lt_of_le_of_lt (above.trans few) short
  rw [exact]
  exact ⟨below fun counter member => (bounds counter member).1, above⟩

end Concurrent

end Foundation
