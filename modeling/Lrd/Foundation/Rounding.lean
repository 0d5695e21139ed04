import Mathlib.Algebra.Ring.Int.Defs
import Mathlib.Algebra.Ring.Nat

/-!
# Rounding to multiples

The multiple of a number that is nearest to another one, the greater one where there are
two. Adding half of the step before the division finds it (`nearest_roundToMultiple`), and
no number on the way exceeds the sum of the number and half of the step.
-/

namespace Foundation

/-- No multiple of the step is nearer to the number, and of two that are equally near this is
the greater one. -/
structure NearestMultiple (step number multiple : ℤ) : Prop where
  divides : step ∣ multiple
  nearest : ∀ other, step ∣ other → (number - multiple).natAbs ≤ (number - other).natAbs
  upward : ∀ other, step ∣ other → (number - other).natAbs = (number - multiple).natAbs →
    other ≤ multiple

/-- There is one nearest multiple. -/
theorem NearestMultiple.unique {step number first second : ℤ}
    (one : NearestMultiple step number first) (two : NearestMultiple step number second) :
    first = second := by
  have same : (number - first).natAbs = (number - second).natAbs :=
    Nat.le_antisymm (one.nearest second two.divides) (two.nearest first one.divides)
  have below := two.upward first one.divides same
  have above := one.upward second two.divides same.symm
  omega

/-- Multiples that differ are at least a step apart. -/
theorem add_le_of_dvd_of_lt {step first second : ℤ} (one : step ∣ first) (two : step ∣ second)
    (less : first < second) : first + step ≤ second := by
  have apart := Int.le_of_dvd (Int.sub_pos_of_lt less) (Int.dvd_sub two one)
  omega

/-- The nearest multiple of `step`, upwards from halfway. -/
def roundToMultiple (step number : Nat) : Nat := (number + step / 2) / step * step

theorem dvd_roundToMultiple (step number : Nat) : step ∣ roundToMultiple step number :=
  Nat.dvd_mul_left step _

theorem roundToMultiple_le (step number : Nat) :
    roundToMultiple step number ≤ number + step / 2 :=
  Nat.div_mul_le_self _ step

theorem roundToMultiple_one (number : Nat) : roundToMultiple 1 number = number := by
  simp [roundToMultiple]

/-- Rounding keeps the order. -/
theorem roundToMultiple_mono (step : Nat) {fewer more : Nat} (le : fewer ≤ more) :
    roundToMultiple step fewer ≤ roundToMultiple step more := by
  apply Nat.mul_le_mul_right
  apply Nat.div_le_div_right
  exact Nat.add_le_add_right le _

/-- It is nearest. -/
theorem nearest_roundToMultiple {step : Nat} (positive : 0 < step) (number : Nat) :
    NearestMultiple step number (roundToMultiple step number) := by
  have below := roundToMultiple_le step number
  have above : number + step / 2 < roundToMultiple step number + step :=
    Nat.lt_div_mul_add positive
  have divides : (step : ℤ) ∣ roundToMultiple step number :=
    Int.natCast_dvd_natCast.mpr (dvd_roundToMultiple step number)
  -- The rounded number is at most half a step away, and a greater multiple is further away
  -- than that.
  have farther : ∀ other : ℤ, (step : ℤ) ∣ other → other ≠ roundToMultiple step number →
      other < roundToMultiple step number ∧
        (number - roundToMultiple step number : ℤ).natAbs ≤ (number - other).natAbs ∨
      (number - roundToMultiple step number : ℤ).natAbs < (number - other).natAbs := by
    intro other isMultiple different
    rcases Int.lt_or_gt_of_ne different with less | greater
    · have apart := add_le_of_dvd_of_lt isMultiple divides less
      exact Or.inl ⟨less, by omega⟩
    · have apart := add_le_of_dvd_of_lt divides isMultiple greater
      exact Or.inr (by omega)
  refine ⟨divides, ?_, ?_⟩
  · intro other isMultiple
    by_cases same : other = roundToMultiple step number
    · rw [same]
    · rcases farther other isMultiple same with ⟨_, le⟩ | lt
      · exact le
      · exact Nat.le_of_lt lt
  · intro other isMultiple tie
    by_cases same : other = roundToMultiple step number
    · exact Int.le_of_eq same
    · rcases farther other isMultiple same with ⟨less, _⟩ | lt
      · exact Int.le_of_lt less
      · exact absurd tie (Nat.ne_of_gt lt)

end Foundation
