import Lrd.Foundation.Rounding
import Lrd.Privacy.NoisyCounters

/-!
# The published value of a counter

The integer stage of `publish` (`privacy/noise.cpp`) in 64 bits. Half of the rounding is
added before the division, and `llround` returns a signed number, so the sum stays below
`2^64` whatever the rounding; what is published is the nearest multiple, or nothing
(`publish_nearest`).
-/

namespace Lrd.Privacy

open Foundation Rank

section Stage

variable {config : PrivacyConfig} {noisy : UInt64}

/-- Half of any rounding can be added to what `llround` returns. -/
theorem toNat_add_half (signed : noisy.toNat < 2 ^ 63) (rounding : UInt64) :
    (noisy + rounding / 2).toNat = noisy.toNat + rounding.toNat / 2 := by
  have bound := rounding.toNat_lt
  rw [UInt64.toNat_add, UInt64.toNat_div]
  change (noisy.toNat + rounding.toNat / 2) % 2 ^ 64 = _
  rw [Nat.mod_eq_of_lt]
  omega

/-- The rounding in 64 bits is the one of natural numbers. -/
theorem toNat_rounded (signed : noisy.toNat < 2 ^ 63) (rounding : UInt64) :
    ((noisy + rounding / 2) / rounding * rounding).toNat =
      roundToMultiple rounding.toNat noisy.toNat := by
  have bound := rounding.toNat_lt
  have small := roundToMultiple_le rounding.toNat noisy.toNat
  rw [UInt64.toNat_mul, UInt64.toNat_div, toNat_add_half signed]
  change roundToMultiple rounding.toNat noisy.toNat % 2 ^ 64 = _
  rw [Nat.mod_eq_of_lt]
  omega

/-- What rounding and suppression come to, without overflow. -/
theorem toNat_postProcess (signed : noisy.toNat < 2 ^ 63) (rounds : 1 ≤ config.rounding) :
    (postProcess config noisy).toNat =
      if roundToMultiple config.rounding.toNat noisy.toNat ≤ config.suppressionThreshold.toNat
      then 0 else roundToMultiple config.rounding.toNat noisy.toNat := by
  have given : config.rounding ≠ 0 := by
    intro zero
    rw [zero] at rounds
    exact absurd rounds (by decide)
  have rounded : (if config.rounding ≤ 1 then noisy
      else (noisy + config.rounding / 2) / config.rounding * config.rounding).toNat =
      roundToMultiple config.rounding.toNat noisy.toNat := by
    split
    · rename_i least
      rw [UInt64.le_antisymm least rounds]
      exact (roundToMultiple_one _).symm
    · exact toNat_rounded signed config.rounding
  unfold postProcess
  simp only [if_neg given]
  generalize (if config.rounding ≤ 1 then noisy
    else (noisy + config.rounding / 2) / config.rounding * config.rounding) = multiple at rounded ⊢
  rw [← rounded]
  by_cases suppressed : multiple ≤ config.suppressionThreshold
  · rw [if_pos suppressed, if_pos (UInt64.le_iff_toNat_le.mp suppressed)]
    rfl
  · rw [if_neg suppressed, if_neg fun le => suppressed (UInt64.le_iff_toNat_le.mpr le)]

/-- A larger value is published no lower. -/
theorem postProcess_mono {fewer : UInt64} (signed : noisy.toNat < 2 ^ 63) (le : fewer ≤ noisy)
    (rounds : 1 ≤ config.rounding) : postProcess config fewer ≤ postProcess config noisy := by
  rw [UInt64.le_iff_toNat_le] at le ⊢
  have grows := roundToMultiple_mono config.rounding.toNat le
  rw [toNat_postProcess (Nat.lt_of_le_of_lt le signed) rounds, toNat_postProcess signed rounds]
  split
  · exact Nat.zero_le _
  · rename_i shown
    rw [if_neg fun suppressed => shown (Nat.le_trans grows suppressed)]
    exact grows

/-- With privacy enabled what is published is the processed noisy value. -/
theorem publish_enabled (enabled : config.enabled = true) (noise : Noise) (metric : String)
    (exact : UInt64) (now : Timestamp) :
    publish config noise metric exact now = postProcess config (noise metric exact now) := by
  rw [publish, enabled]
  rfl

end Stage

/-- What is published of a noisy value that `llround` returned, for every rounding but zero
and every threshold. No operation wraps around. The value is zero or a multiple of the
rounding above the threshold: it is zero if the nearest multiple, ties going upward, is zero
or at most the threshold, and else it is this multiple. It does not fall when the noisy value
grows. -/
theorem publish_nearest {config : PrivacyConfig} (enabled : config.enabled = true)
    (rounds : 1 ≤ config.rounding) (noise : Noise) (metric : String) (exact : UInt64)
    (now : Timestamp) (signed : (noise metric exact now).toNat ≤ 2 ^ 63 - 1) :
    let noisy := noise metric exact now
    let rounding := config.rounding
    let published := publish config noise metric exact now
    (noisy + rounding / 2).toNat = noisy.toNat + rounding.toNat / 2 ∧
    ((noisy + rounding / 2) / rounding * rounding).toNat =
      (noisy.toNat + rounding.toNat / 2) / rounding.toNat * rounding.toNat ∧
    (published = 0 ∨
      rounding.toNat ∣ published.toNat ∧ config.suppressionThreshold < published) ∧
    (∃ nearest : Nat, NearestMultiple rounding.toNat noisy.toNat nearest ∧
      (∀ other, NearestMultiple rounding.toNat noisy.toNat other → other = nearest) ∧
      (published = 0 ↔ nearest = 0 ∨ nearest ≤ config.suppressionThreshold.toNat) ∧
      (published ≠ 0 → published.toNat = nearest)) ∧
    ∀ (other : Noise) (metric' : String) (exact' : UInt64) (now' : Timestamp),
      other metric' exact' now' ≤ noisy →
        publish config other metric' exact' now' ≤ published := by
  intro noisy rounding published
  have below : noisy.toNat < 2 ^ 63 := Nat.lt_of_le_of_lt signed (by decide)
  have stage : published = postProcess config noisy := publish_enabled enabled noise metric exact now
  have value := toNat_postProcess below rounds
  rw [← stage] at value
  have positive : 0 < rounding.toNat := UInt64.le_iff_toNat_le.mp rounds
  have near := nearest_roundToMultiple positive noisy.toNat
  have divides := dvd_roundToMultiple rounding.toNat noisy.toNat
  change published.toNat = if roundToMultiple rounding.toNat noisy.toNat ≤ _ then 0 else
    roundToMultiple rounding.toNat noisy.toNat at value
  generalize roundToMultiple rounding.toNat noisy.toNat = nearest at value near divides
  have isZero : published = 0 ↔ published.toNat = 0 := UInt64.toNat_inj.symm
  refine ⟨toNat_add_half below rounding, toNat_rounded below rounding, ?_,
    ⟨nearest, near, fun other isNearest => isNearest.unique near, ?_, ?_⟩, ?_⟩
  · split at value
    · exact Or.inl (isZero.mpr value)
    · rename_i shown
      rw [UInt64.lt_iff_toNat_lt, value]
      exact Or.inr ⟨divides, Nat.lt_of_not_le shown⟩
  · rw [isZero, value]
    split
    · rename_i suppressed
      exact iff_of_true rfl (Or.inr suppressed)
    · rename_i shown
      simp [shown]
  · intro shown
    rw [Ne, isZero, value] at shown
    rw [value]
    split at shown
    · exact absurd rfl shown
    · rename_i above
      exact if_neg above
  · intro other metric' exact' now' le
    rw [stage, publish_enabled enabled]
    exact postProcess_mono below le rounds

/-- A counter of 24, noised to 25, is published as 30: the tie between 20 and 30 goes upward. -/
theorem publish_nearest_tie :
    publish { enabled := true } (fun _ exact _ => exact + 1) "gets" 24 ⟨0⟩ = 30 ∧
      NearestMultiple 10 25 30 := by
  obtain ⟨_, _, _, ⟨nearest, near, _, _, shown⟩, _⟩ :=
    @publish_nearest { enabled := true } rfl (by decide) (fun _ exact _ => exact + 1) "gets" 24 ⟨0⟩
      (by decide)
  have published : publish { enabled := true } (fun _ exact _ => exact + 1) "gets" 24 ⟨0⟩ = 30 := rfl
  rw [published] at shown
  obtain rfl : 30 = nearest := shown (by decide)
  exact ⟨published, near⟩

end Lrd.Privacy
