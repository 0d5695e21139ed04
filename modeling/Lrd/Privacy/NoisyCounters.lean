import Lrd.Rank.Item

/-!
# Published counters

The post-processing of a noised counter (`privacy/noise.cpp`): rounding to a
multiple and suppression of small values. What `llround` yields for a metric, an
exact value and an instant is a parameter of the model.
-/

namespace Lrd.Privacy

open Rank

/-- How counters are published. -/
structure PrivacyConfig where
  enabled : Bool := false
  suppressionThreshold : UInt64 := 5
  rounding : UInt64 := 10
deriving DecidableEq, Repr

/-- The rounded noisy value of a metric, non-negative by the clamp before it. -/
abbrev Noise : Type := String → UInt64 → Timestamp → UInt64

/-- The integer stage of `publish`. The constructor reads a rounding of zero as
one. -/
def postProcess (config : PrivacyConfig) (roundedValue : UInt64) : UInt64 :=
  let rounding := if config.rounding = 0 then 1 else config.rounding
  let rounded :=
    if rounding ≤ 1 then roundedValue
    else ((roundedValue + rounding / 2) / rounding) * rounding
  if rounded ≤ config.suppressionThreshold then 0 else rounded

/-- `publish`: the exact value, or a noisy one after rounding and suppression. -/
def publish (config : PrivacyConfig) (noise : Noise) (metric : String) (exact : UInt64)
    (now : Timestamp) : UInt64 :=
  if !config.enabled then exact else postProcess config (noise metric exact now)

end Lrd.Privacy
