import Lrd.Cache.ShardedCache
import Lrd.Common.HashMix
import Lrd.Foundation.Scalar
import Lrd.Policy.ExposureStore
import Lrd.Privacy.NoisyCounters

/-!
# The noise of a counter

`noise_for` (`privacy/noise.cpp`) seeds a generator from the metric and the epoch, so that
asking again within an epoch draws the same noise (`publish_epoch`). What the generator and the
logarithm make of a seed is a parameter of the model.

The seed is mixed by `hash_mix`, which also chooses the shards of the cache and of the exposure
store. It permutes the words, so no two epochs of a metric share a seed and no shard is preferred
(`hash_mix_permutes`).
-/

namespace Lrd.Privacy

open Foundation Common Rank Cache Policy

/-- The fields of `PrivacyConfig` that the noise depends on. The epoch is in milliseconds. -/
structure NoiseConfig (D : Type) [Scalar D] where
  epsilon : D := Scalar.ofNat 1
  sensitivity : D := Scalar.ofNat 1
  epoch : Int64 := 3600000
  seed : UInt64 := 0

/-- FNV-1a. -/
def fnv1a (text : Bytes) : UInt64 :=
  text.foldl (fun hash c => (hash ^^^ c.toUInt64) * 0x100000001B3) 0xCBF29CE484222325

variable {now later : Timestamp}

namespace NoiseConfig

variable {D : Type} [Scalar D]

/-- The seed of the constructor, given two draws from the system's source of randomness. -/
def pickSeed (seed : UInt64) (device : UInt32 × UInt32) : UInt64 :=
  if seed = 0 then
    let drawn := (device.1.toUInt64 <<< 32) ^^^ device.2.toUInt64
    if drawn = 0 then 0x9E3779B97F4A7C15 else drawn
  else seed

/-- The constructor, as far as the noise is concerned. -/
def create (enabled : Bool) (config : NoiseConfig D) (device : UInt32 × UInt32) :
    Except String (NoiseConfig D) :=
  if enabled && Scalar.le config.epsilon (Scalar.ofNat 0) then
    .error "privacy epsilon must be positive"
  else if enabled && Scalar.le config.sensitivity (Scalar.ofNat 0) then
    .error "privacy sensitivity must be positive"
  else if enabled && config.epoch ≤ 0 then
    .error "privacy epoch must be positive"
  else .ok { config with seed := pickSeed config.seed device }

variable (config : NoiseConfig D)

/-- The scale of the noise. -/
def scale : D := config.sensitivity / config.epsilon

/-- The epoch of an instant. -/
def epochIndex (now : Timestamp) : UInt64 :=
  let epochMs := config.epoch.toUInt64
  if epochMs = 0 then 0 else (max (toEpochMillis now) 0).toUInt64 / epochMs

/-- The state that the generator is seeded with. -/
def generatorState (metric : Bytes) (now : Timestamp) : UInt64 :=
  let state := hashMix (config.seed ^^^ fnv1a metric)
  hashMix (state ^^^ config.epochIndex now)

/-- The draw from the distribution, given what a seed and a scale make of it. -/
def noiseFor (laplaceSample : UInt64 → D → D) (metric : Bytes) (now : Timestamp) : D :=
  laplaceSample (config.generatorState metric now) config.scale

/-- The noisy value of a metric, clamped and rounded. -/
def noise (laplaceSample : UInt64 → D → D) (llround : D → UInt64) : Noise :=
  fun metric exact now =>
    let noised := Scalar.ofNat exact.toNat + config.noiseFor laplaceSample (text metric) now
    llround (if Scalar.lt (Scalar.ofNat 0) noised then noised else Scalar.ofNat 0)

/-! ## The constructor -/

omit [Scalar D] in
/-- The seed that is picked is not zero. -/
theorem pickSeed_ne_zero (seed : UInt64) (device : UInt32 × UInt32) : pickSeed seed device ≠ 0 := by
  unfold pickSeed
  split
  · simp only
    split
    · decide
    · assumption
  · assumption

/-- A configuration that is accepted has a seed, and if noise is enabled its epoch is positive. -/
theorem create_ok {config created : NoiseConfig D} {enabled : Bool} {device : UInt32 × UInt32}
    (accepted : create enabled config device = .ok created) :
    created.seed ≠ 0 ∧ (enabled = true → 0 < created.epoch) := by
  unfold create at accepted
  split at accepted
  · cases accepted
  split at accepted
  · cases accepted
  split at accepted
  · cases accepted
  rename_i positive
  cases accepted
  refine ⟨pickSeed_ne_zero _ _, ?_⟩
  rintro rfl
  simpa using positive

/-! ## Seeds of the generator -/

/-- The state tells the metric's hash and the epoch apart. -/
theorem generatorState_inj {metric other : Bytes} :
    config.generatorState metric now = config.generatorState other later ↔
      hashMix (config.seed ^^^ fnv1a metric) ^^^ config.epochIndex now =
        hashMix (config.seed ^^^ fnv1a other) ^^^ config.epochIndex later :=
  hashMix_injective.eq_iff

/-- Within an epoch a counter has one generator. -/
theorem generatorState_epoch {metric : Bytes} :
    config.generatorState metric now = config.generatorState metric later ↔
      config.epochIndex now = config.epochIndex later := by
  rw [generatorState_inj, UInt64.xor_right_inj]

/-- Within an epoch two counters share a generator exactly if their names hash alike. -/
theorem generatorState_metric {metric other : Bytes}
    (same : config.epochIndex now = config.epochIndex later) :
    config.generatorState metric now = config.generatorState other later ↔
      fnv1a metric = fnv1a other := by
  rw [generatorState_inj, same, UInt64.xor_left_inj, hashMix_injective.eq_iff,
    UInt64.xor_right_inj]

/-- Within an epoch a value is published the same way, whenever it is asked for. -/
theorem publish_epoch (privacy : PrivacyConfig) (laplaceSample : UInt64 → D → D)
    (llround : D → UInt64) (metric : String) (exact : UInt64)
    (same : config.epochIndex now = config.epochIndex later) :
    publish privacy (config.noise laplaceSample llround) metric exact now =
      publish privacy (config.noise laplaceSample llround) metric exact later := by
  have drawn : config.noiseFor laplaceSample (text metric) now =
      config.noiseFor laplaceSample (text metric) later := by
    rw [noiseFor, config.generatorState_epoch.mpr same, noiseFor]
  unfold publish noise
  rw [drawn]

end NoiseConfig

/-! ## One permutation for shards and seeds -/

/-- Mixing permutes the words. So every shard of a cache or of an exposure store, whatever power of
two their number is, receives the same number of ids. And for every seed, the states of a metric
in two epochs differ, and two metrics share their state in an epoch only if their hashes agree. -/
theorem hash_mix_permutes {D : Type} [Scalar D] :
    Function.Bijective hashMix ∧
    (∀ k < 64, ∃ shards : ShardCount, shards.size = 2 ^ k) ∧
    (∀ settings : CacheSettings, ∃ k < 64, settings.shardCount.size = 2 ^ k ∧
      ∀ shard, Nat.card { id : ItemId // ShardedCache.shardIndex (fun id => id) settings id = shard } =
        2 ^ (64 - k)) ∧
    (∀ settings : Settings, ∃ k < 64, settings.shardCount.size = 2 ^ k ∧
      ∀ shard, Nat.card { id : ItemId // ExposureStore.shardIndex settings id = shard } =
        2 ^ (64 - k)) ∧
    (∀ (config : NoiseConfig D) metric now later,
      config.epochIndex now ≠ config.epochIndex later →
        config.generatorState metric now ≠ config.generatorState metric later) ∧
    (∀ (config : NoiseConfig D) metric other now later,
      config.epochIndex now = config.epochIndex later →
        (config.generatorState metric now = config.generatorState other later ↔
          fnv1a metric = fnv1a other)) := by
  have even : ∀ shards : ShardCount, ∃ k < 64, shards.size = 2 ^ k ∧
      ∀ shard, Nat.card { id : ItemId // shards.indexOf id = shard } = 2 ^ (64 - k) := by
    intro shards
    obtain ⟨k, below, power⟩ := shards.size_eq_two_pow
    exact ⟨k, below, power, shards.card_indexOf below.le power⟩
  refine ⟨hashMix_bijective, ?_, fun settings => even settings.shardCount,
    fun settings => even settings.shardCount, ?_, ?_⟩
  · intro k below
    exact ShardCount.exists_size_eq below
  · intro config metric now later different
    rw [Ne, config.generatorState_epoch]
    exact different
  · intro config metric other now later same
    exact config.generatorState_metric same

end Lrd.Privacy
