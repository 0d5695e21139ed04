import Lrd.Common.Sharding
import Lrd.Foundation.Words
import Mathlib.Data.UInt

/-!
# The mixing of hashes

`hash_mix` (`common/hash_mix.hpp`) combines a word with its own high bits and multiplies it with
odd constants, in turns. Each stage can be undone, so it permutes the words of 64 bits
(`hashMix_bijective`), and a mask of the mixed word spreads all words evenly over the shards
(`ShardCount.card_indexOf`).
-/

namespace Lrd.Common

open Foundation

/-! ## Stages -/

/-- A word is determined by itself xor a shift of itself. -/
theorem xorShift_word_injective {shift : UInt64} (positive : 0 < shift.toNat % 64) :
    Function.Injective fun word : UInt64 => word ^^^ (word >>> shift) := by
  intro first second same
  have shifted : ∀ word : UInt64, (word ^^^ (word >>> shift)).toBitVec =
      word.toBitVec ^^^ (word.toBitVec >>> (shift.toNat % 64)) := by
    intro word
    apply BitVec.eq_of_toNat_eq
    rw [UInt64.toNat_toBitVec, UInt64.toNat_xor, UInt64.toNat_shiftRight, BitVec.toNat_xor,
      BitVec.toNat_ushiftRight]
    rfl
  apply UInt64.toBitVec_inj.mp
  apply xorShift_injective positive
  simp only [← shifted]
  exact congrArg UInt64.toBitVec same

theorem mul_word_injective {factor inverse : UInt64} (unit : factor * inverse = 1) :
    Function.Injective fun word : UInt64 => word * factor :=
  (IsUnit.of_mul_eq_one inverse unit).mul_left_injective

/-- Different words are mixed to different words. -/
theorem hashMix_injective : Function.Injective hashMix := by
  have first : Function.Injective fun word : UInt64 => word ^^^ (word >>> 30) :=
    xorShift_word_injective (by decide)
  have second : Function.Injective fun word : UInt64 => word * 0xBF58476D1CE4E5B9 :=
    @mul_word_injective _ 0x96DE1B173F119089 (by decide)
  have third : Function.Injective fun word : UInt64 => word ^^^ (word >>> 27) :=
    xorShift_word_injective (by decide)
  have fourth : Function.Injective fun word : UInt64 => word * 0x94D049BB133111EB :=
    @mul_word_injective _ 0x319642B2D24D8EC3 (by decide)
  have fifth : Function.Injective fun word : UInt64 => word ^^^ (word >>> 31) :=
    xorShift_word_injective (by decide)
  exact fifth.comp (fourth.comp (third.comp (second.comp first)))

theorem hashMix_bijective : Function.Bijective hashMix := by
  have finite : Finite UInt64 := Finite.of_injective UInt64.toFin fun _ _ => UInt64.toFin_inj.mp
  exact Finite.injective_iff_bijective.mp hashMix_injective

/-! ## Shards -/

/-- A number with a single bit is a power of two. -/
theorem hasSingleBit_iff (n : UInt64) : hasSingleBit n = true ↔ n.toNat.isPowerOfTwo := by
  rw [hasSingleBit, Bool.and_eq_true, bne_iff_ne, beq_iff_eq]
  by_cases zero : n = 0
  · subst zero
    refine iff_of_false (fun single => single.1 rfl) ?_
    rintro ⟨k, power⟩
    exact absurd power (Nat.two_pow_pos k).ne
  · have nonzero : n.toNat ≠ 0 := fun same => zero (UInt64.toNat.inj same)
    have one : (1 : UInt64) ≤ n := UInt64.le_iff_toNat_le.mpr (Nat.pos_of_ne_zero nonzero)
    rw [← Nat.and_sub_one_eq_zero_iff_isPowerOfTwo nonzero, ← UInt64.toNat_inj, UInt64.toNat_and,
      UInt64.toNat_sub_of_le _ _ one]
    exact and_iff_right zero

namespace ShardCount

/-- An accepted number of shards is a power of two. -/
theorem size_eq_two_pow (shards : ShardCount) : ∃ k < 64, shards.size = 2 ^ k := by
  obtain ⟨k, power⟩ := (hasSingleBit_iff shards.count).mp shards.singleBit
  refine ⟨k, ?_, power⟩
  have bound : 2 ^ k < 2 ^ 64 := by
    rw [← power]
    exact shards.count.toNat_lt
  exact (Nat.pow_lt_pow_iff_right (by decide)).mp bound

/-- Every power of two that a word can hold is accepted. -/
theorem exists_size_eq {k : Nat} (below : k < 64) : ∃ shards : ShardCount, shards.size = 2 ^ k := by
  have count : (UInt64.ofNat (2 ^ k)).toNat = 2 ^ k :=
    UInt64.toNat_ofNat_of_lt' (Nat.pow_lt_pow_right (by decide) below)
  exact ⟨⟨UInt64.ofNat (2 ^ k), (hasSingleBit_iff _).mpr ⟨k, count⟩⟩, count⟩

/-- The index of a shard is what the mixed hash leaves modulo their number. -/
theorem indexOf_val {shards : ShardCount} {k : Nat} (power : shards.size = 2 ^ k) (hash : UInt64) :
    (shards.indexOf hash).val = (hashMix hash).toNat % 2 ^ k := by
  have one : (1 : UInt64) ≤ shards.count := UInt64.le_iff_toNat_le.mpr shards.size_pos
  have mask : shards.mask.toNat = 2 ^ k - 1 := by
    rw [mask, UInt64.toNat_sub_of_le _ _ one]
    change shards.size - 1 = _
    rw [power]
  change (hashMix hash &&& shards.mask).toNat = _
  rw [UInt64.toNat_and, mask, Nat.and_two_pow_sub_one_eq_mod]

/-- Every shard receives the same number of words. -/
theorem card_indexOf {shards : ShardCount} {k : Nat} (within : k ≤ 64)
    (power : shards.size = 2 ^ k) (shard : Fin shards.size) :
    Nat.card { hash : UInt64 // shards.indexOf hash = shard } = 2 ^ (64 - k) := by
  let mixed : UInt64 ≃ BitVec 64 :=
    (Equiv.ofBijective hashMix hashMix_bijective).trans
      ⟨UInt64.toBitVec, UInt64.ofBitVec, fun _ => rfl, fun _ => rfl⟩
  have same : ∀ hash, shards.indexOf hash = shard ↔ (mixed hash).toNat % 2 ^ k = shard.val := by
    intro hash
    rw [← Fin.val_inj, indexOf_val power]
    rfl
  have below : shard.val < 2 ^ k := by
    rw [← power]
    exact shard.isLt
  have restricted : { hash : UInt64 // shards.indexOf hash = shard } ≃
      { word : BitVec 64 // word.toNat % 2 ^ k = shard.val } := mixed.subtypeEquiv same
  rw [Nat.card_congr restricted, card_lowBits within below]

end ShardCount

end Lrd.Common
