import Mathlib.Algebra.Order.BigOperators.Group.List
import Mathlib.Algebra.Order.Ring.Nat

/-!
# Sharding

The item cache and the exposure store spread ids over a power-of-two number of
shards: a mixed hash, masked (`common/hash_mix.hpp`).
-/

namespace Lrd.Common

/-- The finaliser of splitmix64. -/
def hashMix (hash : UInt64) : UInt64 :=
  let value := hash
  let value := value ^^^ (value >>> 30)
  let value := value * 0xBF58476D1CE4E5B9
  let value := value ^^^ (value >>> 27)
  let value := value * 0x94D049BB133111EB
  let value := value ^^^ (value >>> 31)
  value

/-- The source's test for a power of two. -/
def hasSingleBit (n : UInt64) : Bool := n != 0 && (n &&& (n - 1)) == 0

/-- A shard count that the constructors accept. -/
structure ShardCount where
  count : UInt64
  singleBit : hasSingleBit count = true

namespace ShardCount

/-- How many shards there are. -/
def size (shards : ShardCount) : Nat := shards.count.toNat

/-- The bits of a hash that pick a shard. -/
def mask (shards : ShardCount) : UInt64 := shards.count - 1

/-- There is a shard. -/
theorem size_pos (shards : ShardCount) : 0 < shards.size := by
  have single := shards.singleBit
  rw [hasSingleBit, Bool.and_eq_true, bne_iff_ne] at single
  apply Nat.pos_of_ne_zero
  intro zero
  exact single.1 (UInt64.toNat.inj zero)

/-- The masked hash is the index of a shard. -/
theorem masked_lt (shards : ShardCount) (hash : UInt64) :
    (hashMix hash &&& shards.mask).toNat < shards.size := by
  have positive := shards.size_pos
  have masked : (hashMix hash &&& shards.mask).toNat ≤ shards.mask.toNat := by
    rw [UInt64.toNat_and]
    exact Nat.and_le_right
  have pred : shards.mask.toNat = shards.size - 1 := by
    rw [mask, UInt64.toNat_sub_of_le]
    · rfl
    · rw [UInt64.le_iff_toNat_le]
      exact positive
  omega

/-- The shard a hash belongs to. -/
def indexOf (shards : ShardCount) (hash : UInt64) : Fin shards.size :=
  ⟨(hashMix hash &&& shards.mask).toNat, shards.masked_lt hash⟩

/-- A single shard. -/
def one : ShardCount := ⟨1, by decide⟩

/-- Shards that keep to their shares keep together to the whole. -/
theorem sum_le (shards : ShardCount) {whole : UInt64} {part : Fin shards.size → Nat}
    (each : ∀ index, part index ≤ (whole / shards.count).toNat) :
    ((List.finRange shards.size).map part).sum ≤ whole.toNat := by
  have bounded : ∀ size ∈ (List.finRange shards.size).map part,
      size ≤ (whole / shards.count).toNat := by
    intro size member
    obtain ⟨index, _, rfl⟩ := List.mem_map.mp member
    exact each index
  have total := List.sum_le_card_nsmul _ _ bounded
  rw [List.length_map, List.length_finRange, nsmul_eq_mul, Nat.cast_id, UInt64.toNat_div] at total
  exact total.trans (Nat.mul_div_le ..)

/-- The constructors' check of a shard count. -/
def create (count : UInt64) (message : String) : Except String ShardCount :=
  if accepted : hasSingleBit count = true then .ok ⟨count, accepted⟩ else .error message

end ShardCount

end Lrd.Common
