import Lrd.Cache.LruCache
import Lrd.Common.Sharding
import Mathlib.Algebra.Ring.Nat

/-!
# The sharded cache

A power-of-two number of LRU caches, each key in the shard its mixed hash selects
(`cache/sharded_cache.hpp`). The structure carries that no key is held outside its
own shard, so a scan of all shards meets every key at most once
(`ShardedCache.nodup_keys`).
-/

namespace Lrd.Cache

open Foundation Common

/-- What the constructor fixes. -/
structure CacheSettings where
  capacity : UInt64
  shardCount : ShardCount
  enough : shardCount.count ≤ capacity

namespace CacheSettings

/-- The checks of the constructor. -/
def create (capacity shardCount : UInt64) : Except String CacheSettings := do
  let shards ← ShardCount.create shardCount "ShardedCache shard count must be a power of two"
  if enough : shards.count ≤ capacity then .ok ⟨capacity, shards, enough⟩
  else .error "ShardedCache capacity must be at least the shard count"

/-- The capacity of one shard. -/
def perShard (settings : CacheSettings) : Capacity where
  value := (settings.capacity / settings.shardCount.count).toNat
  positive := by
    rw [UInt64.toNat_div]
    exact Nat.div_pos (UInt64.le_iff_toNat_le.mp settings.enough) settings.shardCount.size_pos

end CacheSettings

/-- `ShardedCache`: the shards, each with keys of its own. -/
structure ShardedCache (K V : Type) [DecidableEq K] (hash : K → UInt64)
    (settings : CacheSettings) where
  shards : Fin settings.shardCount.size → LruCache K V settings.perShard
  placed : ∀ index, ∀ entry ∈ (shards index).toList,
    settings.shardCount.indexOf (hash entry.1) = index

namespace ShardedCache

variable {K V : Type} [DecidableEq K] {hash : K → UInt64} {settings : CacheSettings}

/-- A cache whose shards are empty. -/
def create (K V : Type) [DecidableEq K] (hash : K → UInt64) (settings : CacheSettings) :
    ShardedCache K V hash settings :=
  ⟨fun _ => LruCache.create K V settings.perShard,
    fun _ _ member => absurd member List.not_mem_nil⟩

/-- The shard of a key. -/
def shardIndex (hash : K → UInt64) (settings : CacheSettings) (key : K) :
    Fin settings.shardCount.size :=
  settings.shardCount.indexOf (hash key)

/-- The shard of a key, in a cache. -/
def shardFor (cache : ShardedCache K V hash settings) (key : K) : LruCache K V settings.perShard :=
  cache.shards (shardIndex hash settings key)

/-- Replace the shard of a key by one that holds only that key and what it held
before. -/
def setShard (cache : ShardedCache K V hash settings) (key : K)
    (shard : LruCache K V settings.perShard)
    (within : ∀ entry ∈ shard.toList, entry.1 = key ∨ entry ∈ (cache.shardFor key).toList) :
    ShardedCache K V hash settings where
  shards := Function.update cache.shards (shardIndex hash settings key) shard
  placed := by
    intro index entry member
    by_cases here : index = shardIndex hash settings key
    · subst here
      rw [Function.update_self] at member
      rcases within entry member with same | earlier
      · rw [same]
        rfl
      · exact cache.placed _ entry earlier
    · rw [Function.update_of_ne here] at member
      exact cache.placed index entry member

/-- `get` on the shard of the key. -/
def get (cache : ShardedCache K V hash settings) (key : K) :
    Option V × ShardedCache K V hash settings :=
  (((cache.shardFor key).get key).1,
    cache.setShard key ((cache.shardFor key).get key).2 fun _ member =>
      Or.inr (LruCache.mem_toList_get.mp member))

/-- `peek` on the shard of the key. -/
def peek (cache : ShardedCache K V hash settings) (key : K) : Option V :=
  (cache.shardFor key).peek key

/-- `put` on the shard of the key. -/
def put (cache : ShardedCache K V hash settings) (key : K) (value : V) :
    ShardedCache K V hash settings :=
  cache.setShard key ((cache.shardFor key).put key value) fun _ member =>
    (LruCache.mem_toList_put member).imp (fun same => by rw [same]) id

/-- `erase` on the shard of the key. -/
def erase (cache : ShardedCache K V hash settings) (key : K) :
    Bool × ShardedCache K V hash settings :=
  (((cache.shardFor key).erase key).1,
    cache.setShard key ((cache.shardFor key).erase key).2 fun _ member =>
      Or.inr (LruCache.mem_toList_erase member))

/-- `clear` on every shard. -/
def clear (cache : ShardedCache K V hash settings) : ShardedCache K V hash settings :=
  ⟨fun index => (cache.shards index).clear, fun _ _ member => absurd member List.not_mem_nil⟩

/-- The entries of one shard, as a scan copies them out. -/
def snapshotShard (cache : ShardedCache K V hash settings)
    (index : Fin settings.shardCount.size) : List (K × V) :=
  (cache.shards index).toList

/-- Everything the cache holds, shard by shard. -/
def held (cache : ShardedCache K V hash settings) : List (K × V) :=
  (List.finRange settings.shardCount.size).flatMap cache.snapshotShard

/-- How many entries there are in all shards. -/
def size (cache : ShardedCache K V hash settings) : Nat :=
  ((List.finRange settings.shardCount.size).map fun index => (cache.shards index).size).sum

/-- A scan of all shards meets every key at most once. -/
theorem nodup_keys (cache : ShardedCache K V hash settings) :
    (cache.held.map Prod.fst).Nodup := by
  rw [held, List.map_flatMap, List.nodup_flatMap]
  refine ⟨fun index _ => (cache.shards index).nodup_keys, ?_⟩
  refine (List.nodup_finRange _).imp_of_mem fun {first second} _ _ different => ?_
  intro key inFirst inSecond
  obtain ⟨left, leftMember, rfl⟩ := List.mem_map.mp inFirst
  obtain ⟨right, rightMember, same⟩ := List.mem_map.mp inSecond
  have leftPlace := cache.placed first left leftMember
  have rightPlace := cache.placed second right rightMember
  rw [same] at rightPlace
  exact different (leftPlace.symm.trans rightPlace)

end ShardedCache

end Lrd.Cache
