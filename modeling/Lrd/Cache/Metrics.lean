import Lrd.Cache.ShardProduct
import Mathlib.Algebra.BigOperators.Fin

/-!
# What the metrics add up to

The metrics of a sharded cache are sums over its shards, and an operation changes one
summand (`ShardedCache.sum_update`). A lookup counts a hit or a miss, whichever it is
answered by, and the insertions that neither an eviction nor the present size accounts for
are the erased entries.
-/

namespace Lrd.Cache

open Foundation Common

/-! ## One shard -/

namespace LruCache

variable {K V : Type} [DecidableEq K] {capacity : Capacity} (cache : LruCache K V capacity)

/-- A lookup counts what it is answered by. -/
theorem metrics_get (key : K) :
    (cache.get key).2.metrics =
      if (cache.get key).1.isSome then
        { cache.metrics with hits := cache.metrics.hits + 1 }
      else { cache.metrics with misses := cache.metrics.misses + 1 } := by
  rw [cache.get_fst key]
  cases found : cache.index.lookup key with
  | none =>
      rw [cache.lookup_of_unfound found]
      simp only [get, found, Option.isSome_none, Bool.false_eq_true, ↓reduceIte]
  | some handle =>
      obtain ⟨value, _, held⟩ := cache.node_of_found found
      rw [held]
      simp only [get, found, Option.isSome_some, ↓reduceIte]

/-- A lookup that finds something is a hit. -/
theorem hits_get (key : K) :
    (cache.get key).2.metrics.hits =
      cache.metrics.hits + UInt64.ofNat (cache.get key).1.isSome.toNat := by
  rw [metrics_get]
  cases (cache.get key).1.isSome with
  | true => rfl
  | false => exact (UInt64.add_zero _).symm

/-- A lookup that finds nothing is a miss. -/
theorem misses_get (key : K) :
    (cache.get key).2.metrics.misses =
      cache.metrics.misses + UInt64.ofNat (cache.get key).1.isNone.toNat := by
  rw [metrics_get, ← Option.not_isSome]
  cases (cache.get key).1.isSome with
  | true => exact (UInt64.add_zero _).symm
  | false => rfl

/-- Making room is no lookup. -/
theorem lookups_makeRoom :
    cache.makeRoom.metrics.hits = cache.metrics.hits ∧
      cache.makeRoom.metrics.misses = cache.metrics.misses := by
  unfold makeRoom
  split
  · unfold evictLru
    split
    · exact ⟨rfl, rfl⟩
    · exact ⟨rfl, rfl⟩
  · exact ⟨rfl, rfl⟩

/-- Storing is no lookup. -/
theorem lookups_put (key : K) (value : V) :
    (cache.put key value).metrics.hits = cache.metrics.hits ∧
      (cache.put key value).metrics.misses = cache.metrics.misses := by
  unfold put
  split
  · exact ⟨rfl, rfl⟩
  · exact cache.lookups_makeRoom

/-- A put evicts at most one entry. -/
theorem evictions_put (key : K) (value : V) :
    (cache.put key value).metrics.evictions = cache.metrics.evictions ∨
      (cache.put key value).metrics.evictions = cache.metrics.evictions + 1 := by
  unfold put
  split
  · exact Or.inl rfl
  · change cache.makeRoom.metrics.evictions = _ ∨ cache.makeRoom.metrics.evictions = _
    unfold makeRoom
    split
    · unfold evictLru
      split
      · exact Or.inl rfl
      · exact Or.inr rfl
    · exact Or.inl rfl

/-- Erasing is not counted. -/
theorem metrics_erase (key : K) : (cache.erase key).2.metrics = cache.metrics := by
  unfold erase
  split
  · rfl
  · rfl

end LruCache

/-! ## All shards -/

/-- A sum in 64 bits is the sum, cut to 64 bits. -/
theorem ofNat_sum {ι : Type} (indices : List ι) (part : ι → Nat) :
    (indices.map fun index => UInt64.ofNat (part index)).sum =
      UInt64.ofNat (indices.map part).sum := by
  induction indices with
  | nil => rfl
  | cons index indices ih =>
      rw [List.map_cons, List.sum_cons, ih, List.map_cons, List.sum_cons, UInt64.ofNat_add]

/-- A sum over all parts changes by what one summand changes. -/
theorem sum_apply_update {β : Type} {count : Nat} (part : β → UInt64) (parts : Fin count → β)
    (index : Fin count) (next : β) {more : UInt64} (moved : part next = part (parts index) + more) :
    ∑ other, part (Function.update parts index next other) =
      ∑ other, part (parts other) + more := by
  have summands : (fun other => part (Function.update parts index next other)) =
      Function.update (fun other => part (parts other)) index (part next) :=
    funext fun other => Function.apply_update (fun _ => part) parts index next other
  have member := Finset.mem_univ index
  rw [summands, Finset.sum_update_of_mem member,
    ← Finset.add_sum_erase _ (fun other => part (parts other)) member,
    Finset.sdiff_singleton_eq_erase, moved]
  exact add_right_comm ..

namespace ShardedCache

variable {K V : Type} [DecidableEq K] {hash : K → UInt64} {settings : CacheSettings}
  (cache : ShardedCache K V hash settings)

/-- A number of every shard, added up. -/
def sum (part : LruCache K V settings.perShard → UInt64) : UInt64 :=
  ((List.finRange settings.shardCount.size).map fun index => part (cache.shards index)).sum

theorem sum_eq (part : LruCache K V settings.perShard → UInt64) :
    cache.sum part = ∑ index, part (cache.shards index) :=
  (Fin.sum_univ_def _).symm

/-- Replacing a shard changes the sum by what it changes its summand. -/
theorem sum_update {cache after : ShardedCache K V hash settings} {key : K}
    {shard : LruCache K V settings.perShard}
    (shards : after.shards = Function.update cache.shards (shardIndex hash settings key) shard)
    {part : LruCache K V settings.perShard → UInt64} {more : UInt64}
    (moved : part shard = part (cache.shardFor key) + more) :
    after.sum part = cache.sum part + more := by
  rw [sum_eq, sum_eq, shards]
  exact sum_apply_update part cache.shards _ shard moved

/-- A part that one shard keeps is kept in the sum. -/
theorem sum_update_same {cache after : ShardedCache K V hash settings} {key : K}
    {shard : LruCache K V settings.perShard}
    (shards : after.shards = Function.update cache.shards (shardIndex hash settings key) shard)
    {part : LruCache K V settings.perShard → UInt64}
    (same : part shard = part (cache.shardFor key)) : after.sum part = cache.sum part :=
  (sum_update shards (same.trans (UInt64.add_zero _).symm)).trans (UInt64.add_zero _)

/-- The counters of the cache are the sums of those of its shards. -/
theorem metrics_sum :
    cache.metrics.hits = cache.sum (fun shard => shard.metrics.hits) ∧
      cache.metrics.misses = cache.sum (fun shard => shard.metrics.misses) := by
  rw [metrics_eq]
  simp only [CacheMetrics.total, List.map_map]
  exact ⟨rfl, rfl⟩

/-- The insertions that neither an eviction nor the present size accounts for. -/
def outstanding : UInt64 :=
  cache.metrics.insertions - cache.metrics.evictions - UInt64.ofNat cache.size

/-- The balance of the cache is the sum of those of its shards. -/
theorem outstanding_sum : cache.outstanding = cache.sum LruCache.outstanding := by
  have sizes : UInt64.ofNat cache.size = ∑ index, UInt64.ofNat (cache.shards index).size := by
    rw [size, Fin.sum_univ_def, ofNat_sum]
  have insertions : cache.metrics.insertions =
      ∑ index, (cache.shards index).metrics.insertions := by
    rw [metrics_eq, Fin.sum_univ_def]
    simp only [CacheMetrics.total, List.map_map]
    rfl
  have evictions : cache.metrics.evictions = ∑ index, (cache.shards index).metrics.evictions := by
    rw [metrics_eq, Fin.sum_univ_def]
    simp only [CacheMetrics.total, List.map_map]
    rfl
  rw [outstanding, sizes, insertions, evictions, sum_eq, ← Finset.sum_sub_distrib,
    ← Finset.sum_sub_distrib]
  rfl

/-- A new cache has counted nothing. -/
theorem lookups_create (K V : Type) [DecidableEq K] (hash : K → UInt64) (settings : CacheSettings) :
    (create K V hash settings).metrics.hits = 0 ∧ (create K V hash settings).metrics.misses = 0 ∧
      (create K V hash settings).outstanding = 0 := by
  simp only [metrics_sum, outstanding_sum, sum_eq]
  refine ⟨?_, ?_, ?_⟩
  · exact Finset.sum_eq_zero fun _ _ => rfl
  · exact Finset.sum_eq_zero fun _ _ => rfl
  · refine Finset.sum_eq_zero fun _ _ => ?_
    simp [LruCache.outstanding, create, LruCache.create, LruCache.size]

/-- A lookup counts a hit or a miss. -/
theorem lookups_get (key : K) :
    (cache.get key).2.metrics.hits =
        cache.metrics.hits + UInt64.ofNat (cache.get key).1.isSome.toNat ∧
      (cache.get key).2.metrics.misses =
        cache.metrics.misses + UInt64.ofNat (cache.get key).1.isNone.toNat ∧
      (cache.get key).2.outstanding = cache.outstanding := by
  simp only [metrics_sum, outstanding_sum]
  exact ⟨sum_update rfl (LruCache.hits_get ..), sum_update rfl (LruCache.misses_get ..),
    sum_update_same rfl (LruCache.outstanding_get ..)⟩

/-- A put is no lookup and erases nothing. -/
theorem lookups_put (key : K) (value : V) :
    (cache.put key value).metrics.hits = cache.metrics.hits ∧
      (cache.put key value).metrics.misses = cache.metrics.misses ∧
      (cache.put key value).outstanding = cache.outstanding := by
  obtain ⟨hits, misses⟩ := (cache.shardFor key).lookups_put key value
  simp only [metrics_sum, outstanding_sum]
  exact ⟨sum_update_same rfl hits, sum_update_same rfl misses,
    sum_update_same rfl (LruCache.outstanding_put ..)⟩

/-- A put evicts at most one entry, from the shard of its key. -/
theorem evictions_put (key : K) (value : V) :
    (∀ index, ((cache.put key value).shards index).metrics.evictions =
      (cache.shards index).metrics.evictions) ∨
    (((cache.put key value).shards (shardIndex hash settings key)).metrics.evictions =
        (cache.shards (shardIndex hash settings key)).metrics.evictions + 1 ∧
      ∀ index, index ≠ shardIndex hash settings key →
        ((cache.put key value).shards index).metrics.evictions =
          (cache.shards index).metrics.evictions) := by
  rw [put]
  rcases (cache.shardFor key).evictions_put key value with same | moved
  · exact Or.inl fun index => cache.evictions_setShard same index
  · refine Or.inr ⟨?_, ?_⟩
    · simp only [setShard, Function.update_self]
      exact moved
    · intro index other
      simp only [setShard, Function.update_of_ne other]

/-- An erased entry is accounted for. -/
theorem lookups_erase (key : K) :
    (cache.erase key).2.metrics.hits = cache.metrics.hits ∧
      (cache.erase key).2.metrics.misses = cache.metrics.misses ∧
      (cache.erase key).2.outstanding =
        cache.outstanding + UInt64.ofNat (cache.erase key).1.toNat := by
  have same := (cache.shardFor key).metrics_erase key
  simp only [metrics_sum, outstanding_sum]
  exact ⟨sum_update_same rfl (congrArg CacheMetrics.hits same),
    sum_update_same rfl (congrArg CacheMetrics.misses same),
    sum_update rfl (LruCache.outstanding_erase ..)⟩

end ShardedCache

end Lrd.Cache
