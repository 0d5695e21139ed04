import Lrd.Cache.ExactLru
import Lrd.Cache.ShardedCache
import Mathlib.Data.UInt

/-!
# Sharding as a product

The sharded cache behaves as one LRU cache per shard, each run on the operations whose
keys belong to it (`sharded_product`). Every operation goes to the shard of its key and
leaves the others alone, so the cache is a machine made of parts (`splits`).
-/

namespace Lrd.Cache

open Foundation Common

/-- The operations of a shared cache. -/
inductive CacheOperation (K V : Type) where
  | get (key : K)
  | peek (key : K)
  | put (key : K) (value : V)
  | erase (key : K)
  | clear
deriving DecidableEq, Repr

/-- What an operation answers. -/
inductive CacheAnswer (V : Type) where
  | looked (found : Option V)
  | stored
  | erased (present : Bool)
  | cleared
deriving DecidableEq, Repr

/-- Metrics added up, field by field. -/
def CacheMetrics.total (all : List CacheMetrics) : CacheMetrics where
  hits := (all.map CacheMetrics.hits).sum
  misses := (all.map CacheMetrics.misses).sum
  insertions := (all.map CacheMetrics.insertions).sum
  updates := (all.map CacheMetrics.updates).sum
  evictions := (all.map CacheMetrics.evictions).sum

/-- Add the metrics `m` to a running total. -/
def CacheMetrics.plus (total m : CacheMetrics) : CacheMetrics where
  hits := total.hits + m.hits
  misses := total.misses + m.misses
  insertions := total.insertions + m.insertions
  updates := total.updates + m.updates
  evictions := total.evictions + m.evictions

/-- The total, added up from the left. -/
theorem CacheMetrics.total_eq_foldl (all : List CacheMetrics) :
    CacheMetrics.total all = all.foldl CacheMetrics.plus {} := by
  -- A fold started from any total adds the sums to it.
  suffices general : ∀ start : CacheMetrics,
      all.foldl CacheMetrics.plus start = start.plus (CacheMetrics.total all) by
    rw [general]
    simp only [plus, UInt64.zero_add]
  induction all with
  | nil =>
      intro start
      simp only [List.foldl_nil, plus, total, List.map_nil, List.sum_nil, UInt64.add_zero]
  | cons m rest ih =>
      intro start
      rw [List.foldl_cons, ih]
      simp only [plus, total, List.map_cons, List.sum_cons, UInt64.add_assoc]

/-- The key of an operation; `clear` has none. -/
def CacheOperation.key? {K V : Type} : CacheOperation K V → Option K
  | .get key => some key
  | .peek key => some key
  | .put key _ => some key
  | .erase key => some key
  | .clear => none

/-- An LRU cache under its mutex: every call is one step. -/
def LockedCache.machine (K V : Type) [DecidableEq K] (capacity : Capacity) :
    Machine (LruCache K V capacity) (CacheOperation K V) (CacheAnswer V) where
  step cache
    | .get key => (.looked (cache.get key).1, (cache.get key).2)
    | .peek key => (.looked (cache.peek key), cache)
    | .put key value => (.stored, cache.put key value)
    | .erase key => (.erased (cache.erase key).1, (cache.erase key).2)
    | .clear => (.cleared, cache.clear)

namespace ShardedCache

variable {K V : Type} [DecidableEq K] {hash : K → UInt64} {settings : CacheSettings}

/-- The cache as a machine. -/
def machine (K V : Type) [DecidableEq K] (hash : K → UInt64) (settings : CacheSettings) :
    Machine (ShardedCache K V hash settings) (CacheOperation K V) (CacheAnswer V) where
  step cache
    | .get key => (.looked (cache.get key).1, (cache.get key).2)
    | .peek key => (.looked (cache.peek key), cache)
    | .put key value => (.stored, cache.put key value)
    | .erase key => (.erased (cache.erase key).1, (cache.erase key).2)
    | .clear => (.cleared, cache.clear)

/-- The metrics of all shards, added up shard by shard. -/
def metrics (cache : ShardedCache K V hash settings) : CacheMetrics :=
  (List.finRange settings.shardCount.size).foldl
    (fun total index => total.plus (cache.shards index).metrics) {}

/-- The shard an operation goes to; `clear` goes to all of them. -/
def address (hash : K → UInt64) (settings : CacheSettings) (operation : CacheOperation K V) :
    Option (Fin settings.shardCount.size) :=
  operation.key?.map (shardIndex hash settings)

omit [DecidableEq K] in
/-- An operation on a key is addressed to the shard of the key. -/
theorem address_of_key {operation : CacheOperation K V} {key : K}
    (keyed : operation.key? = some key) :
    address hash settings operation = some (shardIndex hash settings key) := by
  rw [address, keyed, Option.map_some]

/-- A cache is its shards. -/
theorem eq_of_shards {left right : ShardedCache K V hash settings}
    (shards : ∀ index, left.shards index = right.shards index) : left = right := by
  cases left
  cases right
  congr
  exact funext shards

/-! ## The parts -/

/-- An operation is answered by the shard of its key, which takes it as a cache of its
own would. -/
theorem step_shard (cache : ShardedCache K V hash settings) (operation : CacheOperation K V)
    {key : K} (keyed : operation.key? = some key) :
    ((machine K V hash settings).step cache operation).1 =
        ((LockedCache.machine K V settings.perShard).step (cache.shardFor key) operation).1 ∧
      ((machine K V hash settings).step cache operation).2.shards =
        Function.update cache.shards (shardIndex hash settings key)
          ((LockedCache.machine K V settings.perShard).step (cache.shardFor key) operation).2 := by
  cases operation with
  | get key' =>
      cases keyed
      exact ⟨rfl, rfl⟩
  | peek key' =>
      cases keyed
      exact ⟨rfl, (Function.update_eq_self _ _).symm⟩
  | put key' value =>
      cases keyed
      exact ⟨rfl, rfl⟩
  | erase key' =>
      cases keyed
      exact ⟨rfl, rfl⟩
  | clear => cases keyed

/-- The sharded cache is made of its shards. -/
theorem splits (K V : Type) [DecidableEq K] (hash : K → UInt64) (settings : CacheSettings) :
    Machine.Splits (machine K V hash settings) (LockedCache.machine K V settings.perShard)
      (address hash settings) (fun cache => cache.shards) where
  concerned := by
    intro cache operation index meant
    cases keyed : operation.key? with
    | none =>
        cases operation with
        | clear => exact ⟨rfl, rfl⟩
        | _ => cases keyed
    | some key =>
        rw [Machine.concerns, address_of_key keyed, decide_eq_true_eq] at meant
        subst meant
        obtain ⟨answer, shards⟩ := cache.step_shard operation keyed
        exact ⟨answer, by rw [shards, Function.update_self]; rfl⟩
  others := by
    intro cache operation index elsewhere
    cases keyed : operation.key? with
    | none =>
        rw [Machine.concerns, address, keyed, Option.map_none] at elsewhere
        cases elsewhere
    | some key =>
        rw [Machine.concerns, address_of_key keyed, decide_eq_false_iff_not] at elsewhere
        rw [(cache.step_shard operation keyed).2, Function.update_of_ne (Ne.symm elsewhere)]

/-! ## Sums -/

/-- The counters are the totals of those of the shards. -/
theorem metrics_eq (cache : ShardedCache K V hash settings) :
    cache.metrics = CacheMetrics.total
      ((List.finRange settings.shardCount.size).map fun index => (cache.shards index).metrics) := by
  rw [metrics, CacheMetrics.total_eq_foldl, List.foldl_map]

/-- The shards together hold at most what the cache was made for. -/
theorem size_le (cache : ShardedCache K V hash settings) :
    cache.size ≤ settings.capacity.toNat :=
  settings.shardCount.sum_le fun index => (cache.shards index).bounded

/-! ## Lookups -/

section Lookups

variable (cache : ShardedCache K V hash settings) {key other : K} {value found : V}

theorem peek_eq_some_iff :
    cache.peek key = some value ↔ (key, value) ∈ (cache.shardFor key).toList := by
  rw [peek, LruCache.peek_eq, lookup_eq_some_iff_mem (cache.shardFor key).nodup_keys]

theorem get_fst (key : K) : (cache.get key).1 = cache.peek key := by
  rw [peek, LruCache.peek_eq]
  exact LruCache.get_fst ..

variable {shard : LruCache K V settings.perShard}
  {within : ∀ entry ∈ shard.toList, entry.1 = key ∨ entry ∈ (cache.shardFor key).toList}

theorem shardFor_setShard (same : shardIndex hash settings other = shardIndex hash settings key) :
    (cache.setShard key shard within).shardFor other = shard := by
  simp only [shardFor, setShard, same, Function.update_self]

theorem shardFor_setShard_of_ne
    (apart : shardIndex hash settings other ≠ shardIndex hash settings key) :
    (cache.setShard key shard within).shardFor other = cache.shardFor other := by
  simp only [shardFor, setShard, Function.update_of_ne apart]

theorem shardFor_of_same (same : shardIndex hash settings other = shardIndex hash settings key) :
    cache.shardFor other = cache.shardFor key := by
  rw [shardFor, shardFor, same]

omit [DecidableEq K] in
/-- Keys of different shards are different. -/
theorem ne_of_shardIndex (apart : shardIndex hash settings other ≠ shardIndex hash settings key) :
    other ≠ key := by
  rintro rfl
  exact apart rfl

/-- A use of a key changes no lookup. -/
theorem peek_get (key other : K) : (cache.get key).2.peek other = cache.peek other := by
  simp only [peek, LruCache.peek_eq, get]
  by_cases same : shardIndex hash settings other = shardIndex hash settings key
  · rw [shardFor_setShard _ same, LruCache.lookup_get, cache.shardFor_of_same same]
  · rw [shardFor_setShard_of_ne _ same]

/-- After a put, a lookup finds the new value under its key and old values under other
keys. -/
theorem peek_put (looked : (cache.put key value).peek other = some found) :
    (other = key ∧ found = value) ∨ (other ≠ key ∧ cache.peek other = some found) := by
  rw [peek_eq_some_iff, put] at looked
  by_cases same : shardIndex hash settings other = shardIndex hash settings key
  · rw [shardFor_setShard _ same, LruCache.toList_put] at looked
    obtain ⟨others, split, fewer, absent⟩ :=
      Reference.store_split settings.perShard.value (cache.shardFor key).toList key value
    rw [split] at looked
    rcases List.mem_cons.mp looked with new | old
    · exact Or.inl (Prod.mk.inj new)
    · refine Or.inr ⟨?_, ?_⟩
      · rintro rfl
        exact absent (List.mem_map_of_mem old)
      · rw [peek_eq_some_iff, cache.shardFor_of_same same]
        exact fewer.subset old
  · rw [shardFor_setShard_of_ne _ same] at looked
    exact Or.inr ⟨ne_of_shardIndex same, (cache.peek_eq_some_iff).mpr looked⟩

/-- What was put is found. -/
theorem peek_put_self (key : K) (value : V) : (cache.put key value).peek key = some value := by
  rw [peek_eq_some_iff, put, shardFor_setShard _ rfl, LruCache.toList_put]
  obtain ⟨others, split, _, _⟩ :=
    Reference.store_split settings.perShard.value (cache.shardFor key).toList key value
  rw [split]
  exact List.mem_cons_self

/-- A put into a shard with room changes the lookup of its own key only. -/
theorem peek_put_of_room (room : key ∈ (cache.shardFor key).index ∨
      (cache.shardFor key).size < settings.perShard.value) (value : V) (other : K) :
    (cache.put key value).peek other = if other = key then some value else cache.peek other := by
  simp only [peek, LruCache.peek_eq, put]
  by_cases same : shardIndex hash settings other = shardIndex hash settings key
  · rw [shardFor_setShard _ same, LruCache.lookup_put_of_room _ room, cache.shardFor_of_same same]
  · rw [shardFor_setShard_of_ne _ same, if_neg (ne_of_shardIndex same)]

/-- What was erased is not found, and nothing else has changed. -/
theorem peek_erase (key other : K) :
    (cache.erase key).2.peek other = if other = key then none else cache.peek other := by
  simp only [peek, LruCache.peek_eq, erase]
  by_cases same : shardIndex hash settings other = shardIndex hash settings key
  · rw [shardFor_setShard _ same, LruCache.lookup_erase, cache.shardFor_of_same same]
  · rw [shardFor_setShard_of_ne _ same, if_neg (ne_of_shardIndex same)]

/-- A shard that evicted nothing leaves the evictions of all shards as they were. -/
theorem evictions_setShard
    (kept : shard.metrics.evictions = (cache.shardFor key).metrics.evictions)
    (index : Fin settings.shardCount.size) :
    ((cache.setShard key shard within).shards index).metrics.evictions =
      (cache.shards index).metrics.evictions := by
  by_cases here : index = shardIndex hash settings key
  · simp only [setShard, here, Function.update_self, kept, shardFor]
  · simp only [setShard, Function.update_of_ne here]

/-- A lookup evicts nothing, in any shard. -/
theorem evictions_get (key : K) (index : Fin settings.shardCount.size) :
    ((cache.get key).2.shards index).metrics.evictions =
      (cache.shards index).metrics.evictions := by
  simp only [get]
  exact evictions_setShard cache (LruCache.evictions_get ..) index

/-- Erasing is no eviction, in any shard. -/
theorem evictions_erase (key : K) (index : Fin settings.shardCount.size) :
    ((cache.erase key).2.shards index).metrics.evictions =
      (cache.shards index).metrics.evictions := by
  simp only [erase]
  exact evictions_setShard cache (LruCache.evictions_erase ..) index

/-- The shards hold as many entries as a scan of all of them meets. -/
theorem size_eq_length_held : cache.size = cache.held.length := by
  rw [size, held, List.length_flatMap]
  refine congrArg List.sum (List.map_congr_left fun index _ => ?_)
  rw [LruCache.size_eq]
  rfl

end Lookups

/-! ## Scans -/

/-- What a shard holds is what `peek` finds. -/
theorem mem_snapshotShard (cache : ShardedCache K V hash settings)
    {index : Fin settings.shardCount.size} {key : K} {value : V} :
    (key, value) ∈ cache.snapshotShard index ↔
      shardIndex hash settings key = index ∧ cache.peek key = some value := by
  rw [peek_eq_some_iff]
  constructor
  · intro member
    have place : shardIndex hash settings key = index := by
      rw [shardIndex]
      exact cache.placed index (key, value) member
    refine ⟨place, ?_⟩
    rw [shardFor, place]
    exact member
  · rintro ⟨place, member⟩
    rw [shardFor, place] at member
    exact member

/-- A scan of all shards meets exactly the entries that `peek` finds. -/
theorem mem_held_iff (cache : ShardedCache K V hash settings) (key : K) (value : V) :
    (key, value) ∈ cache.held ↔ cache.peek key = some value := by
  rw [held, List.mem_flatMap]
  constructor
  · rintro ⟨index, _, inside⟩
    exact (cache.mem_snapshotShard.mp inside).2
  · intro found
    exact ⟨_, List.mem_finRange _, cache.mem_snapshotShard.mpr ⟨rfl, found⟩⟩

/-- The sharded cache after a sequence of operations, with what it answered. -/
def ran (K V : Type) [DecidableEq K] (hash : K → UInt64) (settings : CacheSettings)
    (operations : List (CacheOperation K V)) :
    List (CacheOperation K V × CacheAnswer V) × ShardedCache K V hash settings :=
  (machine K V hash settings).run (create K V hash settings) operations

/-- The operations that go to a shard: those on its keys, and `clear`. -/
def goesTo (hash : K → UInt64) (settings : CacheSettings) (index : Fin settings.shardCount.size)
    (operation : CacheOperation K V) : Bool :=
  Machine.concerns (address hash settings) index operation

/-- A single LRU cache with a shard's capacity, run on the operations that go to the
shard. -/
def alone (K V : Type) [DecidableEq K] (hash : K → UInt64) (settings : CacheSettings)
    (operations : List (CacheOperation K V)) (index : Fin settings.shardCount.size) :
    List (CacheOperation K V × CacheAnswer V) × LruCache K V settings.perShard :=
  (LockedCache.machine K V settings.perShard).run (LruCache.create K V settings.perShard)
    (operations.filter (goesTo hash settings index))

/-- A shard ends as the single cache does. -/
theorem shards_ran (operations : List (CacheOperation K V))
    (index : Fin settings.shardCount.size) :
    (ran K V hash settings operations).2.shards index =
      (alone K V hash settings operations index).2 :=
  ((splits K V hash settings).run (create K V hash settings) operations index).2

/-- Sharding is a product of independent LRU caches. After every sequence of
operations, the answers to the operations of a shard are those of a single cache run on
these operations alone; operations on keys of different shards may be exchanged; the
size stays within the capacity; size and metrics are the sums over the single caches;
and the snapshots of all shards list every held key once, with its current value. -/
theorem sharded_product (operations : List (CacheOperation K V)) :
    let cache := (ran K V hash settings operations).2
    let single := alone K V hash settings operations
    let shards := List.finRange settings.shardCount.size
    let step := (machine K V hash settings).step
    (∀ index, (ran K V hash settings operations).1.filter
          (fun entry => goesTo hash settings index entry.1) = (single index).1 ∧
        cache.shards index = (single index).2) ∧
      (∀ (first second : CacheOperation K V) (left right : K), first.key? = some left →
        second.key? = some right →
        shardIndex hash settings left ≠ shardIndex hash settings right →
        (step (step cache second).2 first).1 = (step cache first).1 ∧
          (step (step cache first).2 second).1 = (step cache second).1 ∧
          (step (step cache first).2 second).2 = (step (step cache second).2 first).2) ∧
      cache.size ≤ settings.capacity.toNat ∧
      cache.size = (shards.map fun index => (single index).2.size).sum ∧
      cache.metrics = CacheMetrics.total (shards.map fun index => (single index).2.metrics) ∧
      ((shards.flatMap cache.snapshotShard).map Prod.fst).Nodup ∧
      (∀ key value, (key, value) ∈ shards.flatMap cache.snapshotShard ↔
        cache.peek key = some value) := by
  intro cache single shards step
  have parts : ∀ index, cache.shards index = (single index).2 := shards_ran operations
  refine ⟨?_, ?_, cache.size_le, ?_, ?_, cache.nodup_keys, cache.mem_held_iff⟩
  · intro index
    exact (splits K V hash settings).run (create K V hash settings) operations index
  · intro first second left right firstKey secondKey different
    obtain ⟨answerFirst, answerSecond, same⟩ := (splits K V hash settings).commute cache
      (address_of_key firstKey) (address_of_key secondKey) different
    exact ⟨answerFirst, answerSecond, eq_of_shards same⟩
  · simp only [← parts]
    rfl
  · simp only [← parts]
    exact cache.metrics_eq

end ShardedCache

end Lrd.Cache
