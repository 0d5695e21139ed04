import Lrd.Foundation.Residence
import Lrd.Cache.Inclusion

/-!
# The keys of a cache as residents

In what order a shard holds its keys follows from what happened to them: every operation of
the sharded cache is a use, a drop or nothing to the shard of its key, and nothing to the
other shards.
-/

namespace Lrd.Cache

open Foundation Common

namespace Reference

variable {K V : Type} [DecidableEq K] {entries : List (K × V)}

/-- Taking an entry out takes its key out. -/
theorem keys_without (capacity : Nat) (entries : List (K × V)) (key : K) :
    (without entries key).map Prod.fst = (Touch.drop key).apply capacity (entries.map Prod.fst) := by
  rw [Touch.apply, List.filter_map]
  rfl

/-- A put is a use of its key. -/
theorem keys_store {capacity : Nat} (distinct : (entries.map Prod.fst).Nodup)
    (bounded : entries.length ≤ capacity) (positive : 0 < capacity) (key : K) (value : V) :
    (store capacity entries key value).map Prod.fst =
      (Touch.use key).apply capacity (entries.map Prod.fst) := by
  have others := keys_without capacity entries key
  rw [Touch.apply] at others
  rw [Touch.apply, ← others]
  unfold store
  split
  · rename_i present
    have count := length_without distinct present
    rw [List.map_cons, List.take_of_length_le]
    rw [List.length_cons, List.length_map]
    omega
  · rename_i absent
    rw [without_of_absent absent]
    obtain ⟨places, rfl⟩ := Nat.exists_eq_succ_of_ne_zero (Nat.ne_of_gt positive)
    rw [List.take_succ_cons]
    split
    · rename_i full
      have exact : entries.length - 1 = places := by omega
      rw [List.map_cons, List.dropLast_eq_take, exact, List.map_take]
    · rw [List.map_cons, List.take_of_length_le]
      rw [List.length_map]
      omega

end Reference

namespace LruCache

variable {K V : Type} [DecidableEq K] {capacity : Capacity} (cache : LruCache K V capacity)

/-- A put uses its key. -/
theorem keys_put (key : K) (value : V) :
    (cache.put key value).toList.map Prod.fst =
      (Touch.use key).apply capacity.value (cache.toList.map Prod.fst) := by
  rw [toList_put]
  refine Reference.keys_store cache.nodup_keys ?_ capacity.positive key value
  rw [← cache.size_eq]
  exact cache.bounded

theorem keys_erase (key : K) :
    (cache.erase key).2.toList.map Prod.fst =
      (Touch.drop key).apply capacity.value (cache.toList.map Prod.fst) := by
  rw [(cache.erase_eq key).2, Reference.keys_without capacity.value]

/-- A lookup that hits is a use of its key, as storing the same value again would be. -/
theorem keys_get {key : K} {value : V} (held : cache.toList.lookup key = some value) :
    (cache.get key).2.toList.map Prod.fst =
      (Touch.use key).apply capacity.value (cache.toList.map Prod.fst) := by
  have again : (cache.put key value).toList = (cache.get key).2.toList := by
    rw [toList_put, Reference.store, if_pos (List.mem_map_of_mem (mem_of_lookup held)),
      (cache.get_hit held).2]
  rw [← again]
  exact cache.keys_put key value

end LruCache

namespace ShardedCache

variable {K V : Type} [DecidableEq K] {hash : K → UInt64} {settings : CacheSettings}
  (cache : ShardedCache K V hash settings) (index : Fin settings.shardCount.size)

/-- The keys of a shard, most recently used first. -/
def keysIn : List K := (cache.shards index).toList.map Prod.fst

/-- A key is resident in its shard exactly if it is found. -/
theorem mem_keysIn_iff (key : K) :
    key ∈ cache.keysIn (shardIndex hash settings key) ↔ (cache.peek key).isSome := by
  rw [peek, LruCache.peek_eq, ← Option.ne_none_iff_isSome, ne_eq, lookup_eq_none_iff_not_mem,
    not_not]
  rfl

/-- What a touch leaves of the keys of a shard: it matters to the shard of its key only. -/
def touched (touch : Option (Touch K)) : List K :=
  match touch with
  | none => cache.keysIn index
  | some touch =>
      if shardIndex hash settings touch.key = index then
        touch.apply settings.perShard.value (cache.keysIn index)
      else cache.keysIn index

/-- Replacing the shard of a key touches that shard only. -/
theorem keysIn_setShard {key : K} {shard : LruCache K V settings.perShard}
    {within : ∀ entry ∈ shard.toList, entry.1 = key ∨ entry ∈ (cache.shardFor key).toList}
    {touch : Touch K} (same : touch.key = key)
    (keys : shard.toList.map Prod.fst =
      touch.apply settings.perShard.value ((cache.shardFor key).toList.map Prod.fst)) :
    (cache.setShard key shard within).keysIn index = cache.touched index (some touch) := by
  rw [touched, same]
  split
  · rename_i here
    subst here
    simp only [keysIn, setShard, Function.update_self]
    exact keys
  · rename_i elsewhere
    simp only [keysIn, setShard, Function.update_of_ne (Ne.symm elsewhere)]

theorem keysIn_put (key : K) (value : V) :
    (cache.put key value).keysIn index = cache.touched index (some (.use key)) := by
  rw [put]
  exact cache.keysIn_setShard index rfl (LruCache.keys_put ..)

/-- Erasing drops the key in its shard. -/
theorem keysIn_erase (key : K) :
    (cache.erase key).2.keysIn index = cache.touched index (some (.drop key)) := by
  simp only [erase]
  exact cache.keysIn_setShard index rfl (LruCache.keys_erase ..)

/-- A hit uses its key in its shard, and a miss does nothing. -/
theorem keysIn_get (key : K) :
    (cache.get key).2.keysIn index =
      cache.touched index (if (cache.peek key).isSome then some (.use key) else none) := by
  simp only [get]
  split
  · rename_i held
    obtain ⟨value, found⟩ := Option.isSome_iff_exists.mp held
    rw [peek, LruCache.peek_eq] at found
    exact cache.keysIn_setShard index rfl (LruCache.keys_get _ found)
  · rename_i missing
    rw [Bool.not_eq_true, Option.isSome_eq_false_iff, Option.isNone_iff_eq_none, peek,
      LruCache.peek_eq] at missing
    by_cases here : index = shardIndex hash settings key
    · simp only [here, keysIn, setShard, Function.update_self, touched,
        (LruCache.get_miss _ missing).2]
      rfl
    · simp only [keysIn, setShard, Function.update_of_ne here, touched]

end ShardedCache

end Lrd.Cache
