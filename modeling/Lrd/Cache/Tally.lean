import Lrd.Cache.Metrics

/-!
# How many entries, and how many evictions

The number of entries of a shard and the number of its evictions move together. Storing
under a key that is held changes neither. Storing under another key adds an entry, or evicts
one if there is no room, and erasing a held key removes an entry. So what an operation does
to both numbers follows from them and from whether the key was held (`LruCache.tally_put`,
`LruCache.tally_erase`), and their sums over all shards show whether it was
(`Tally.put_tells`, `Tally.erase_tells`).
-/

namespace Lrd.Cache

open Foundation Common

/-- The entries of a shard and its evictions so far. -/
structure Tally where
  entries : Nat
  evictions : UInt64
deriving DecidableEq, Repr

namespace Tally

/-- What storing under a key does, given whether the key is held. -/
def put (capacity : Nat) (tally : Tally) (held : Bool) : Tally :=
  if held then tally
  else if tally.entries < capacity then { tally with entries := tally.entries + 1 }
  else { tally with evictions := tally.evictions + 1 }

/-- What erasing a key does, given whether the key is held. -/
def erase (tally : Tally) (held : Bool) : Tally :=
  if held then { tally with entries := tally.entries - 1 } else tally

section Totals

variable {count : Nat} {tallies others : Fin count → Tally} {index : Fin count}

/-- The evictions and the entries of all shards. -/
def totals (tallies : Fin count → Tally) : UInt64 × UInt64 :=
  (∑ index, (tallies index).evictions, ∑ index, UInt64.ofNat (tallies index).entries)

/-- What a shard adds to its own numbers is added to the totals. -/
theorem totals_update {tally : Tally} {evicted entered : UInt64}
    (evictions : tally.evictions = (tallies index).evictions + evicted)
    (entries : UInt64.ofNat tally.entries = UInt64.ofNat (tallies index).entries + entered) :
    totals (Function.update tallies index tally) = totals tallies + (evicted, entered) :=
  Prod.ext (sum_apply_update Tally.evictions tallies index tally evictions)
    (sum_apply_update (fun tally : Tally => UInt64.ofNat tally.entries) tallies index tally entries)

/-- Storing under a key that is not held evicts an entry or adds one. -/
theorem totals_put_absent (capacity : Nat) (tallies : Fin count → Tally) (index : Fin count) :
    totals (Function.update tallies index ((tallies index).put capacity false)) =
        totals tallies + (1, 0) ∨
      totals (Function.update tallies index ((tallies index).put capacity false)) =
        totals tallies + (0, 1) := by
  by_cases room : (tallies index).entries < capacity
  · right
    refine totals_update ?_ ?_
    · simp only [put, room, Bool.false_eq_true, ↓reduceIte, UInt64.add_zero]
    · simp only [put, room, Bool.false_eq_true, ↓reduceIte, UInt64.ofNat_add, UInt64.ofNat_one]
  · left
    refine totals_update ?_ ?_
    · simp only [put, room, Bool.false_eq_true, ↓reduceIte]
    · simp only [put, room, Bool.false_eq_true, ↓reduceIte, UInt64.add_zero]

theorem totals_put_held (capacity : Nat) (tallies : Fin count → Tally) (index : Fin count) :
    totals (Function.update tallies index ((tallies index).put capacity true)) = totals tallies :=
  congrArg totals (Function.update_eq_self index tallies)

theorem totals_erase_absent (tallies : Fin count → Tally) (index : Fin count) :
    totals (Function.update tallies index ((tallies index).erase false)) = totals tallies :=
  congrArg totals (Function.update_eq_self index tallies)

/-- Erasing a held key removes an entry. -/
theorem totals_erase_held (occupied : 0 < (tallies index).entries) :
    totals (Function.update tallies index ((tallies index).erase true)) + (0, 1) =
      totals tallies := by
  obtain ⟨fewer, count⟩ : ∃ fewer, (tallies index).entries = fewer + 1 :=
    ⟨(tallies index).entries - 1, by omega⟩
  have moved : totals (Function.update tallies index ((tallies index).erase true)) =
      totals tallies + (0, -1) := by
    refine totals_update (UInt64.add_zero _).symm ?_
    simp only [erase, ↓reduceIte, count, Nat.add_sub_cancel, UInt64.ofNat_add, UInt64.ofNat_one]
    grind
  rw [moved, add_assoc]
  exact add_zero _

/-- Totals that have moved by one in either component are different. -/
theorem ne_add_one (total : UInt64 × UInt64) :
    total ≠ total + (1, 0) ∧ total ≠ total + (0, 1) := by
  refine ⟨fun same => ?_, fun same => ?_⟩
  · have moved := congrArg Prod.fst same
    change total.1 = total.1 + 1 at moved
    grind
  · have moved := congrArg Prod.snd same
    change total.2 = total.2 + 1 at moved
    grind

/-- If storing moved equal totals to equal totals, the key was held in both or in neither. -/
theorem put_tells {capacity : Nat} {held kept : Bool} (before : totals tallies = totals others)
    (after : totals (Function.update tallies index ((tallies index).put capacity held)) =
      totals (Function.update others index ((others index).put capacity kept))) :
    held = kept := by
  have apart : ∀ tallies others : Fin count → Tally, totals tallies = totals others →
      totals (Function.update tallies index ((tallies index).put capacity true)) ≠
        totals (Function.update others index ((others index).put capacity false)) := by
    intro tallies others same after
    rw [totals_put_held, same] at after
    rcases totals_put_absent capacity others index with moved | moved
    · exact (ne_add_one _).1 (after.trans moved)
    · exact (ne_add_one _).2 (after.trans moved)
  cases held with
  | true =>
      cases kept with
      | true => rfl
      | false => exact absurd after (apart tallies others before)
  | false =>
      cases kept with
      | true => exact absurd after.symm (apart others tallies before.symm)
      | false => rfl

/-- If erasing moved equal totals to equal totals, the key was held in both or in neither. -/
theorem erase_tells {held kept : Bool} (before : totals tallies = totals others)
    (someHeld : held = true → 0 < (tallies index).entries)
    (someKept : kept = true → 0 < (others index).entries)
    (after : totals (Function.update tallies index ((tallies index).erase held)) =
      totals (Function.update others index ((others index).erase kept))) :
    held = kept := by
  have apart : ∀ tallies others : Fin count → Tally, totals tallies = totals others →
      0 < (tallies index).entries →
      totals (Function.update tallies index ((tallies index).erase true)) ≠
        totals (Function.update others index ((others index).erase false)) := by
    intro tallies others same occupied after
    have removed := totals_erase_held occupied
    rw [after, totals_erase_absent, ← same] at removed
    exact (ne_add_one _).2 removed.symm
  cases held with
  | true =>
      cases kept with
      | true => rfl
      | false => exact absurd after (apart tallies others before (someHeld rfl))
  | false =>
      cases kept with
      | true => exact absurd after.symm (apart others tallies before.symm (someKept rfl))
      | false => rfl

end Totals

end Tally

/-! ## One shard -/

namespace LruCache

variable {K V : Type} [DecidableEq K] {capacity : Capacity} (cache : LruCache K V capacity)

/-- The tally of a cache. -/
def tally : Tally := ⟨cache.size, cache.metrics.evictions⟩

/-- A key is found exactly if the index has it. -/
theorem peek_isSome (key : K) :
    (cache.peek key).isSome = (cache.index.lookup key).isSome := by
  rw [peek_eq]
  cases found : cache.index.lookup key with
  | none =>
      rw [cache.lookup_of_unfound found]
      rfl
  | some handle =>
      obtain ⟨value, _, held⟩ := cache.node_of_found found
      rw [held]
      rfl

/-- A cache in which a key is found is not empty. -/
theorem size_pos_of_peek {key : K} (found : (cache.peek key).isSome = true) : 0 < cache.size := by
  rw [peek_isSome, AList.lookup_isSome] at found
  exact List.length_pos_of_mem (AList.mem_keys.mp found)

/-- A lookup leaves the tally. -/
theorem tally_get (key : K) : (cache.get key).2.tally = cache.tally := by
  unfold get
  split
  · rfl
  · rfl

/-- Making room in a full cache evicts an entry. -/
theorem tally_makeRoom (full : capacity.value ≤ cache.size) :
    cache.makeRoom.tally.entries + 1 = cache.tally.entries ∧
      cache.makeRoom.tally.evictions = cache.tally.evictions + 1 := by
  rw [makeRoom, if_pos full]
  exact evictLru_counts (capacity.positive.trans_le full)

/-- What a put does to the tally depends on whether the key is held. -/
theorem tally_put (key : K) (value : V) :
    (cache.put key value).tally = cache.tally.put capacity.value (cache.peek key).isSome := by
  rw [peek_isSome]
  unfold put
  split
  · rename_i handle found
    simp only [found, Option.isSome_some, Tally.put, ↓reduceIte, tally, size]
  · rename_i unfound
    have absent := makeRoom_absent (AList.lookup_eq_none.mp unfound)
    have inserted : (cache.makeRoom.index.insert key cache.makeRoom.entries.next).keys.length =
        cache.makeRoom.tally.entries + 1 := by
      rw [AList.keys_insert, List.length_cons,
        List.erase_of_not_mem fun member => absent (AList.mem_keys.mpr member)]
      rfl
    rw [show (cache.index.lookup key).isSome = false by rw [unfound]; rfl]
    simp only [tally, size, inserted]
    by_cases full : capacity.value ≤ cache.size
    · obtain ⟨fewer, evicted⟩ := cache.tally_makeRoom full
      have crowded : ¬ cache.index.keys.length < capacity.value := Nat.not_lt.mpr full
      simp only [Tally.put, crowded, Bool.false_eq_true, ↓reduceIte]
      exact congrArg₂ Tally.mk fewer evicted
    · have same : cache.makeRoom = cache := if_neg full
      have room : cache.index.keys.length < capacity.value := Nat.not_le.mp full
      simp only [Tally.put, room, Bool.false_eq_true, ↓reduceIte, same]

/-- What erasing does to the tally depends on whether the key is held. -/
theorem tally_erase (key : K) :
    (cache.erase key).2.tally = cache.tally.erase (cache.peek key).isSome := by
  rw [peek_isSome]
  unfold erase
  split
  · rename_i unfound
    rw [unfound]
    rfl
  · rename_i handle found
    have member : key ∈ cache.index.keys :=
      AList.mem_keys.mp (AList.lookup_isSome.mp (Option.isSome_of_eq_some found))
    simp only [found, Option.isSome_some, Tally.erase, ↓reduceIte, tally, size, AList.keys_erase,
      List.length_erase_of_mem member]

end LruCache

/-! ## All shards -/

namespace ShardedCache

variable {K V : Type} [DecidableEq K] {hash : K → UInt64} {settings : CacheSettings}
  (cache : ShardedCache K V hash settings)

/-- The tallies of the shards. -/
def tallies (index : Fin settings.shardCount.size) : Tally := (cache.shards index).tally

/-- Replacing the shard of a key replaces its tally. -/
theorem tallies_setShard (key : K) (shard : LruCache K V settings.perShard)
    (within : ∀ entry ∈ shard.toList, entry.1 = key ∨ entry ∈ (cache.shardFor key).toList) :
    (cache.setShard key shard within).tallies =
      Function.update cache.tallies (shardIndex hash settings key) shard.tally :=
  funext fun index =>
    Function.apply_update (fun _ => LruCache.tally) cache.shards _ shard index

theorem tallies_get (key : K) : (cache.get key).2.tallies = cache.tallies := by
  rw [get, tallies_setShard, LruCache.tally_get]
  exact Function.update_eq_self _ cache.tallies

/-- A put changes the tally of its shard. -/
theorem tallies_put (key : K) (value : V) :
    (cache.put key value).tallies = Function.update cache.tallies (shardIndex hash settings key)
      ((cache.tallies (shardIndex hash settings key)).put settings.perShard.value
        (cache.peek key).isSome) := by
  rw [put, tallies_setShard, LruCache.tally_put]
  rfl

/-- Erasing changes the tally of its shard. -/
theorem tallies_erase (key : K) :
    (cache.erase key).2.tallies = Function.update cache.tallies (shardIndex hash settings key)
      ((cache.tallies (shardIndex hash settings key)).erase (cache.peek key).isSome) := by
  rw [erase, tallies_setShard, LruCache.tally_erase]
  rfl

/-- The evictions and entries that the metrics report. -/
theorem totals_tallies :
    Tally.totals cache.tallies = (cache.metrics.evictions, UInt64.ofNat cache.size) := by
  refine Prod.ext ?_ ?_
  · rw [metrics_eq, Tally.totals, Fin.sum_univ_def]
    simp only [CacheMetrics.total, List.map_map]
    rfl
  · rw [size, ← ofNat_sum, Tally.totals, Fin.sum_univ_def]
    rfl

end ShardedCache

end Lrd.Cache
