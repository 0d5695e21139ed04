import Lrd.Foundation.StableList

/-!
# The LRU cache

A list of entries, most recently used first, and an index from keys to its nodes
(`cache/lru_cache.hpp`). That the two containers agree and that the cache stays
within its capacity are fields of the structure, so every operation below shows
that it keeps them. `LockedCache` runs the same operations under a mutex; here
each is one step.
-/

namespace Lrd.Cache

open Foundation

/-- The counters of a cache. -/
structure CacheMetrics where
  hits : UInt64 := 0
  misses : UInt64 := 0
  insertions : UInt64 := 0
  updates : UInt64 := 0
  evictions : UInt64 := 0
deriving DecidableEq, Repr

/-- A capacity that the constructor accepts. -/
structure Capacity where
  value : Nat
  positive : 0 < value

/-- The constructor refuses a capacity of zero. -/
def Capacity.create (value : Nat) : Except String Capacity :=
  if positive : 0 < value then .ok ⟨value, positive⟩
  else .error "LruCache capacity must be at least 1"

/-- `LruCache`: the list and the index, which agree, and no more entries than the capacity. -/
structure LruCache (K V : Type) [DecidableEq K] (capacity : Capacity) where
  entries : StableList (K × V)
  index : AList fun _ : K => Nat
  metrics : CacheMetrics
  agree : StableList.Indexes Prod.fst entries index
  bounded : index.keys.length ≤ capacity.value

namespace LruCache

variable {K V : Type} [DecidableEq K] {capacity : Capacity}

/-- An empty cache. -/
def create (K V : Type) [DecidableEq K] (capacity : Capacity) : LruCache K V capacity :=
  ⟨StableList.empty, ∅, {}, StableList.Indexes.empty, Nat.zero_le _⟩

/-- How many entries there are. -/
def size (cache : LruCache K V capacity) : Nat := cache.index.keys.length

/-- The entries, most recently used first. -/
def toList (cache : LruCache K V capacity) : List (K × V) := cache.entries.toList

/-- Look a key up and mark it as used. -/
def get (cache : LruCache K V capacity) (key : K) : Option V × LruCache K V capacity :=
  match cache.index.lookup key with
  | none =>
      (none, { cache with metrics := { cache.metrics with misses := cache.metrics.misses + 1 } })
  | some handle =>
      let entries := cache.entries.spliceFront handle
      (entries.toList.head?.map Prod.snd,
        { cache with
          entries := entries
          metrics := { cache.metrics with hits := cache.metrics.hits + 1 }
          agree := cache.agree.spliceFront handle })

/-- Look a key up without marking it. -/
def peek (cache : LruCache K V capacity) (key : K) : Option V :=
  match cache.index.lookup key with
  | none => none
  | some handle => (cache.entries.get? handle).map Prod.snd

/-- Drop the least recently used entry, if there is one. -/
def evictLru (cache : LruCache K V capacity) : LruCache K V capacity :=
  match back : cache.entries.back? with
  | none => cache
  | some last =>
      { entries := cache.entries.popBack
        index := cache.index.erase last.1
        metrics := { cache.metrics with evictions := cache.metrics.evictions + 1 }
        agree := cache.agree.popBack back
        bounded := by
          rw [AList.keys_erase]
          exact Nat.le_trans List.length_erase_le cache.bounded }

variable {cache : LruCache K V capacity} {key : K} {entry : K × V}

/-- An eviction does not bring a key in. -/
theorem evictLru_absent (absent : key ∉ cache.index) :
    key ∉ cache.evictLru.index := by
  unfold evictLru
  split
  · exact absent
  · intro present
    exact absent (AList.mem_erase.mp present).2

/-- Eviction takes one entry out of a cache that has any, and counts it. -/
theorem evictLru_counts (occupied : 0 < cache.size) :
    cache.evictLru.size + 1 = cache.size ∧
      cache.evictLru.metrics.evictions = cache.metrics.evictions + 1 := by
  rw [size] at occupied
  unfold evictLru
  split
  · rename_i empty
    rw [cache.agree.size_eq] at occupied
    rw [StableList.back?, List.getLast?_eq_none_iff, StableList.toList, List.map_eq_nil_iff] at empty
    rw [empty] at occupied
    cases occupied
  · rename_i last back
    have member : last.1 ∈ cache.index := by
      rw [cache.agree.mem_iff]
      exact List.mem_map_of_mem (List.mem_of_getLast? back)
    refine ⟨?_, rfl⟩
    rw [size, size, AList.keys_erase, List.length_erase_of_mem (AList.mem_keys.mp member)]
    omega

/-- Eviction from a full cache makes room. -/
theorem evictLru_size_lt (full : capacity.value ≤ cache.size) :
    cache.evictLru.size < capacity.value := by
  have fewer := (evictLru_counts (Nat.lt_of_lt_of_le capacity.positive full)).1
  have bounded : cache.size ≤ capacity.value := cache.bounded
  omega

/-- The cache `put` inserts a new key into. -/
def makeRoom (cache : LruCache K V capacity) : LruCache K V capacity :=
  if capacity.value ≤ cache.size then cache.evictLru else cache

/-- Making room does not bring a key in. -/
theorem makeRoom_absent (absent : key ∉ cache.index) :
    key ∉ cache.makeRoom.index := by
  unfold makeRoom
  split
  · exact evictLru_absent absent
  · exact absent

/-- After making room there is room. -/
theorem makeRoom_size_lt (cache : LruCache K V capacity) :
    cache.makeRoom.size < capacity.value := by
  unfold makeRoom
  split
  · rename_i full
    exact evictLru_size_lt full
  · rename_i room
    exact Nat.not_le.mp room

/-- Store a value: overwrite and mark a present key, or insert a new one at the
front. -/
def put (cache : LruCache K V capacity) (key : K) (value : V) : LruCache K V capacity :=
  match found : cache.index.lookup key with
  | some handle =>
      { cache with
        entries := (cache.entries.set handle (key, value)).spliceFront handle
        metrics := { cache.metrics with updates := cache.metrics.updates + 1 }
        agree := (cache.agree.set found).spliceFront handle }
  | none =>
      let room := cache.makeRoom
      { entries := room.entries.pushFront (key, value)
        index := room.index.insert key room.entries.next
        metrics := { room.metrics with insertions := room.metrics.insertions + 1 }
        agree := room.agree.pushFront (key, value)
          (makeRoom_absent (AList.lookup_eq_none.mp found))
        bounded := by
          rw [AList.keys_insert, List.length_cons]
          exact Nat.le_trans (Nat.succ_le_succ List.length_erase_le) cache.makeRoom_size_lt }

/-- `erase`, and whether there was an entry. -/
def erase (cache : LruCache K V capacity) (key : K) : Bool × LruCache K V capacity :=
  match found : cache.index.lookup key with
  | none => (false, cache)
  | some handle =>
      (true,
        { cache with
          entries := cache.entries.erase handle
          index := cache.index.erase key
          agree := cache.agree.erase found
          bounded := by
            rw [AList.keys_erase]
            exact Nat.le_trans List.length_erase_le cache.bounded })

/-- Drop all entries and keep the counters. -/
def clear (cache : LruCache K V capacity) : LruCache K V capacity :=
  { cache with
    entries := StableList.empty
    index := ∅
    agree := StableList.Indexes.empty
    bounded := Nat.zero_le _ }

/-- Whether there is an entry, without using it. -/
def contains (cache : LruCache K V capacity) (key : K) : Bool := decide (key ∈ cache.index)

/-! ## What the operations keep -/

theorem nodup_keys (cache : LruCache K V capacity) : (cache.toList.map Prod.fst).Nodup :=
  cache.agree.nodup_keys

/-- A lookup keeps the entries. -/
theorem mem_toList_get :
    entry ∈ (cache.get key).2.toList ↔ entry ∈ cache.toList := by
  unfold get
  split
  · rfl
  · exact ((cache.entries.spliceFront_perm _).map Prod.snd).mem_iff

/-- Making room only takes entries away. -/
theorem mem_toList_makeRoom (member : entry ∈ cache.makeRoom.toList) : entry ∈ cache.toList := by
  unfold makeRoom evictLru at member
  split at member
  · split at member
    · exact member
    · obtain ⟨node, present, rfl⟩ := List.mem_map.mp member
      exact List.mem_map_of_mem (List.dropLast_subset _ present)
  · exact member

/-- After a put the cache holds the new entry and entries it held before. -/
theorem mem_toList_put {value : V} (member : entry ∈ (cache.put key value).toList) :
    entry = (key, value) ∨ entry ∈ cache.toList := by
  unfold put at member
  split at member
  · rename_i handle _
    have member := ((StableList.spliceFront_perm _ handle).map Prod.snd).mem_iff.mp member
    obtain ⟨node, present, rfl⟩ := List.mem_map.mp member
    rcases (StableList.mem_set ..).mp present with ⟨_, earlier⟩ | ⟨same, _⟩
    · exact Or.inr (List.mem_map_of_mem earlier)
    · exact Or.inl (by rw [same])
  · rcases List.mem_cons.mp member with same | earlier
    · exact Or.inl same
    · exact Or.inr (mem_toList_makeRoom earlier)

/-- Erasing only takes entries away. -/
theorem mem_toList_erase (member : entry ∈ (cache.erase key).2.toList) : entry ∈ cache.toList := by
  unfold erase at member
  split at member
  · exact member
  · obtain ⟨node, present, rfl⟩ := List.mem_map.mp member
    exact List.mem_map_of_mem ((StableList.mem_erase ..).mp present).1

end LruCache

end Lrd.Cache
