import Lrd.Cache.ShardProduct

/-!
# More capacity never loses a hit

Two caches of different capacities are given the same operations. The smaller one then
holds a part of what the larger one holds, in the same order of use. That alone would not
last: a key that only the larger one holds may be used and come before the others, and the
larger one must not then evict what the smaller one keeps. So the larger one is, besides,
never ahead by more entries than it has more room (`Covers.ahead`): when it is full, the
smaller one is full too, and both lose their last entry.
-/

namespace Lrd.Cache

open Foundation Common

namespace Reference

variable {K V : Type} [DecidableEq K] {key : K} {entries small large : List (K × V)}

/-- Taking a key out that is not there changes nothing. -/
theorem without_of_absent (absent : key ∉ entries.map Prod.fst) : without entries key = entries := by
  apply List.filter_eq_self.mpr
  intro entry member
  rw [decide_eq_true_eq]
  intro same
  rw [← same] at absent
  exact absent (List.mem_map_of_mem member)

/-- A held key has one entry to leave out. -/
theorem length_without (distinct : (entries.map Prod.fst).Nodup)
    (held : key ∈ entries.map Prod.fst) : (without entries key).length + 1 = entries.length := by
  induction entries with
  | nil => cases held
  | cons entry entries ih =>
      rw [List.map_cons, List.nodup_cons] at distinct
      by_cases same : entry.1 = key
      · subst same
        rw [without, List.filter_cons_of_neg (by simp), ← without, without_of_absent distinct.1,
          List.length_cons]
      · have later : key ∈ entries.map Prod.fst := by
          rw [List.map_cons] at held
          exact List.mem_of_ne_of_mem (Ne.symm same) held
        rw [without, List.filter_cons_of_pos (by simpa using same), ← without, List.length_cons,
          ih distinct.2 later, List.length_cons]

/-- What does not have the key is still part of what is left without it. -/
theorem sublist_without (order : small.Sublist large) (absent : key ∉ small.map Prod.fst) :
    small.Sublist (without large key) := by
  rw [← without_of_absent absent]
  exact order.filter _

end Reference

/-- Parts stay parts when both lose their last entry. -/
theorem dropLast_sublist_dropLast {α : Type} {small large : List α} (order : small.Sublist large) :
    small.dropLast.Sublist large.dropLast := by
  rw [← List.reverse_sublist, ← List.tail_reverse, ← List.tail_reverse]
  exact order.reverse.tail

/-- The smaller cache holds a part of what the larger one holds, in the same order, and the
larger one is ahead by no more entries than it has more room. -/
structure Covers {K V : Type} [DecidableEq K] {room more : Capacity} (small : LruCache K V room)
    (large : LruCache K V more) : Prop where
  order : small.toList.Sublist large.toList
  ahead : large.toList.length + room.value ≤ small.toList.length + more.value

namespace Covers

open Reference

variable {K V : Type} [DecidableEq K] {room more : Capacity} {small : LruCache K V room}
  {large : LruCache K V more}

theorem clear (wider : room.value ≤ more.value) : Covers small.clear large.clear where
  order := List.Sublist.refl _
  ahead := Nat.add_le_add_left wider 0

/-- At first the larger cache covers the smaller one. -/
theorem create (K V : Type) [DecidableEq K] (wider : room.value ≤ more.value) :
    Covers (LruCache.create K V room) (LruCache.create K V more) where
  order := List.Sublist.refl _
  ahead := Nat.add_le_add_left wider 0

theorem keys (covers : Covers small large) {key : K} (held : key ∈ small.toList.map Prod.fst) :
    key ∈ large.toList.map Prod.fst :=
  (covers.order.map Prod.fst).subset held

/-- What the smaller cache finds, the larger one finds. -/
theorem lookup (covers : Covers small large) {key : K} {value : V}
    (held : small.toList.lookup key = some value) : large.toList.lookup key = some value :=
  lookup_of_mem large.nodup_keys (covers.order.subset (mem_of_lookup held))

/-- Covering is about the lists. -/
theorem of_lists {left right : List (K × V)} (held : small.toList = left)
    (heldMore : large.toList = right) (order : left.Sublist right)
    (ahead : right.length + room.value ≤ left.length + more.value) : Covers small large := by
  subst held heldMore
  exact ⟨order, ahead⟩

/-- A lookup keeps the cover, though it may hit in the larger cache only. -/
theorem get (covers : Covers small large) (key : K) :
    Covers (small.get key).2 (large.get key).2 := by
  cases inSmall : small.toList.lookup key with
  | some value =>
      have inLarge := covers.lookup inSmall
      have smallSize := length_without small.nodup_keys
        (List.mem_map_of_mem (f := Prod.fst) (mem_of_lookup inSmall))
      have largeSize := length_without large.nodup_keys
        (List.mem_map_of_mem (f := Prod.fst) (mem_of_lookup inLarge))
      apply of_lists (small.get_hit inSmall).2 (large.get_hit inLarge).2
      · exact (covers.order.filter _).cons_cons _
      · rw [List.length_cons, List.length_cons, smallSize, largeSize]
        exact covers.ahead
  | none =>
      cases inLarge : large.toList.lookup key with
      | none =>
          exact of_lists (small.get_miss inSmall).2 (large.get_miss inLarge).2 covers.order
            covers.ahead
      | some value =>
          -- Only the larger cache has the key to move to its front.
          have largeSize := length_without large.nodup_keys
            (List.mem_map_of_mem (f := Prod.fst) (mem_of_lookup inLarge))
          apply of_lists (small.get_miss inSmall).2 (large.get_hit inLarge).2
          · exact (sublist_without covers.order (lookup_eq_none_iff_not_mem.mp inSmall)).cons _
          · rw [List.length_cons, largeSize]
            exact covers.ahead

/-- A put keeps the cover, though the two may evict different entries. -/
theorem put (covers : Covers small large) (key : K) (value : V) :
    Covers (small.put key value) (large.put key value) := by
  have ahead := covers.ahead
  have roomy := room.positive
  have wide := more.positive
  have bounded : small.toList.length ≤ room.value := by
    rw [← small.size_eq]
    exact small.bounded
  have afterSmall := small.toList_put key value
  have afterLarge := large.toList_put key value
  rw [store] at afterSmall afterLarge
  by_cases inSmall : key ∈ small.toList.map Prod.fst
  · have inLarge := covers.keys inSmall
    rw [if_pos inSmall] at afterSmall
    rw [if_pos inLarge] at afterLarge
    apply of_lists afterSmall afterLarge
    · exact (covers.order.filter _).cons_cons _
    · rw [List.length_cons, List.length_cons, length_without small.nodup_keys inSmall,
        length_without large.nodup_keys inLarge]
      exact ahead
  rw [if_neg inSmall] at afterSmall
  by_cases inLarge : key ∈ large.toList.map Prod.fst
  · have part := sublist_without covers.order inSmall
    have size := length_without large.nodup_keys inLarge
    rw [if_pos inLarge] at afterLarge
    by_cases full : room.value ≤ small.toList.length
    · rw [if_pos full] at afterSmall
      apply of_lists afterSmall afterLarge
      · exact ((List.dropLast_sublist _).trans part).cons_cons _
      · rw [List.length_cons, List.length_cons, List.length_dropLast]
        omega
    · rw [if_neg full] at afterSmall
      apply of_lists afterSmall afterLarge
      · exact part.cons_cons _
      · rw [List.length_cons, List.length_cons]
        omega
  rw [if_neg inLarge] at afterLarge
  by_cases largeFull : more.value ≤ large.toList.length
  · -- A full larger cache is ahead by all it may be, so the smaller one is full.
    have smallFull : room.value ≤ small.toList.length := by omega
    rw [if_pos smallFull] at afterSmall
    rw [if_pos largeFull] at afterLarge
    apply of_lists afterSmall afterLarge
    · exact (dropLast_sublist_dropLast covers.order).cons_cons _
    · rw [List.length_cons, List.length_cons, List.length_dropLast, List.length_dropLast]
      omega
  rw [if_neg largeFull] at afterLarge
  by_cases smallFull : room.value ≤ small.toList.length
  · rw [if_pos smallFull] at afterSmall
    apply of_lists afterSmall afterLarge
    · exact ((List.dropLast_sublist _).trans covers.order).cons_cons _
    · rw [List.length_cons, List.length_cons, List.length_dropLast]
      omega
  · rw [if_neg smallFull] at afterSmall
    apply of_lists afterSmall afterLarge
    · exact covers.order.cons_cons _
    · rw [List.length_cons, List.length_cons]
      omega

/-- Erasing keeps the cover. -/
theorem erase (covers : Covers small large) (key : K) :
    Covers (small.erase key).2 (large.erase key).2 := by
  have ahead := covers.ahead
  apply of_lists (small.erase_eq key).2 (large.erase_eq key).2
  · exact covers.order.filter _
  · by_cases inSmall : key ∈ small.toList.map Prod.fst
    · have smallSize := length_without small.nodup_keys inSmall
      have largeSize := length_without large.nodup_keys (covers.keys inSmall)
      omega
    · have shorter := (without_sublist large.toList key).length_le
      rw [without_of_absent inSmall]
      omega

/-- Every operation keeps the smaller cache within the larger one. -/
theorem step (wider : room.value ≤ more.value) (covers : Covers small large)
    (operation : CacheOperation K V) :
    Covers ((LockedCache.machine K V room).step small operation).2
      ((LockedCache.machine K V more).step large operation).2 := by
  cases operation with
  | get key => exact covers.get key
  | peek key => exact covers
  | put key value => exact covers.put key value
  | erase key => exact covers.erase key
  | clear => exact clear wider

/-- And so does every sequence of them. -/
theorem run (wider : room.value ≤ more.value) (operations : List (CacheOperation K V)) :
    Covers ((LockedCache.machine K V room).run (LruCache.create K V room) operations).2
      ((LockedCache.machine K V more).run (LruCache.create K V more) operations).2 :=
  Machine.run_relates Covers (fun _ _ operation covers => covers.step wider operation)
    (create K V wider) operations

/-- A hit of the smaller cache is a hit of the larger one. -/
theorem hit (covers : Covers small large) {key : K} {value : V}
    (found : (small.get key).1 = some value) : (large.get key).1 = some value := by
  rw [LruCache.get_fst] at found ⊢
  exact covers.lookup found

end Covers

/-- More capacity never loses a hit. After every sequence of operations on two caches, the
entries of the smaller one are, in the order of their use, a part of those of the larger
one, and what the smaller one finds under a key is what the larger one finds. The same
holds of two sharded caches with one number of shards, shard by shard. -/
theorem larger_cache_keeps_hits {K V : Type} [DecidableEq K] :
    (∀ room more : Capacity, room.value ≤ more.value →
      ∀ operations : List (CacheOperation K V),
        let small := ((LockedCache.machine K V room).run (LruCache.create K V room) operations).2
        let large := ((LockedCache.machine K V more).run (LruCache.create K V more) operations).2
        small.toList.Sublist large.toList ∧
          ∀ key value, (small.get key).1 = some value → (large.get key).1 = some value) ∧
      ∀ (hash : K → UInt64) (shards : ShardCount) (capacity more : UInt64)
        (enough : shards.count ≤ capacity) (wider : capacity ≤ more),
        ∀ operations : List (CacheOperation K V),
          let small := (ShardedCache.ran K V hash ⟨capacity, shards, enough⟩ operations).2
          let large :=
            (ShardedCache.ran K V hash ⟨more, shards, UInt64.le_trans enough wider⟩ operations).2
          (∀ index : Fin shards.size,
            (small.snapshotShard index).Sublist (large.snapshotShard index)) ∧
            ∀ key value, (small.get key).1 = some value → (large.get key).1 = some value := by
  constructor
  · intro room more wider operations small large
    have covers : Covers small large := Covers.run wider operations
    exact ⟨covers.order, fun key value => covers.hit⟩
  · intro hash shards capacity more enough wider operations small large
    have shares : (CacheSettings.perShard ⟨capacity, shards, enough⟩).value ≤
        (CacheSettings.perShard ⟨more, shards, UInt64.le_trans enough wider⟩).value := by
      simp only [CacheSettings.perShard, UInt64.toNat_div]
      exact Nat.div_le_div_right (UInt64.le_iff_toNat_le.mp wider)
    have covers : ∀ index : Fin shards.size,
        Covers (small.shards index) (large.shards index) := by
      intro index
      rw [ShardedCache.shards_ran, ShardedCache.shards_ran]
      exact Covers.run shares _
    exact ⟨fun index => (covers index).order, fun key value => (covers _).hit⟩

/-- With room for one entry only the last one used is left; with room for two it is found
as well, and the key used between the two puts has not cost it its place. -/
theorem larger_cache_keeps_hits_of_two :
    (((LockedCache.machine Nat Nat ⟨2, Nat.two_pos⟩).run (LruCache.create Nat Nat ⟨2, Nat.two_pos⟩)
        [.put 1 10, .put 2 20, .get 1, .put 3 30, .get 3]).2.get 3).1 = some 30 ∧
      ((ShardedCache.ran Nat Nat UInt64.ofNat ⟨2, ⟨1, by decide⟩, by decide⟩
        [.put 1 10, .put 2 20, .get 1, .put 3 30, .get 3]).2.get 3).1 = some 30 :=
  ⟨(larger_cache_keeps_hits.1 ⟨1, Nat.one_pos⟩ ⟨2, Nat.two_pos⟩ (by decide) _).2 3 30
      (by decide +kernel),
    (larger_cache_keeps_hits.2 UInt64.ofNat ⟨1, by decide⟩ 1 2 (by decide) (by decide) _).2 3 30
      (by decide +kernel)⟩

end Lrd.Cache
