import Lrd.Cache.Residents
import Lrd.Daemon.Statistics

/-!
# How long an item stays

Of the requests that the daemon completes, an accepted put and a lookup that finds its item
use the item's id, and a delete drops it; nothing else moves an entry. So an item that was
used is found again, as it was last stored, exactly if since then the other ids of its shard
that were used and not deleted never took all places of that shard (`retention_exact`).
-/

namespace Lrd.Daemon

open Foundation Common Rank Policy Cache Proto

variable {D : Type} {config : Config D}

/-- What a completed request did to an id. -/
def touchOf (entry : (Request D × Timestamp) × Response D) : Option (Touch ItemId) :=
  match entry.1.1.body with
  | .getItem id => if found entry.2 then some (.use id) else none
  | .putItem item => if Acceptable item then some (.use item.id) else none
  | .deleteItem id => some (.drop id)
  | _ => none

/-- What completed requests did to the ids of a shard. -/
def touchesIn (config : Config D) (index : Fin config.cache.shardCount.size)
    (transcript : List ((Request D × Timestamp) × Response D)) : List (Touch ItemId) :=
  (transcript.filterMap touchOf).filter fun touch =>
    ShardedCache.shardIndex (fun id => id) config.cache touch.key = index

/-- The touches of a shard, in two parts. -/
theorem touchesIn_append (index : Fin config.cache.shardCount.size)
    (earlier later : List ((Request D × Timestamp) × Response D)) :
    touchesIn config index (earlier ++ later) =
      touchesIn config index earlier ++ touchesIn config index later := by
  rw [touchesIn, List.filterMap_append, List.filter_append]
  rfl

variable {id : ItemId}

/-- A use is a touch of its own shard. -/
theorem touchesIn_cons_use {last : (Request D × Timestamp) × Response D}
    (used : touchOf last = some (.use id)) (since : List ((Request D × Timestamp) × Response D)) :
    let index := ShardedCache.shardIndex (fun id => id) config.cache id
    touchesIn config index (last :: since) = .use id :: touchesIn config index since := by
  intro index
  rw [touchesIn, List.filterMap_cons_some used]
  exact List.filter_cons_of_pos (decide_eq_true rfl)

/-- Touching the keys of a shard, or those of another, as the cache does. -/
theorem touched_eq {cache : ItemCache D config.cache} {index : Fin config.cache.shardCount.size}
    {transcript : List ((Request D × Timestamp) × Response D)}
    (order : cache.keysIn index =
      residents config.cache.perShard.value (touchesIn config index transcript))
    (entry : (Request D × Timestamp) × Response D) :
    cache.touched index (touchOf entry) =
      residents config.cache.perShard.value (touchesIn config index (transcript ++ [entry])) := by
  rw [touchesIn_append, residents, List.foldl_append, ← residents, ← order, touchesIn]
  cases happened : touchOf entry with
  | none =>
      rw [List.filterMap_cons_none happened]
      rfl
  | some touch =>
      rw [List.filterMap_cons_some happened, List.filterMap_nil, ShardedCache.touched,
        List.filter_singleton]
      split
      · rename_i here
        rw [decide_eq_true here]
        rfl
      · rename_i elsewhere
        rw [decide_eq_false elsewhere]
        rfl

/-- Every shard holds its ids in the order in which they were last used, and under each id
what was last stored there. -/
structure Retentive (transcript : List ((Request D × Timestamp) × Response D))
    (cache : ItemCache D config.cache) : Prop where
  order : ∀ index, cache.keysIn index =
    residents config.cache.perShard.value (touchesIn config index transcript)
  current : ∀ id item, cache.peek id = some item →
    latest (catalogueWrites (transcript.map Prod.fst)) id = some (some item)

section Serving

variable [Scalar D]

/-- What a request does to the order of the cache shows in its answer. -/
theorem keysIn_cacheAfter (state : State config) (now : Timestamp) (request : Request D)
    (index : Fin config.cache.shardCount.size) :
    (cacheAfter state.cache request).keysIn index =
      state.cache.touched index (touchOf ((request, now), (respond state now request).1)) := by
  obtain ⟨requestId, body⟩ := request
  cases body with
  | getItem id =>
      simp only [touchOf, (respond_getItem state now requestId id).1, ShardedCache.get_fst]
      exact state.cache.keysIn_get index id
  | putItem item =>
      simp only [touchOf, cacheAfter]
      split
      · exact state.cache.keysIn_put index item.id item
      · rfl
  | deleteItem id => exact state.cache.keysIn_erase index id
  | getStats => rfl
  | recommend recommend => rfl

omit [Scalar D] in
/-- What is found after a request was found before it or stored by it. -/
theorem current_cacheAfter {writes : List (ItemId × Option (Item D))}
    {cache : ItemCache D config.cache}
    (current : ∀ id item, cache.peek id = some item → latest writes id = some (some item))
    (request : Request D) {item : Item D}
    (looked : (cacheAfter cache request).peek id = some item) :
    latest (writes ++ (catalogueWrite request).toList) id = some (some item) := by
  obtain ⟨requestId, body⟩ := request
  cases body with
  | getItem other =>
      have before : cache.peek id = some item := (cache.peek_get other id).symm.trans looked
      exact (congrArg (latest · id) (List.append_nil writes)).trans (current id item before)
  | putItem stored =>
      simp only [cacheAfter, catalogueWrite] at looked ⊢
      split at looked
      · rename_i acceptable
        rw [if_pos acceptable, Option.toList_some, latest_snoc]
        rcases cache.peek_put looked with ⟨rfl, rfl⟩ | ⟨different, before⟩
        · exact if_pos rfl
        · rw [if_neg (Ne.symm different)]
          exact current id item before
      · rename_i unacceptable
        rw [if_neg unacceptable, Option.toList_none, List.append_nil]
        exact current id item looked
  | deleteItem deleted =>
      have after : (cache.erase deleted).2.peek id = some item := looked
      rw [cache.peek_erase] at after
      split at after
      · cases after
      · rename_i different
        exact (latest_snoc_of_ne writes none different).trans (current id item after)
  | getStats =>
      exact (congrArg (latest · id) (List.append_nil writes)).trans (current id item looked)
  | recommend recommend =>
      exact (congrArg (latest · id) (List.append_nil writes)).trans (current id item looked)

/-- Every request keeps the record. -/
theorem retentive_step {transcript : List ((Request D × Timestamp) × Response D)}
    {state : State config} (retentive : Retentive transcript state.cache)
    (input : Request D × Timestamp) :
    Retentive (transcript ++ [(input, (respond state input.2 input.1).1)])
      (respond state input.2 input.1).2.cache := by
  rw [respond_cache]
  refine ⟨fun index => ?_, fun id item looked => ?_⟩
  · rw [keysIn_cacheAfter state input.2, touched_eq (retentive.order index)]
  · rw [List.map_append, List.map_singleton, catalogueWrites_snoc]
    exact current_cacheAfter retentive.current input.1 looked

/-- The record holds after all requests. -/
theorem retentive_run (requests : List (Request D × Timestamp)) :
    Retentive ((sequential config).run (State.initial config) requests).1
      (handledAll config requests).cache := by
  refine Machine.run_invariant (fun transcript (state : State config) =>
    Retentive transcript state.cache) ?_ ?_ requests
  · exact ⟨fun _ => rfl, fun _ _ looked => by cases looked⟩
  · intro transcript state input retentive
    exact retentive_step retentive input

/-- A lookup run alone answers what the cache finds. -/
theorem respond_getItem_fst (state : State config) (now : Timestamp) (requestId : UInt64)
    (id : ItemId) :
    (respond state now ⟨requestId, .getItem id⟩).1 = ⟨requestId,
      match state.cache.peek id with
      | none => .getItemResult .notFound (Item.empty (Scalar.ofNat 0))
      | some item => .getItemResult .ok item⟩ := by
  rw [← ShardedCache.get_fst]
  simp only [respond, handle, dispatch, onGet, Program.run_bind]
  split
  · rename_i missing
    have none : (state.cache.get id).1 = none := missing
    rw [none]
    rfl
  · rename_i item held
    have some : (state.cache.get id).1 = some item := held
    rw [some]
    rfl

/-- An item that was used, by an accepted put or by a lookup that found it, and that was
neither stored again, looked up with success nor deleted since, is found with the content
last stored under its id if at no time since then as many other ids of its shard as the
shard has places were used and not deleted; otherwise it is not found. -/
theorem retention_exact (config : Config D) {requests : List (Request D × Timestamp)}
    {past since : List ((Request D × Timestamp) × Response D)}
    {last : (Request D × Timestamp) × Response D}
    (history : ((sequential config).run (State.initial config) requests).1 = past ++ last :: since)
    (used : touchOf last = some (.use id))
    (untouched : ∀ touch ∈ since.filterMap touchOf, touch.key ≠ id) (now : Timestamp)
    (requestId : UInt64) :
    let index := ShardedCache.shardIndex (fun id => id) config.cache id
    let kept := Uncrowded config.cache.perShard.value (touchesIn config index since)
    let answer := (respond (handledAll config requests) now ⟨requestId, .getItem id⟩).1
    (kept → ∃ item, latest (catalogueWrites requests) id = some (some item) ∧
        answer = ⟨requestId, .getItemResult .ok item⟩) ∧
      (¬ kept → answer = ⟨requestId, .getItemResult .notFound (Item.empty (Scalar.ofNat 0))⟩) := by
  intro index kept answer
  have retentive : Retentive _ (handledAll config requests).cache := retentive_run requests
  have held : ((handledAll config requests).cache.peek id).isSome ↔ kept := by
    rw [← ShardedCache.mem_keysIn_iff, retentive.order, history, touchesIn_append,
      touchesIn_cons_use used]
    exact mem_residents_iff config.cache.perShard.positive _ fun touch member =>
      untouched touch (List.mem_of_mem_filter member)
  have looked : answer = _ := respond_getItem_fst (handledAll config requests) now requestId id
  rw [looked, ← held]
  cases found : (handledAll config requests).cache.peek id with
  | none => exact ⟨fun some => absurd some (Bool.false_ne_true), fun _ => rfl⟩
  | some item =>
      refine ⟨fun _ => ⟨item, ?_, rfl⟩, fun missing => absurd rfl missing⟩
      have stored := retentive.current id item found
      rwa [Machine.run_inputs] at stored

end Serving

/-- Item 1 is looked up and survives the next put; after one more it is gone. -/
theorem retention_exact_two :
    let requests := [publishing 1 1, publishing 2 1, looking 1, publishing 3 1]
    let later := requests ++ [publishing 4 1]
    (∃ item, latest (catalogueWrites requests) 1 = some (some item) ∧
        (respond (handledAll twoItems requests) ⟨0⟩ ⟨7, .getItem 1⟩).1 =
          ⟨7, .getItemResult .ok item⟩) ∧
      (respond (handledAll twoItems later) ⟨0⟩ ⟨7, .getItem 1⟩).1 =
        ⟨7, .getItemResult .notFound (Item.empty 0)⟩ := by
  intro requests later
  let earlier := (sequential twoItems).run (State.initial twoItems) [publishing 1 1, publishing 2 1]
  let looked := (sequential twoItems).step earlier.2 (looking 1)
  -- The transcript around the lookup of item 1, whatever follows it.
  have history : ∀ rest, ((sequential twoItems).run (State.initial twoItems)
      ([publishing 1 1, publishing 2 1] ++ looking 1 :: rest)).1 =
      earlier.1 ++ (looking 1, looked.1) :: ((sequential twoItems).run looked.2 rest).1 := by
    intro rest
    rw [Machine.run_append]
    exact congrArg (earlier.1 ++ ·.1) (Machine.run_cons (sequential twoItems) earlier.2 _ rest)
  have used : touchOf (looking 1, looked.1) = some (.use 1) := by decide +kernel
  have next := retention_exact twoItems (history [publishing 3 1]) used (by decide +kernel) ⟨0⟩ 7
  have last := retention_exact twoItems (history [publishing 3 1, publishing 4 1]) used
    (by decide +kernel) ⟨0⟩ 7
  exact ⟨next.1 (by decide +kernel), last.2 (by decide +kernel)⟩

end Lrd.Daemon
