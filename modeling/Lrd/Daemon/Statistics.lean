import Lrd.Daemon.Answers
import Lrd.Daemon.ExactCounters
import Lrd.Policy.Tracking
import Mathlib.Data.Set.Card

/-!
# Statistics

The numbers of `stats` come from three owners: the handler's atomic counters, the metrics
of the cache shards and the exposure store. Every request bumps a fixed list of counters
given its answer (`bumps`), so after a run the counters are tallies of the transcript
(`AddsUp`), and so are the cache's hits, misses and erased entries. The identities between
the published numbers are then identities between tallies (`statistics_add_up`).
-/

namespace Lrd.Daemon

open Foundation Common Rank Policy Cache Proto CandidateSelector

variable {D : Type} {config : Config D}

/-! ## What a request counts -/

/-- A lookup was answered with an item. -/
def found (response : Response D) : Bool :=
  match response.body with
  | .getItemResult status _ => status = .ok
  | _ => false

/-- A delete found something to delete. -/
def deleted (response : Response D) : Bool :=
  match response.body with
  | .deleteItemResult status => status = .ok
  | _ => false

/-- Whether statistics are asked for. -/
def isStats (request : Request D) : Bool :=
  match request.body with
  | .getStats => true
  | _ => false

/-- The counters that a request bumps, given its answer. -/
def bumps (request : Request D) (response : Response D) : List Counter :=
  .requests ::
    match request.body with
    | .getItem _ => [.gets, if found response then .hits else .misses]
    | .putItem _ => [.puts]
    | .deleteItem _ => [.deletes]
    | .getStats => []
    | .recommend _ => [.recommends]

/-- The counters after some of them were bumped. -/
def counted (counters : Counter → UInt64) (bumped : List Counter) (counter : Counter) : UInt64 :=
  counters counter + UInt64.ofNat (bumped.count counter)

/-- Counting one counter after the other. -/
theorem counted_cons (counters : Counter → UInt64) (counter : Counter) (bumped : List Counter) :
    counted counters (counter :: bumped) =
      counted (Function.update counters counter (counters counter + 1)) bumped := by
  funext other
  by_cases same : other = counter
  · rw [same, counted, counted, Function.update_self, List.count_cons_self, Nat.add_comm,
      UInt64.ofNat_add, UInt64.add_assoc]
    rfl
  · rw [counted, counted, Function.update_of_ne same, List.count_cons_of_ne (Ne.symm same)]

theorem counted_nil (counters : Counter → UInt64) : counted counters [] = counters := by
  funext counter
  exact UInt64.add_zero _

section Requests

variable [Scalar D] (state : State config) (now : Timestamp)

/-- A lookup run alone. -/
theorem respond_getItem (requestId : UInt64) (id : ItemId) :
    found (respond state now ⟨requestId, .getItem id⟩).1 = (state.cache.get id).1.isSome ∧
      (respond state now ⟨requestId, .getItem id⟩).2.counters =
        counted state.counters
          [.requests, .gets, if (state.cache.get id).1.isSome then .hits else .misses] := by
  simp only [respond, handle, dispatch, onGet, Program.run_bind, counted_cons, counted_nil]
  split
  · rename_i missing
    have none : (state.cache.get id).1 = none := missing
    rw [none]
    exact ⟨rfl, rfl⟩
  · rename_i item held
    have some : (state.cache.get id).1 = some item := held
    rw [some]
    exact ⟨rfl, rfl⟩

/-- Whether a deletion has deleted anything. -/
theorem deleted_respond (requestId : UInt64) (id : ItemId) :
    deleted (respond state now ⟨requestId, .deleteItem id⟩).1 = (state.cache.erase id).1 := by
  change decide ((if (state.cache.erase id).1 then StatusCode.ok else .notFound) = .ok) = _
  cases (state.cache.erase id).1 with
  | true => rfl
  | false => rfl

/-- Only a delete deletes. -/
theorem not_deleted_respond {request : Request D} (other : ∀ id, request.body ≠ .deleteItem id) :
    deleted (respond state now request).1 = false := by
  obtain ⟨_, _, _, _, answered⟩ := (traces_answered request).of_run (perform now) state
  change Answered request.body _ (respond state now request).1.body at answered
  unfold deleted
  generalize request.body = body at answered other
  generalize (respond state now request).1.body = result at answered ⊢
  cases answered with
  | deleted id _ => exact absurd rfl (other id)
  | _ => rfl

/-- What a request counts. -/
theorem respond_counters (request : Request D) :
    (respond state now request).2.counters =
      counted state.counters (bumps request (respond state now request).1) := by
  obtain ⟨requestId, body⟩ := request
  cases body with
  | getItem id =>
      obtain ⟨answered, counters⟩ := respond_getItem state now requestId id
      rw [counters, bumps, answered]
  | putItem item =>
      simp only [bumps, counted_cons, counted_nil]
      simp only [respond, handle, dispatch, onPut, Program.run_bind]
      split
      · rfl
      · split
        · rfl
        · rfl
  | deleteItem id =>
      simp only [bumps, counted_cons, counted_nil]
      rfl
  | getStats =>
      simp only [bumps, counted_cons, counted_nil]
      simp only [respond, handle, dispatch, onStats, publishedStats, Program.run_bind, run_stats]
      rfl
  | recommend recommend =>
      have clock : ∀ current : State config,
          (step .clock : Program (steps config) Timestamp).run (perform now) current =
            (now, current) := fun _ => rfl
      simp only [bumps, counted_cons, counted_nil]
      simp only [respond, handle, dispatch, onRecommend, Program.run_bind]
      split
      · rfl
      · split
        · rfl
        · simp only [Program.run_bind, run_scanShards, select_eq, clock]
          cases recommend.dryRun with
          | true =>
              rw [run_selectLoop_dry]
              rfl
          | false =>
              rw [run_selectLoop_live]
              rfl

/-- A request that neither looks an item up nor deletes one counts no hit, no miss and no
erased entry. -/
theorem metrics_other {request : Request D} {cache : ItemCache D config.cache}
    (noLookup : ∀ id, request.body ≠ .getItem id)
    (noDelete : ∀ id, request.body ≠ .deleteItem id)
    (hits : cache.metrics.hits = state.cache.metrics.hits)
    (misses : cache.metrics.misses = state.cache.metrics.misses)
    (erased : cache.outstanding = state.cache.outstanding) :
    cache.metrics.hits = state.cache.metrics.hits +
        UInt64.ofNat ((bumps request (respond state now request).1).count .hits) ∧
      cache.metrics.misses = state.cache.metrics.misses +
        UInt64.ofNat ((bumps request (respond state now request).1).count .misses) ∧
      cache.outstanding = state.cache.outstanding +
        UInt64.ofNat (deleted (respond state now request).1).toNat := by
  rw [hits, misses, erased, not_deleted_respond state now noDelete]
  obtain ⟨requestId, body⟩ := request
  cases body with
  | getItem id => exact absurd rfl (noLookup id)
  | _ => simp [bumps]

/-- The cache's metrics follow the counters, and an entry is erased by a delete only. -/
theorem respond_metrics (request : Request D) :
    (respond state now request).2.cache.metrics.hits = state.cache.metrics.hits +
        UInt64.ofNat ((bumps request (respond state now request).1).count .hits) ∧
      (respond state now request).2.cache.metrics.misses = state.cache.metrics.misses +
        UInt64.ofNat ((bumps request (respond state now request).1).count .misses) ∧
      (respond state now request).2.cache.outstanding = state.cache.outstanding +
        UInt64.ofNat (deleted (respond state now request).1).toNat := by
  rw [respond_cache]
  obtain ⟨requestId, body⟩ := request
  cases body with
  | getItem id =>
      obtain ⟨hits, misses, erased⟩ := state.cache.lookups_get id
      obtain ⟨answered, _⟩ := respond_getItem state now requestId id
      rw [not_deleted_respond state now (by simp)]
      simp only [cacheAfter, bumps, answered, hits, misses, erased]
      cases (state.cache.get id).1 with
      | none => simp
      | some item => simp
  | putItem item =>
      simp only [cacheAfter]
      split
      · obtain ⟨hits, misses, erased⟩ := state.cache.lookups_put item.id item
        exact metrics_other state now (by simp) (by simp) hits misses erased
      · exact metrics_other state now (by simp) (by simp) rfl rfl rfl
  | deleteItem id =>
      obtain ⟨hits, misses, erased⟩ := state.cache.lookups_erase id
      rw [deleted_respond]
      simp [cacheAfter, bumps, hits, misses, erased]
  | getStats => exact metrics_other state now (by simp) (by simp) rfl rfl rfl
  | recommend recommend => exact metrics_other state now (by simp) (by simp) rfl rfl rfl

end Requests

/-! ## Tallies of a transcript -/

/-- How often a counter was bumped. -/
def tally (counter : Counter) (transcript : List ((Request D × Timestamp) × Response D)) : Nat :=
  (transcript.map fun entry => (bumps entry.1.1 entry.2).count counter).sum

section Tallies

variable (transcript : List ((Request D × Timestamp) × Response D))

theorem tally_snoc (counter : Counter) (entry : (Request D × Timestamp) × Response D) :
    tally counter (transcript ++ [entry]) =
      tally counter transcript + (bumps entry.1.1 entry.2).count counter := by
  simp [tally]

/-- Every request is of one kind. -/
theorem tally_requests :
    tally .requests transcript =
      tally .gets transcript + tally .puts transcript + tally .deletes transcript +
        tally .recommends transcript + transcript.countP (fun entry => isStats entry.1.1) := by
  induction transcript using List.reverseRecOn with
  | nil => rfl
  | append_singleton transcript entry ih =>
      obtain ⟨⟨⟨requestId, body⟩, now⟩, response⟩ := entry
      simp only [tally_snoc, List.countP_append, ih]
      cases body with
      | getItem id => cases answered : found response <;> simp [bumps, isStats, answered] <;> omega
      | putItem item => simp [bumps, isStats]; omega
      | deleteItem id => simp [bumps, isStats]; omega
      | getStats => simp [bumps, isStats]; omega
      | recommend recommend => simp [bumps, isStats]; omega

/-- Every lookup is a hit or a miss. -/
theorem tally_gets :
    tally .gets transcript = tally .hits transcript + tally .misses transcript := by
  induction transcript using List.reverseRecOn with
  | nil => rfl
  | append_singleton transcript entry ih =>
      obtain ⟨⟨⟨requestId, body⟩, now⟩, response⟩ := entry
      simp only [tally_snoc, ih]
      cases body with
      | getItem id => cases answered : found response <;> simp [bumps, answered] <;> omega
      | putItem item => simp [bumps]
      | deleteItem id => simp [bumps]
      | getStats => simp [bumps]
      | recommend recommend => simp [bumps]

end Tallies

/-- The counters and the cache's metrics are tallies of the transcript, and the exposure
store is in order. -/
structure AddsUp (transcript : List ((Request D × Timestamp) × Response D))
    (state : State config) : Prop where
  counters : ∀ counter, state.counters counter = UInt64.ofNat (tally counter transcript)
  hits : state.cache.metrics.hits = UInt64.ofNat (tally .hits transcript)
  misses : state.cache.metrics.misses = UInt64.ofNat (tally .misses transcript)
  erased : state.cache.outstanding =
    UInt64.ofNat (transcript.countP fun entry => deleted entry.2)
  policy : ∃ shown, state.policy.InOrder shown

theorem trackedItems_eq (store : ExposureStore config.policy) :
    trackedItems store = store.tracked := by
  rw [trackedItems, ExposureStore.tracked, List.sum_eq_foldl, List.foldl_map]

section Runs

variable [FloatScalar D]

/-- Every step keeps the shards in order. -/
theorem perform_policy_inOrder (now : Timestamp) (op : Op config) (state : State config)
    (inOrder : ∃ shown, state.policy.InOrder shown) :
    ∃ shown, (perform now op state).2.policy.InOrder shown := by
  obtain ⟨shown, inOrder⟩ := inOrder
  cases op with
  | reserve id instant => exact ⟨_, inOrder.reserve D id instant⟩
  | _ => exact ⟨shown, inOrder⟩

/-- Handling a request keeps the tallies. -/
theorem AddsUp.step {transcript : List ((Request D × Timestamp) × Response D)}
    {state : State config} (adds : AddsUp transcript state) (entry : Request D × Timestamp) :
    AddsUp (transcript ++ [(entry, (respond state entry.2 entry.1).1)])
      (respond state entry.2 entry.1).2 := by
  obtain ⟨hits, misses, erased⟩ := respond_metrics state entry.2 entry.1
  refine ⟨?_, ?_, ?_, ?_, ?_⟩
  · intro counter
    rw [respond_counters, counted, adds.counters, tally_snoc, UInt64.ofNat_add]
  · rw [hits, adds.hits, tally_snoc, UInt64.ofNat_add]
  · rw [misses, adds.misses, tally_snoc, UInt64.ofNat_add]
  · rw [erased, adds.erased, List.countP_append, UInt64.ofNat_add, List.countP_singleton]
    cases deleted (respond state entry.2 entry.1).1 with
    | true => rfl
    | false => rfl
  · exact Program.run_preserves (fun state : State config => ∃ shown, state.policy.InOrder shown)
      (perform_policy_inOrder entry.2) _ adds.policy

/-- The statistics add up after all requests. -/
theorem addsUp_run (config : Config D) (requests : List (Request D × Timestamp)) :
    AddsUp ((sequential config).run (State.initial config) requests).1
      ((sequential config).run (State.initial config) requests).2 := by
  refine Machine.run_invariant AddsUp ?_ ?_ requests
  · obtain ⟨hits, misses, erased⟩ :=
      ShardedCache.lookups_create ItemId (Item D) (fun id => id) config.cache
    exact ⟨fun _ => rfl, hits, misses, erased, [], fun index => Shard.InOrder.empty _ index⟩
  · intro transcript state entry adds
    exact adds.step entry

/-- The ids that a lookup would find are those the cache holds. -/
theorem ncard_found (state : State config) (requestId : UInt64) (now : Timestamp) :
    Set.ncard {id | found (respond state now ⟨requestId, .getItem id⟩).1 = true} =
      state.cache.size := by
  have same : {id | found (respond state now ⟨requestId, .getItem id⟩).1 = true} =
      ((state.cache.held.map Prod.fst).toFinset : Set ItemId) := by
    ext id
    rw [Set.mem_ofPred_eq, (respond_getItem state now requestId id).1, ShardedCache.get_fst,
      Option.isSome_iff_exists, Finset.mem_coe, List.mem_toFinset, List.mem_map]
    constructor
    · rintro ⟨item, held⟩
      exact ⟨(id, item), (state.cache.mem_held_iff id item).mpr held, rfl⟩
    · rintro ⟨⟨_, item⟩, held, rfl⟩
      exact ⟨item, (state.cache.mem_held_iff _ item).mp held⟩
  rw [same, Set.ncard_coe_finset, List.toFinset_card_of_nodup state.cache.nodup_keys,
    List.length_map, ShardedCache.size_eq_length_held]

/-- **Exact statistics add up.** After every sequence of handled requests the statistics
satisfy, in 64-bit arithmetic: the requests are the lookups, puts, deletes, recommendations
and requests for statistics; the lookups are the hits and the misses, which are the cache's
own; the entries are the cache's insertions less its evictions and the successful deletes,
no more than the capacity, and as many as there are ids that a lookup would find; and no
more items are tracked than configured. -/
theorem statistics_add_up (config : Config D) (requests : List (Request D × Timestamp))
    (now : Timestamp) :
    let transcript := ((sequential config).run (State.initial config) requests).1
    let state := ((sequential config).run (State.initial config) requests).2
    let exact := (stats.run (perform now) state).1
    exact.requests = exact.gets + exact.puts + exact.deletes + exact.recommends +
        UInt64.ofNat (requests.countP fun entry => isStats entry.1) ∧
      (exact.gets = exact.hits + exact.misses ∧ exact.hits = state.cache.metrics.hits ∧
        exact.misses = state.cache.metrics.misses) ∧
      (exact.entries = state.cache.metrics.insertions - state.cache.metrics.evictions -
          UInt64.ofNat (transcript.countP fun entry => deleted entry.2) ∧
        exact.entries ≤ exact.capacity) ∧
      (∀ requestId later,
        Set.ncard {id | found (respond state later ⟨requestId, .getItem id⟩).1 = true} =
          exact.entries.toNat) ∧
      exact.policyTracked ≤ config.policy.config.maxTrackedItems := by
  intro transcript state exact
  have adds : AddsUp transcript state := addsUp_run config requests
  have reads : exact = _ := congrArg Prod.fst (run_stats now state)
  have entries : exact.entries.toNat = state.cache.size := by
    rw [reads]
    have bounded := state.cache.size_le
    have small := config.cache.capacity.toNat_lt
    exact (UInt64.toNat_ofNat' ..).trans (Nat.mod_eq_of_lt (by omega))
  refine ⟨?_, ⟨?_, ?_, ?_⟩, ⟨?_, ?_⟩, ?_, ?_⟩
  · have inputs := Machine.run_inputs (sequential config) (State.initial config) requests
    have asked : requests.countP (fun entry => isStats entry.1) =
        transcript.countP (fun entry => isStats entry.1.1) := by
      rw [← inputs, List.countP_map]
      rfl
    rw [reads, asked]
    simp only [adds.counters, tally_requests, UInt64.ofNat_add]
  · rw [reads]
    simp only [adds.counters, tally_gets, UInt64.ofNat_add]
  · rw [reads, adds.hits]
    exact adds.counters .hits
  · rw [reads, adds.misses]
    exact adds.counters .misses
  · rw [reads, ← adds.erased, ShardedCache.outstanding]
    grind
  · rw [UInt64.le_iff_toNat_le, entries, reads]
    exact state.cache.size_le
  · intro requestId later
    rw [entries]
    exact ncard_found state requestId later
  · obtain ⟨shown, inOrder⟩ := adds.policy
    rw [reads]
    exact (trackedItems_eq state.policy).trans_le inOrder.tracked_le

end Runs

end Lrd.Daemon
