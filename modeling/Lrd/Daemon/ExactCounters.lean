import Lrd.Cache.Metrics
import Lrd.Daemon.Footprint
import Lrd.Foundation.Machine
import Lrd.Foundation.Records
import Mathlib.Data.Finset.Card

/-!
# Counters that are published exactly

`published_stats` leaves the counters of puts, deletes, evictions, entries, capacity and
tracked items without noise, as data about the catalogue. The puts and deletes that were
counted follow from the puts and deletes that were given (`counts_handledAll`). But lookups
decide which entry a later put evicts, and live recommendations decide which items are
tracked.
-/

namespace Lrd.Daemon

open Foundation Common Rank Policy Cache Proto

variable {D : Type} {config : Config D}

/-! ## What the counters are read from -/

/-- A sum over shards in one go. -/
theorem run_sumShards {ι : Type} {ask : ι → Program (steps config) UInt64} {part : ι → UInt64}
    {semantics : (op : Op config) → State config → op.Answer × State config}
    {state : State config} (reads : ∀ index, (ask index).run semantics state = (part index, state))
    (indices : List ι) (total : UInt64) :
    (sumShards ask indices total).run semantics state = (total + (indices.map part).sum, state) := by
  induction indices generalizing total with
  | nil => exact Prod.ext (UInt64.add_zero _).symm rfl
  | cons index indices ih =>
      rw [sumShards, Program.run_bind, reads, ih, List.map_cons, List.sum_cons, UInt64.add_assoc]

/-- The number of items whose exposures are tracked. -/
def trackedItems (store : ExposureStore config.policy) : UInt64 :=
  ((List.finRange config.policy.shardCount.size).map fun index =>
    UInt64.ofNat (store.shards index).size).sum

section Reading

variable [Scalar D] (now : Timestamp) (state : State config)

/-- The evictions in one go. -/
theorem run_cacheEvictions :
    cacheEvictions.run (perform now) state = (state.cache.metrics.evictions, state) := by
  rw [cacheEvictions, run_sumShards (fun index => rfl), ShardedCache.metrics_eq, UInt64.zero_add]
  simp only [CacheMetrics.total, List.map_map]
  rfl

/-- The entries in one go. -/
theorem run_cacheEntries :
    cacheEntries.run (perform now) state = (UInt64.ofNat state.cache.size, state) := by
  rw [cacheEntries, run_sumShards (fun index => rfl), UInt64.zero_add, ShardedCache.size,
    ← ofNat_sum]
  rfl

/-- The metrics of the policy store in one go. -/
theorem run_policyMetrics :
    policyMetrics.run (perform now) state =
      (⟨state.policy.allowed, state.policy.exposureBlocked, state.policy.frequencyBlocked,
        state.policy.storeFullBlocked, state.policy.evicted, trackedItems state.policy⟩,
        state) := by
  simp only [policyMetrics, Program.run_bind]
  rw [run_sumShards (fun index => rfl), UInt64.zero_add]
  rfl

/-- What `stats` reads. -/
theorem run_stats :
    stats.run (perform now) state =
      ({ requests := state.counters .requests
         gets := state.counters .gets
         puts := state.counters .puts
         deletes := state.counters .deletes
         recommends := state.counters .recommends
         hits := state.counters .hits
         misses := state.counters .misses
         evictions := state.cache.metrics.evictions
         entries := UInt64.ofNat state.cache.size
         capacity := config.cache.capacity
         policyAllowed := state.policy.allowed
         policyExposureBlocked := state.policy.exposureBlocked
         policyFrequencyBlocked := state.policy.frequencyBlocked
         policyStoreFull := state.policy.storeFullBlocked
         policyTracked := trackedItems state.policy }, state) := by
  simp only [stats, Program.run_bind, run_cacheEvictions, run_cacheEntries, run_policyMetrics]
  rfl

/-- The statistics that the daemon publishes. -/
def published : Stats := (publishedStats.run (perform now) state).1

/-- The fields that are published exactly. -/
theorem published_exact :
    (published now state).puts = state.counters .puts ∧
      (published now state).deletes = state.counters .deletes ∧
      (published now state).evictions = state.cache.metrics.evictions ∧
      (published now state).entries = UInt64.ofNat state.cache.size ∧
      (published now state).capacity = config.cache.capacity ∧
      (published now state).policyTracked = trackedItems state.policy := by
  rw [published, publishedStats, Program.run_bind, run_stats, Program.run_bind]
  exact ⟨rfl, rfl, rfl, rfl, rfl, rfl⟩

end Reading

/-! ## Kinds of requests -/

/-- A put or a delete: what an advertiser does. -/
def changesCatalogue (request : Request D) : Bool :=
  match request.body with
  | .putItem _ => true
  | .deleteItem _ => true
  | _ => false

/-- A request that may change the order or the content of the cache. -/
def usesCache (request : Request D) : Bool :=
  match request.body with
  | .getItem _ => true
  | _ => changesCatalogue request

/-- A request that may change the cache or the exposure store. -/
def takesEffect (request : Request D) : Bool := usesCache request || isLive request

variable {request : Request D} {entry : Request D × Timestamp}

section Views

variable [Scalar D]

/-- What a request does to the cache. -/
def cacheAfter (cache : ItemCache D config.cache) (request : Request D) :
    ItemCache D config.cache :=
  match request.body with
  | .getItem id => (cache.get id).2
  | .putItem item => if Acceptable item then cache.put item.id item else cache
  | .deleteItem id => (cache.erase id).2
  | _ => cache

/-- A step of a request that does not use the cache leaves it. -/
theorem perform_cache (other : usesCache request = false) (now : Timestamp) {op : Op config}
    (state : State config) (permitted : Permits request op) :
    (perform now op state).2.cache = state.cache := by
  cases op with
  | cacheGet id =>
      simp only [usesCache, show request.body = .getItem id from permitted] at other
      cases other
  | cachePut item =>
      simp only [usesCache, changesCatalogue, permitted.1] at other
      cases other
  | cacheErase id =>
      simp only [usesCache, changesCatalogue, show request.body = .deleteItem id from permitted]
        at other
      cases other
  | _ => rfl

/-- What a request does to the cache. -/
theorem respond_cache (state : State config) (now : Timestamp) (request : Request D) :
    (respond state now request).2.cache = cacheAfter state.cache request := by
  obtain ⟨requestId, body⟩ := request
  cases body with
  | getItem id =>
      simp only [respond, handle, dispatch, onGet, Program.run_bind]
      split
      · rfl
      · rfl
  | putItem item =>
      simp only [respond, handle, dispatch, onPut, Program.run_bind, cacheAfter]
      split
      · rename_i zero
        have unacceptable : ¬ Acceptable item := fun acceptable => acceptable.1 zero
        rw [if_neg unacceptable]
        rfl
      · rename_i someId
        split
        · rename_i empty
          have unacceptable : ¬ Acceptable item := fun acceptable =>
            acceptable.2 (List.isEmpty_iff.mp empty)
          rw [if_neg unacceptable]
          rfl
        · rename_i nonempty
          have acceptable : Acceptable item :=
            ⟨someId, fun empty => nonempty (List.isEmpty_iff.mpr empty)⟩
          rw [if_pos acceptable]
          rfl
  | deleteItem id => rfl
  | getStats =>
      exact (uses_permitted _).run_keeps
        (fun op state permitted => perform_cache rfl now state permitted) state
  | recommend recommend =>
      exact (uses_permitted _).run_keeps
        (fun op state permitted => perform_cache rfl now state permitted) state

/-- The puts and deletes that were counted. -/
def catalogueCounts (state : State config) : UInt64 × UInt64 :=
  (state.counters .puts, state.counters .deletes)

/-- What a request adds to them. -/
def countsAfter (counts : UInt64 × UInt64) (request : Request D) : UInt64 × UInt64 :=
  match request.body with
  | .putItem _ => (counts.1 + 1, counts.2)
  | .deleteItem _ => (counts.1, counts.2 + 1)
  | _ => counts

/-- A step of a request that changes no items leaves the counters of changes. -/
theorem perform_counts (other : changesCatalogue request = false) (now : Timestamp) {op : Op config}
    (state : State config) (permitted : Permits request op) :
    catalogueCounts (perform now op state).2 = catalogueCounts state := by
  cases op with
  | bump counter =>
      cases counter with
      | puts =>
          obtain ⟨item, body⟩ := permitted
          simp only [changesCatalogue, body] at other
          cases other
      | deletes =>
          obtain ⟨id, body⟩ := permitted
          simp only [changesCatalogue, body] at other
          cases other
      | _ => rfl
  | _ => rfl

/-- What a request does to the counters of changes. -/
theorem respond_counts (state : State config) (now : Timestamp) (request : Request D) :
    catalogueCounts (respond state now request).2 = countsAfter (catalogueCounts state) request := by
  obtain ⟨requestId, body⟩ := request
  cases body with
  | putItem item =>
      simp only [respond, handle, dispatch, onPut, Program.run_bind]
      split
      · rfl
      · split
        · rfl
        · rfl
  | deleteItem id => rfl
  | _ =>
      exact (uses_permitted _).run_keeps
        (fun op state permitted => perform_counts rfl now state permitted) state

/-! ## States up to their counters -/

omit [Scalar D] in
/-- A state is its parts. -/
theorem State.eq_of_fields {left right : State config} (cache : left.cache = right.cache)
    (policy : left.policy = right.policy) (counters : left.counters = right.counters) :
    left = right := by
  cases left
  cases right
  cases cache
  cases policy
  cases counters
  rfl

/-- A state with its counters reset. -/
def uncounted (state : State config) : State config := { state with counters := fun _ => 0 }

/-- The states differ at most in their counters. -/
def SameContent (state other : State config) : Prop :=
  state.cache = other.cache ∧ state.policy = other.policy

omit [Scalar D] in
theorem uncounted_eq {state other : State config} (same : SameContent state other) :
    uncounted state = uncounted other :=
  State.eq_of_fields same.1 same.2 rfl

/-- Apart from reading a counter, steps answer alike when the counters differ. -/
theorem perform_alike (reads : request.body ≠ .getStats) (now : Timestamp) (op : Op config)
    (state other : State config) (permitted : Permits request op) (same : SameContent state other) :
    (perform now op state).1 = (perform now op other).1 ∧
      SameContent (perform now op state).2 (perform now op other).2 := by
  obtain ⟨cache, policy, counters⟩ := state
  obtain ⟨sameCache, samePolicy, others⟩ := other
  obtain ⟨rfl, rfl⟩ : cache = sameCache ∧ policy = samePolicy := same
  cases op with
  | load counter => exact absurd permitted reads
  | _ => exact ⟨rfl, rfl, rfl⟩

/-- A dry run or a request for statistics leaves cache and exposures as they were. -/
theorem respond_effectless (other : takesEffect request = false) (state : State config)
    (now : Timestamp) :
    uncounted (respond state now request).2 = uncounted state := by
  rw [takesEffect, Bool.or_eq_false_iff] at other
  refine (uses_permitted request).run_keeps (fun op state permitted => ?_) state
  refine uncounted_eq ⟨perform_cache other.1 now state permitted, ?_⟩
  cases op with
  | reserve id instant => exact absurd (other.2.symm.trans permitted) nofun
  | _ => rfl

/-- Only a live recommendation touches the policy store. -/
theorem respond_policy (other : isLive request = false) (state : State config) (now : Timestamp) :
    (respond state now request).2.policy = state.policy := by
  refine (uses_permitted request).run_keeps (fun op state permitted => ?_) state
  cases op with
  | reserve id instant => exact absurd (other.symm.trans permitted) nofun
  | _ => rfl

/-! ## Sequences of requests -/

/-- The daemon as a machine that handles requests one after another, each with the clock
at an instant of its own. -/
def sequential (config : Config D) :
    Machine (State config) (Request D × Timestamp) (Response D) where
  step state input := respond state input.2 input.1

/-- The state after requests handled one after another. -/
def handledAll (config : Config D) (requests : List (Request D × Timestamp)) : State config :=
  ((sequential config).run (State.initial config) requests).2

/-- The requests of a kind, with their clock readings. -/
def only (kind : Request D → Bool) (requests : List (Request D × Timestamp)) :
    List (Request D × Timestamp) :=
  requests.filter fun entry => kind entry.1

/-- Puts and deletes decide how many were counted. -/
theorem counts_handledAll (requests : List (Request D × Timestamp)) :
    catalogueCounts (handledAll config requests) =
      (only changesCatalogue requests).foldl (fun counts entry => countsAfter counts entry.1)
        (0, 0) := by
  refine Machine.run_view (sequential config) catalogueCounts
    (fun counts entry => countsAfter counts entry.1) (fun entry => changesCatalogue entry.1)
    (fun state entry _ => respond_counts state entry.2 entry.1) ?_ (State.initial config) requests
  intro state entry other
  exact (uses_permitted entry.1).run_keeps
    (fun op current permitted => perform_counts other entry.2 current permitted) state

end Views

/-! ## Writes -/

/-- What a request writes under which id: a put stores its item, a delete nothing. -/
def catalogueWrite (request : Request D) : Option (ItemId × Option (Item D)) :=
  match request.body with
  | .putItem item => if Acceptable item then some (item.id, some item) else none
  | .deleteItem id => some (id, none)
  | _ => none

/-- The writes of a sequence of requests. -/
def catalogueWrites (requests : List (Request D × Timestamp)) :
    List (ItemId × Option (Item D)) :=
  requests.filterMap fun entry => catalogueWrite entry.1

/-- The writes after one more request. -/
theorem catalogueWrites_snoc (requests : List (Request D × Timestamp))
    (entry : Request D × Timestamp) :
    catalogueWrites (requests ++ [entry]) =
      catalogueWrites requests ++ (catalogueWrite entry.1).toList :=
  filterMap_snoc _ requests entry

/-- A daemon with room for two items. -/
def twoItems : Config ℚ :=
  { oneShard {} Settings.enough_default with cache := ⟨2, .one, by decide⟩ }

/-- Look an item up. -/
def looking (id : UInt8) : Request ℚ × Timestamp := (⟨0, .getItem id.toUInt64⟩, ⟨0⟩)

/-- Delete an item. -/
def deleting (id : UInt8) : Request ℚ × Timestamp := (⟨0, .deleteItem id.toUInt64⟩, ⟨0⟩)

end Lrd.Daemon
