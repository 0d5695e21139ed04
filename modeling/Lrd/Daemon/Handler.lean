import Lrd.Cache.ShardedCache
import Lrd.Foundation.Interleaving
import Lrd.Policy.ExposureStore
import Lrd.Privacy.NoisyCounters
import Lrd.Proto.Message
import Lrd.Rank.Greedy

/-!
# The request handler

`Handler::handle` (`daemon/handler.cpp`) as a program over the atomic steps of
its collaborators: an atomic counter, an operation on one cache shard, a
reservation, a clock reading. One request run alone is `Program.run`; any number
of workers running `handle` at once are `Foundation.System`.
-/

namespace Lrd.Daemon

open Foundation Common Rank Policy Cache Proto Privacy

/-- What the constructor of a handler fixes. The noise of published counters and
the layout of the heap are the platform's. -/
structure Config (D : Type) where
  cache : CacheSettings
  policy : Policy.Settings
  scoring : ScoringConfig D
  privacy : PrivacyConfig
  noise : Noise
  heaps : HeapAlgorithms (Candidate D)

/-- The handler's constructor: the cache and the policy store take one shard
count. -/
def Config.create {D : Type} (capacity shardCount : UInt64) (scoring : ScoringConfig D)
    (policy : PolicyConfig) (privacy : PrivacyConfig) (noise : Noise)
    (heaps : HeapAlgorithms (Candidate D)) :
    Except String (Config D) := do
  let cacheSettings ← CacheSettings.create capacity shardCount
  let policySettings ← Policy.Settings.create policy shardCount
  return ⟨cacheSettings, policySettings, scoring, privacy, noise, heaps⟩

/-- The item cache. `std::hash` of an integer is the integer. -/
abbrev ItemCache (D : Type) (settings : CacheSettings) : Type :=
  ShardedCache ItemId (Item D) (fun id => id) settings

/-- The handler's own counters. -/
inductive Counter where
  | requests
  | gets
  | puts
  | deletes
  | recommends
  | hits
  | misses
deriving DecidableEq, Repr

/-- The counters of the policy store that are read one by one. -/
inductive PolicyCounter where
  | allowed
  | exposureBlocked
  | frequencyBlocked
  | storeFullBlocked
  | evicted
deriving DecidableEq, Repr

/-- The state the workers share. Items are stored under their own ids. -/
structure State {D : Type} (config : Config D) where
  cache : ItemCache D config.cache
  policy : ExposureStore config.policy
  counters : Counter → UInt64
  keyed : ∀ index, ∀ entry ∈ cache.snapshotShard index, entry.2.id = entry.1

/-- The state of a new daemon. -/
def State.initial {D : Type} (config : Config D) : State config where
  cache := ShardedCache.create ItemId (Item D) (fun id => id) config.cache
  policy := ExposureStore.create config.policy
  counters := fun _ => 0
  keyed := fun _ _ member => absurd member List.not_mem_nil

/-! ## Atomic steps -/

/-- The atomic steps of a request. -/
inductive Op {D : Type} (config : Config D) where
  | bump (counter : Counter)
  | load (counter : Counter)
  | clock
  | cacheGet (id : ItemId)
  | cachePut (item : Item D)
  | cacheErase (id : ItemId)
  | snapshotShard (index : Fin config.cache.shardCount.size)
  | cacheMetrics (index : Fin config.cache.shardCount.size)
  | cacheSize (index : Fin config.cache.shardCount.size)
  | reserve (id : ItemId) (now : Timestamp)
  | check (id : ItemId) (now : Timestamp)
  | policyLoad (counter : PolicyCounter)
  | policySize (index : Fin config.policy.shardCount.size)

/-- What each step answers. -/
@[reducible] def Op.Answer {D : Type} {config : Config D} : Op config → Type
  | .bump _ => Unit
  | .load _ => UInt64
  | .clock => Timestamp
  | .cacheGet _ => Option (Item D)
  | .cachePut _ => Unit
  | .cacheErase _ => Bool
  | .snapshotShard _ => List (ItemId × Item D)
  | .cacheMetrics _ => CacheMetrics
  | .cacheSize _ => UInt64
  | .reserve _ _ => Decision
  | .check _ _ => Decision
  | .policyLoad _ => UInt64
  | .policySize _ => UInt64

/-- The steps of the handler as operations with answers. -/
@[reducible] def steps {D : Type} (config : Config D) : Signature := ⟨Op config, Op.Answer⟩

/-- What a counter of the policy store stands at. -/
def loadPolicy {settings : Policy.Settings} (store : ExposureStore settings) :
    PolicyCounter → UInt64
  | .allowed => store.allowed
  | .exposureBlocked => store.exposureBlocked
  | .frequencyBlocked => store.frequencyBlocked
  | .storeFullBlocked => store.storeFullBlocked
  | .evicted => store.evicted

section

variable {D : Type} [Scalar D] {config : Config D}

omit [Scalar D] in
/-- Items stay stored under their ids when a shard is replaced by one that does
so. -/
theorem keyed_update {cache : ItemCache D config.cache}
    (keyed : ∀ index, ∀ entry ∈ cache.snapshotShard index, entry.2.id = entry.1) {id : ItemId}
    {shard : LruCache ItemId (Item D) config.cache.perShard}
    (new : ∀ entry ∈ shard.toList, entry ∈ (cache.shardFor id).toList ∨ entry.2.id = entry.1) :
    ∀ index, ∀ entry ∈ (Function.update cache.shards
      (ShardedCache.shardIndex (fun id => id) config.cache id) shard index).toList,
      entry.2.id = entry.1 := by
  intro index entry member
  by_cases here : index = ShardedCache.shardIndex (fun id => id) config.cache id
  · subst here
    rw [Function.update_self] at member
    rcases new entry member with earlier | own
    · exact keyed _ entry earlier
    · exact own
  · rw [Function.update_of_ne here] at member
    exact keyed index entry member

/-- What each step does to the shared state. The clock answers the instant the
environment supplies. -/
def perform (now : Timestamp) : (op : Op config) → State config → op.Answer × State config
  | .bump counter, state =>
      ((), { state with
        counters := Function.update state.counters counter (state.counters counter + 1) })
  | .load counter, state => (state.counters counter, state)
  | .clock, state => (now, state)
  | .cacheGet id, state =>
      ((state.cache.get id).1, { state with
        cache := (state.cache.get id).2
        keyed := keyed_update state.keyed fun _ member =>
          Or.inl (LruCache.mem_toList_get.mp member) })
  | .cachePut item, state =>
      ((), { state with
        cache := state.cache.put item.id item
        keyed := keyed_update state.keyed fun entry member => by
          rcases LruCache.mem_toList_put member with same | earlier
          · exact Or.inr (by rw [same])
          · exact Or.inl earlier })
  | .cacheErase id, state =>
      ((state.cache.erase id).1, { state with
        cache := (state.cache.erase id).2
        keyed := keyed_update state.keyed fun _ member =>
          Or.inl (LruCache.mem_toList_erase member) })
  | .snapshotShard index, state => (state.cache.snapshotShard index, state)
  | .cacheMetrics index, state => ((state.cache.shards index).metrics, state)
  | .cacheSize index, state => (UInt64.ofNat (state.cache.shards index).size, state)
  | .reserve id instant, state =>
      ((state.policy.reserve D id instant).1,
        { state with policy := (state.policy.reserve D id instant).2 })
  | .check id instant, state => (state.policy.check D id instant, state)
  | .policyLoad counter, state => (loadPolicy state.policy counter, state)
  | .policySize index, state => (UInt64.ofNat (state.policy.shards index).size, state)

/-! ## The requests -/

/-- Perform one step. -/
@[reducible] def step (op : Op config) : Program (steps config) op.Answer :=
  Program.call (S := steps config) op

/-- `on_get`. -/
def onGet (itemId : ItemId) : Program (steps config) (ResponseBody D) := do
  step (.bump .gets)
  let item ← step (.cacheGet itemId)
  match item with
  | none =>
      step (.bump .misses)
      return .getItemResult .notFound (Item.empty (Scalar.ofNat 0))
  | some item =>
      step (.bump .hits)
      return .getItemResult .ok item

/-- `on_put`. -/
def onPut (item : Item D) : Program (steps config) (ResponseBody D) := do
  step (.bump .puts)
  if item.id = 0 then return .failure .invalidRequest (text "item id must not be zero")
  else if item.category.isEmpty then
    return .failure .invalidRequest (text "item category must not be empty")
  else
    step (.cachePut item)
    return .putItemResult .ok

/-- `on_delete`. -/
def onDelete (itemId : ItemId) : Program (steps config) (ResponseBody D) := do
  step (.bump .deletes)
  let erased ← step (.cacheErase itemId)
  return .deleteItemResult (if erased then .ok else .notFound)

/-- The compliance gate: a live request reserves, a dry run only asks. -/
def accept (now : Timestamp) (dryRun : Bool) : ItemId → Program (steps config) Bool :=
  if dryRun then
    CandidateSelector.gate (S := steps config) (fun id => .check id now)
      fun _ decision => decision = Decision.allowed
  else
    CandidateSelector.gate (S := steps config) (fun id => .reserve id now)
      fun _ decision => decision = Decision.allowed

/-- Copy each shard out and offer its items to the selector. -/
def scanShards {query : Query D} : List (Fin config.cache.shardCount.size) →
    CandidateSelector query → Program (steps config) (CandidateSelector query)
  | [], selector => pure selector
  | index :: rest, selector => do
      let batch ← step (.snapshotShard index)
      scanShards rest (selector.considerAll config.heaps (batch.map Prod.snd))

/-- `on_recommend`. -/
def onRecommend (request : Recommend D) : Program (steps config) (ResponseBody D) := do
  step (.bump .recommends)
  if request.count = 0 then
    return .failure .invalidRequest (text "count must be at least 1")
  else if kMaxRecommendCount < request.count then
    return .failure .invalidRequest (text ("count " ++ toString request.count ++
      " exceeds the limit of " ++ toString kMaxRecommendCount))
  else
    let now ← step .clock
    let query : Query D := ⟨config.scoring, request.signal, now, request.count.toUInt64⟩
    let selector ← scanShards (List.finRange _) (CandidateSelector.create query)
    let items ← selector.select (some (accept now request.dryRun))
    return .recommendResult .ok items

/-- Add up what the shards answer. -/
def sumShards {ι : Type} (ask : ι → Program (steps config) UInt64) :
    List ι → UInt64 → Program (steps config) UInt64
  | [], total => pure total
  | index :: rest, total => do
      let part ← ask index
      sumShards ask rest (total + part)

/-- The evictions of all cache shards. -/
def cacheEvictions : Program (steps config) UInt64 :=
  sumShards (fun index => do
    let metrics ← step (.cacheMetrics index)
    return metrics.evictions) (List.finRange _) 0

/-- `cache_.size()`, shard by shard. -/
def cacheEntries : Program (steps config) UInt64 :=
  sumShards (fun index => step (.cacheSize index)) (List.finRange _) 0

/-- `policy_.metrics()`, counter by counter. -/
def policyMetrics : Program (steps config) PolicyMetrics := do
  let allowed ← step (.policyLoad .allowed)
  let exposureBlocked ← step (.policyLoad .exposureBlocked)
  let frequencyBlocked ← step (.policyLoad .frequencyBlocked)
  let storeFullBlocked ← step (.policyLoad .storeFullBlocked)
  let evicted ← step (.policyLoad .evicted)
  let tracked ←
    sumShards (fun index => step (.policySize index)) (List.finRange _) 0
  return ⟨allowed, exposureBlocked, frequencyBlocked, storeFullBlocked, evicted, tracked⟩

/-- `Handler::stats`. -/
def stats : Program (steps config) Stats := do
  let requests ← step (.load .requests)
  let gets ← step (.load .gets)
  let puts ← step (.load .puts)
  let deletes ← step (.load .deletes)
  let recommends ← step (.load .recommends)
  let hits ← step (.load .hits)
  let misses ← step (.load .misses)
  let evictions ← cacheEvictions
  let entries ← cacheEntries
  let policy ← policyMetrics
  return {
    requests := requests, gets := gets, puts := puts, deletes := deletes
    recommends := recommends, hits := hits, misses := misses, evictions := evictions
    entries := entries, capacity := config.cache.capacity, policyAllowed := policy.allowed
    policyExposureBlocked := policy.exposureBlocked
    policyFrequencyBlocked := policy.frequencyBlocked
    policyStoreFull := policy.storeFullBlocked, policyTracked := policy.tracked }

/-- Counters of behaviour are noised; those of the catalogue stay exact. -/
def publishedStats : Program (steps config) Stats := do
  let exact ← stats
  let now ← step .clock
  let noise := fun name value => publish config.privacy config.noise name value now
  return { exact with
    requests := noise "requests" exact.requests
    gets := noise "gets" exact.gets
    recommends := noise "recommends" exact.recommends
    hits := noise "hits" exact.hits
    misses := noise "misses" exact.misses
    policyAllowed := noise "policy_allowed" exact.policyAllowed
    policyExposureBlocked := noise "policy_exposure_blocked" exact.policyExposureBlocked
    policyFrequencyBlocked := noise "policy_frequency_blocked" exact.policyFrequencyBlocked }

/-- `on_stats`. -/
def onStats : Program (steps config) (ResponseBody D) := do
  let stats ← publishedStats
  return .statsResult .ok stats

/-- The visit of the request's body. -/
def dispatch : RequestBody D → Program (steps config) (ResponseBody D)
  | .getItem itemId => onGet itemId
  | .putItem item => onPut item
  | .deleteItem itemId => onDelete itemId
  | .getStats => onStats
  | .recommend recommend => onRecommend recommend

/-- `Handler::handle`. -/
def handle (request : Request D) : Program (steps config) (Response D) := do
  step (.bump .requests)
  let body ← dispatch request.body
  return ⟨request.requestId, body⟩

end

/-- The daemon's workers: each call runs `handle`, and the environment of a step is
the clock. -/
def workers {D : Type} [Scalar D] (config : Config D) :
    Concurrent (steps config) (State config) Timestamp (Request D) (Response D) where
  program := handle
  perform := perform

/-- The daemon after a schedule of its workers. -/
abbrev reached {D : Type} [Scalar D] (config : Config D)
    (schedule : List (Label Timestamp (Request D))) :
    System (steps config) (State config) (Request D) (Response D) :=
  System.run (workers config) (State.initial config) schedule

/-! ## A small daemon -/

theorem oneShard_enough : ShardCount.one.count ≤ 100 := by
  decide

/-- A daemon with one shard, the default scoring without decay and exact scores. -/
def oneShard (policy : PolicyConfig) (enough : 1 ≤ policy.maxTrackedItems) : Config ℚ where
  cache := ⟨100, .one, oneShard_enough⟩
  policy := ⟨policy, .one, enough⟩
  scoring := ⟨1 / 10, 0, 1 / 2, 3 / 10, 4, 0⟩
  privacy := {}
  noise := fun _ exact _ => exact
  heaps := siftHeap (Candidate ℚ)

/-- Publish an item of the given id and score. -/
def publishing (id : UInt8) (score : ℚ) : Request ℚ × Timestamp :=
  (⟨0, .putItem ⟨id.toUInt64, [0], [id], score, ⟨0⟩, ⟨0⟩⟩⟩, ⟨0⟩)

/-- Ask for a live slate. -/
def asking (count : UInt32) : Request ℚ × Timestamp :=
  (⟨0, .recommend ⟨⟨[], []⟩, count, false⟩⟩, ⟨0⟩)

/-- The daemon after requests handled one after another. -/
def served (config : Config ℚ) (requests : List (Request ℚ × Timestamp)) :
    System (steps config) (State config) (Request ℚ) (Response ℚ) :=
  reached config (Label.inTurn 16 requests)

end Lrd.Daemon
