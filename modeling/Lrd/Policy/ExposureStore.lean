import Lrd.Common.Sharding
import Lrd.Foundation.Scalar
import Lrd.Foundation.StableList
import Lrd.Rank.Item

/-!
# The exposure store

Per-item lifetime and frequency counters behind `reserve`, which checks every
limit and records a show in one step, and `check`, which asks without recording
(`policy/exposure_store.cpp`). The window estimate is a `double`, so the
functions that compute it take the scalar type as a parameter.
-/

namespace Lrd.Policy

open Foundation Common Rank

/-- The limits of the policy. -/
structure PolicyConfig where
  exposureCap : UInt64 := 0
  frequencyLimit : UInt32 := 0
  frequencyWindow : Int64 := 3600000
  maxTrackedItems : UInt64 := 100000
  failOpenWhenFull : Bool := false
deriving DecidableEq, Repr

/-- What the store says about a show. -/
inductive Decision where
  | allowed
  | exposureCapReached
  | frequencyLimited
  | storeFull
deriving DecidableEq, Repr

/-- The counters of the store. -/
structure PolicyMetrics where
  allowed : UInt64 := 0
  exposureBlocked : UInt64 := 0
  frequencyBlocked : UInt64 := 0
  storeFullBlocked : UInt64 := 0
  evicted : UInt64 := 0
  tracked : UInt64 := 0
deriving DecidableEq, Repr

/-- The clock as the store counts it. -/
def toMillis (now : Timestamp) : UInt64 := (toEpochMillis now).toUInt64

/-- The counters of an item. -/
structure Entry where
  lifetimeShows : UInt64 := 0
  windowIndex : UInt64 := 0
  current : UInt32 := 0
  previous : UInt32 := 0
deriving DecidableEq, Repr

/-! ## The frequency window -/

/-- The length of a window as the store counts it. -/
def PolicyConfig.windowMs (config : PolicyConfig) : UInt64 := config.frequencyWindow.toUInt64

/-- Roll the entry forward to the window of the given index. Anything but the same
or the next window forgets both counters. -/
def Entry.advance (entry : Entry) (index : UInt64) : Entry :=
  if index = entry.windowIndex + 1 then
    { entry with previous := entry.current, current := 0, windowIndex := index }
  else if index ≠ entry.windowIndex then
    { entry with previous := 0, current := 0, windowIndex := index }
  else entry

section Estimate

variable (D : Type) [Scalar D]

/-- The sliding estimate, with the counters as they stand moved on only in the arithmetic. -/
def estimateWithoutAdvancing (config : PolicyConfig) (entry : Entry) (nowMs : UInt64) : D :=
  if config.windowMs = 0 then Scalar.ofNat 0
  else
    let index := nowMs / config.windowMs
    let (previous, current) :=
      if index = entry.windowIndex + 1 then (entry.current, 0)
      else if index ≠ entry.windowIndex then (0, 0)
      else (entry.previous, entry.current)
    let elapsed : D := Scalar.ofNat (nowMs % config.windowMs).toNat
    let weight := Scalar.ofNat 1 - elapsed / Scalar.ofNat config.windowMs.toNat
    Scalar.ofNat previous.toNat * weight + Scalar.ofNat current.toNat

/-- The same estimate, with the counters moved to the window of now. -/
def advanceAndEstimate (config : PolicyConfig) (entry : Entry) (nowMs : UInt64) : D × Entry :=
  if config.windowMs = 0 then (Scalar.ofNat 0, entry)
  else
    let entry := entry.advance (nowMs / config.windowMs)
    let elapsed : D := Scalar.ofNat (nowMs % config.windowMs).toNat
    let weight := Scalar.ofNat 1 - elapsed / Scalar.ofNat config.windowMs.toNat
    (Scalar.ofNat entry.previous.toNat * weight + Scalar.ofNat entry.current.toNat, entry)

/-- The limits as `reserve` applies them to an item's counters, with the counters
that result. -/
def judge (config : PolicyConfig) (entry : Entry) (nowMs : UInt64) : Decision × Entry :=
  if 0 < config.exposureCap ∧ config.exposureCap ≤ entry.lifetimeShows then
    (.exposureCapReached, entry)
  else if 0 < config.frequencyLimit then
    let (estimate, entry) := advanceAndEstimate D config entry nowMs
    if Scalar.lt (Scalar.ofNat config.frequencyLimit.toNat) (estimate + Scalar.ofNat 1) then
      (.frequencyLimited, entry)
    else
      (.allowed, { entry with
        current := entry.current + 1, lifetimeShows := entry.lifetimeShows + 1 })
  else (.allowed, { entry with lifetimeShows := entry.lifetimeShows + 1 })

end Estimate

/-! ## Shards -/

/-- The counters of one shard and the recency order of its items. The index finds
each item's node in the recency list. -/
structure Shard where
  entries : AList fun _ : ItemId => Entry
  recency : StableList ItemId
  recencyIndex : AList fun _ : ItemId => Nat
  agree : StableList.Indexes id recency recencyIndex

namespace Shard

/-- A shard that tracks nothing. -/
def empty : Shard := ⟨∅, StableList.empty, ∅, StableList.Indexes.empty⟩

/-- How many items a shard tracks. -/
def size (shard : Shard) : Nat := shard.entries.keys.length

/-- Under fail-open the item moves to the front of the recency list. -/
def touchRecency (config : PolicyConfig) (shard : Shard) (id : ItemId) : Shard :=
  if !config.failOpenWhenFull then shard
  else
    match found : shard.recencyIndex.lookup id with
    | some handle =>
        { shard with
          recency := shard.recency.spliceFront handle
          agree := shard.agree.spliceFront handle }
    | none =>
        { shard with
          recency := shard.recency.pushFront id
          recencyIndex := shard.recencyIndex.insert id shard.recency.next
          agree := shard.agree.pushFront id (AList.lookup_eq_none.mp found) }

/-- Discard the counters of the least recently allowed item, if there is one. -/
def evictOne (shard : Shard) : Option Shard :=
  match back : shard.recency.back? with
  | none => none
  | some victim =>
      some
        { entries := shard.entries.erase victim
          recency := shard.recency.popBack
          recencyIndex := shard.recencyIndex.erase victim
          agree := shard.agree.popBack back }

end Shard

/-! ## The store -/

/-- What the constructor fixes: the configuration and a shard count that leaves
every shard room for an item. -/
structure Settings where
  config : PolicyConfig
  shardCount : ShardCount
  enough : shardCount.count ≤ config.maxTrackedItems

/-- The default configuration has room for an item in a single shard. -/
theorem Settings.enough_default : ShardCount.one.count ≤ ({} : PolicyConfig).maxTrackedItems := by
  decide

/-- The items that one shard may track. -/
def Settings.perShardCapacity (settings : Settings) : Nat :=
  (settings.config.maxTrackedItems / settings.shardCount.count).toNat

/-- The store: its shards, and the counters of its decisions. -/
structure ExposureStore (settings : Settings) where
  shards : Fin settings.shardCount.size → Shard
  allowed : UInt64
  exposureBlocked : UInt64
  frequencyBlocked : UInt64
  storeFullBlocked : UInt64
  evicted : UInt64

/-- The checks of the constructor. -/
def Settings.create (config : PolicyConfig) (shardCount : UInt64) : Except String Settings := do
  let shards ← ShardCount.create shardCount "ExposureStore shard count must be a power of two"
  if enough : shards.count ≤ config.maxTrackedItems then .ok ⟨config, shards, enough⟩
  else .error "ExposureStore max_tracked_items must be at least the shard count"

namespace ExposureStore

variable {settings : Settings}

/-- A store that tracks nothing. -/
def create (settings : Settings) : ExposureStore settings := ⟨fun _ => Shard.empty, 0, 0, 0, 0, 0⟩

/-- The shard of an item. -/
def shardIndex (settings : Settings) (id : ItemId) : Fin settings.shardCount.size :=
  settings.shardCount.indexOf id

/-- The shard of an item, in a store. -/
def shardFor (store : ExposureStore settings) (id : ItemId) : Shard :=
  store.shards (shardIndex settings id)

/-- Put a shard in its place. -/
def setShard (store : ExposureStore settings) (index : Fin settings.shardCount.size)
    (shard : Shard) : ExposureStore settings :=
  { store with shards := Function.update store.shards index shard }

/-- The atomic counter of each decision. -/
def record (store : ExposureStore settings) : Decision → ExposureStore settings
  | .allowed => { store with allowed := store.allowed + 1 }
  | .exposureCapReached => { store with exposureBlocked := store.exposureBlocked + 1 }
  | .frequencyLimited => { store with frequencyBlocked := store.frequencyBlocked + 1 }
  | .storeFull => { store with storeFullBlocked := store.storeFullBlocked + 1 }

/-- The entry a new item starts with. -/
def freshEntry (config : PolicyConfig) (nowMs : UInt64) : Entry :=
  { windowIndex := if 0 < config.frequencyWindow then nowMs / config.windowMs else 0 }

/-- An item's entry with the shard that holds it, and whether another item's
counters were discarded for it. -/
structure Found where
  shard : Shard
  entry : Entry
  evicted : Bool

/-- Find the item's entry or make room for a new one. -/
def findOrEmplace (settings : Settings) (shard : Shard) (id : ItemId) (nowMs : UInt64) :
    Option Found :=
  match shard.entries.lookup id with
  | some entry => some ⟨shard, entry, false⟩
  | none =>
      if settings.perShardCapacity ≤ shard.size then
        if !settings.config.failOpenWhenFull then none
        else
          match shard.evictOne with
          | none => none
          | some shard => some ⟨shard, freshEntry settings.config nowMs, true⟩
      else some ⟨shard, freshEntry settings.config nowMs, false⟩

section Gate

variable (D : Type) [Scalar D]

/-- Check every limit and, if all pass, record one show. -/
def reserve (store : ExposureStore settings) (id : ItemId) (now : Timestamp) :
    Decision × ExposureStore settings :=
  let nowMs := toMillis now
  match findOrEmplace settings (store.shardFor id) id nowMs with
  | none => (.storeFull, store.record .storeFull)
  | some found =>
      let store := if found.evicted then { store with evicted := store.evicted + 1 } else store
      let (decision, entry) := judge D settings.config found.entry nowMs
      let shard := { found.shard with entries := found.shard.entries.insert id entry }
      let shard :=
        if decision = .allowed then shard.touchRecency settings.config id else shard
      (decision, (store.setShard (shardIndex settings id) shard).record decision)

/-- Check the limits without recording anything. -/
def check (store : ExposureStore settings) (id : ItemId) (now : Timestamp) : Decision :=
  let nowMs := toMillis now
  let shard := store.shardFor id
  match shard.entries.lookup id with
  | none =>
      if settings.perShardCapacity ≤ shard.size ∧ settings.config.failOpenWhenFull = false then
        .storeFull
      else .allowed
  | some entry =>
      if 0 < settings.config.exposureCap ∧ settings.config.exposureCap ≤ entry.lifetimeShows then
        .exposureCapReached
      else if 0 < settings.config.frequencyLimit then
        let estimate : D := estimateWithoutAdvancing D settings.config entry nowMs
        if Scalar.lt (Scalar.ofNat settings.config.frequencyLimit.toNat)
            (estimate + Scalar.ofNat 1) then .frequencyLimited
        else .allowed
      else .allowed

end Gate

/-- Drop an item's counters. -/
def forget (store : ExposureStore settings) (id : ItemId) : ExposureStore settings :=
  let shard := store.shardFor id
  let entries := shard.entries.erase id
  match found : shard.recencyIndex.lookup id with
  | some handle =>
      store.setShard (shardIndex settings id)
        ⟨entries, shard.recency.erase handle, shard.recencyIndex.erase id,
          shard.agree.erase found⟩
  | none => store.setShard (shardIndex settings id) { shard with entries := entries }

/-- Forget everything that is tracked. -/
def clear (store : ExposureStore settings) : ExposureStore settings :=
  { store with shards := fun _ => Shard.empty }

/-- How many items are tracked, shard by shard. -/
def tracked (store : ExposureStore settings) : UInt64 :=
  (List.finRange settings.shardCount.size).foldl
    (fun total index => total + UInt64.ofNat (store.shards index).size) 0

/-- The counters as they are reported. -/
def metrics (store : ExposureStore settings) : PolicyMetrics where
  allowed := store.allowed
  exposureBlocked := store.exposureBlocked
  frequencyBlocked := store.frequencyBlocked
  storeFullBlocked := store.storeFullBlocked
  evicted := store.evicted
  tracked := store.tracked

end ExposureStore

end Lrd.Policy
