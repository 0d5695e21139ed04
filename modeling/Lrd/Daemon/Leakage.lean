import Lrd.Cache.Tally
import Lrd.Daemon.ExactCounters
import Lrd.Daemon.Reservations
import Lrd.Foundation.Disclosure
import Lrd.Policy.Filling

/-!
# What the exact counters give away

Two daemons that were given the same puts and deletes publish the same counts of them. Their
evictions and entries tell exactly whether the puts and deletes found their items in the
cache (`discloses_findings`), which depends on the lookups in between. Their numbers of tracked
items tell how many different items live recommendations have shown, up to the room of each
shard (`policyTracked_handledAll`). So the counters that `published_stats` leaves exact give
away something about lookups and recommendations, and exactly this (`exact_counters`).
-/

namespace Lrd.Daemon

open Foundation Common Rank Policy Cache Proto

variable {D : Type} {config : Config D}

/-! ## Evictions and entries -/

/-- Whether a put or a delete finds its item in the cache. A put that is rejected does not
look. -/
def finds (state : State config) (entry : Request D × Timestamp) : Bool :=
  match catalogueWrite entry.1 with
  | some (id, _) => (state.cache.peek id).isSome
  | none => false

/-- What a request does to the entries and evictions of every shard, given whether it found
its item. -/
def tallyAfter (config : Config D) (tallies : Fin config.cache.shardCount.size → Tally)
    (entry : Request D × Timestamp) (held : Bool) : Fin config.cache.shardCount.size → Tally :=
  match catalogueWrite entry.1 with
  | some (id, some _) =>
      let index := ShardedCache.shardIndex (fun id => id) config.cache id
      Function.update tallies index ((tallies index).put config.cache.perShard.value held)
  | some (id, none) =>
      let index := ShardedCache.shardIndex (fun id => id) config.cache id
      Function.update tallies index ((tallies index).erase held)
  | none => tallies

/-- The evictions and entries follow from whether puts and deletes find their items. -/
theorem tallies_cacheAfter (state : State config) (entry : Request D × Timestamp) :
    (cacheAfter state.cache entry.1).tallies =
      tallyAfter config state.cache.tallies entry (finds state entry) := by
  obtain ⟨⟨requestId, body⟩, now⟩ := entry
  cases body with
  | getItem id => exact state.cache.tallies_get id
  | putItem item =>
      by_cases acceptable : Acceptable item
      · simp only [cacheAfter, tallyAfter, finds, catalogueWrite, acceptable, ↓reduceIte]
        exact state.cache.tallies_put item.id item
      · simp only [cacheAfter, tallyAfter, catalogueWrite, acceptable, ↓reduceIte]
  | deleteItem id => exact state.cache.tallies_erase id
  | getStats => rfl
  | recommend recommend => rfl

/-- A shard in which an item is found has an entry. -/
theorem entries_pos {cache : ItemCache D config.cache} {id : ItemId}
    (held : (cache.peek id).isSome = true) :
    0 < (cache.tallies (ShardedCache.shardIndex (fun id => id) config.cache id)).entries :=
  LruCache.size_pos_of_peek _ held

/-- Whether a put or a delete found its item shows in the sums over all shards. -/
theorem finds_eq {state other : State config} {entry : Request D × Timestamp}
    (before : Tally.totals state.cache.tallies = Tally.totals other.cache.tallies)
    (after : Tally.totals (tallyAfter config state.cache.tallies entry (finds state entry)) =
      Tally.totals (tallyAfter config other.cache.tallies entry (finds other entry))) :
    finds state entry = finds other entry := by
  cases written : catalogueWrite entry.1 with
  | none => simp only [finds, written]
  | some write =>
      obtain ⟨id, stored⟩ := write
      have looks : ∀ state : State config, finds state entry = (state.cache.peek id).isSome :=
        fun state => by simp only [finds, written]
      cases stored with
      | some item =>
          simp only [tallyAfter, written] at after
          exact Tally.put_tells before after
      | none =>
          simp only [tallyAfter, written] at after
          refine Tally.erase_tells before (fun held => ?_) (fun kept => ?_) after
          · exact entries_pos ((looks state).symm.trans held)
          · exact entries_pos ((looks other).symm.trans kept)

section Runs

variable [Scalar D]

/-- Whether the puts and deletes of a sequence of requests found their items, in order. -/
def findings (config : Config D) (requests : List (Request D × Timestamp)) : List Bool :=
  (sequential config).facts (fun entry => changesCatalogue entry.1) finds (State.initial config)
    requests

/-- Evictions and entries disclose whether puts and deletes find their items, and nothing
else. -/
theorem discloses_findings (config : Config D) :
    (sequential config).Discloses (fun entry => changesCatalogue entry.1) finds
      (fun state => state.cache.tallies) (tallyAfter config) Tally.totals where
  keeps := by
    intro state entry other
    have same := tallies_cacheAfter state entry
    change (respond state entry.2 entry.1).2.cache.tallies = _
    rw [respond_cache, same]
    obtain ⟨⟨requestId, body⟩, now⟩ := entry
    cases body with
    | putItem item => cases other
    | deleteItem id => cases other
    | _ => rfl
  acts := by
    intro state entry _
    change (respond state entry.2 entry.1).2.cache.tallies = _
    rw [respond_cache, tallies_cacheAfter]
  tells := by
    intro state other entry _ before after
    change Tally.totals (respond state entry.2 entry.1).2.cache.tallies =
      Tally.totals (respond other entry.2 entry.1).2.cache.tallies at after
    rw [respond_cache, respond_cache, tallies_cacheAfter, tallies_cacheAfter] at after
    exact finds_eq before after

/-- Two published states show the same evictions and entries if their caches' totals agree. -/
theorem totals_published (now later : Timestamp) (state other : State config) :
    ((published now state).evictions = (published later other).evictions ∧
        (published now state).entries = (published later other).entries) ↔
      Tally.totals state.cache.tallies = Tally.totals other.cache.tallies := by
  obtain ⟨_, _, evictions, entries, _, _⟩ := published_exact now state
  obtain ⟨_, _, otherEvictions, otherEntries, _, _⟩ := published_exact later other
  rw [evictions, entries, otherEvictions, otherEntries, ShardedCache.totals_tallies,
    ShardedCache.totals_tallies, Prod.mk.injEq]

/-! ## Tracked items -/

/-- The items that a live request showed. -/
def liveSlate (entry : (Request D × Timestamp) × Response D) : List ItemId :=
  if isLive entry.1.1 then (slateOf entry.2).map RankedItem.id else []

/-- The items that live recommendations showed, in order. -/
def shownLive (config : Config D) (requests : List (Request D × Timestamp)) : List ItemId :=
  ((sequential config).run (State.initial config) requests).1.flatMap liveSlate

/-- The different items shown, as far as each shard of the exposure store has room. -/
def trackable (config : Config D) (requests : List (Request D × Timestamp)) : Nat :=
  ((List.finRange config.policy.shardCount.size).map
    (filling config.policy (shownLive config requests))).sum

end Runs

variable [FloatScalar D]

/-- A step fills the exposure store with what it charges. -/
theorem filled_perform {shown : List ItemId} (now : Timestamp) (op : Op config)
    (state : State config) (filled : state.policy.Filled shown) :
    (perform now op state).2.policy.Filled
      (shown ++ (charged (⟨op, (perform now op state).1⟩ : Event (steps config))).toList) := by
  cases op with
  | reserve id instant =>
      have shows : (charged (⟨.reserve id instant, (perform now (.reserve id instant) state).1⟩ :
          Event (steps config))).toList = (state.policy.reserve D id instant).1.shows id := by
        change (if (state.policy.reserve D id instant).1 = .allowed then some id else none).toList = _
        cases (state.policy.reserve D id instant).1 with
        | _ => rfl
      rw [shows]
      exact filled.reserve id instant
  | _ =>
      rw [show charged _ = none from rfl, Option.toList_none, List.append_nil]
      exact filled

/-- A request fills the exposure store with the slate it returns, if it is live. -/
theorem filled_respond {shown : List ItemId} {state : State config}
    (filled : state.policy.Filled shown) (entry : Request D × Timestamp) :
    (respond state entry.2 entry.1).2.policy.Filled
      (shown ++ liveSlate (entry, (respond state entry.2 entry.1).1)) := by
  cases live : isLive entry.1 with
  | false =>
      simp only [liveSlate, live, Bool.false_eq_true, ↓reduceIte, List.append_nil,
        respond_policy live]
      exact filled
  | true =>
      have start : state.policy.Filled
          (shown ++ ([] : List (Event (steps config))).filterMap charged) := by
        rw [List.filterMap_nil, List.append_nil]
        exact filled
      have preserved : ∀ (trace : List (Event (steps config))) (op : Op config)
          (state : State config), state.policy.Filled (shown ++ trace.filterMap charged) →
          (perform entry.2 op state).2.policy.Filled (shown ++
            (trace ++ [(⟨op, (perform entry.2 op state).1⟩ : Event _)]).filterMap charged) := by
        intro trace op state held
        rw [filterMap_snoc, ← List.append_assoc]
        exact filled_perform entry.2 op state held
      obtain ⟨trace, accounted, after⟩ := (traces_handle live).of_run_invariant (perform entry.2)
        (fun trace state => state.policy.Filled (shown ++ trace.filterMap charged)) preserved start
      simp only [liveSlate, live, ↓reduceIte]
      rw [List.nil_append, accounted.returned] at after
      exact after

/-- The exposure store is filled with the items that live recommendations showed. -/
theorem filled_handledAll (config : Config D) (requests : List (Request D × Timestamp)) :
    (handledAll config requests).policy.Filled (shownLive config requests) := by
  refine Machine.run_invariant
    (fun transcript (state : State config) => state.policy.Filled (transcript.flatMap liveSlate))
    ?_ ?_ requests
  · exact ExposureStore.Filled.create config.policy
  intro transcript state entry filled
  rw [List.flatMap_append, List.flatMap_cons, List.flatMap_nil, List.append_nil]
  exact filled_respond filled entry

/-- The number of tracked items is published. -/
theorem policyTracked_handledAll (config : Config D) (requests : List (Request D × Timestamp))
    (now : Timestamp) :
    (published now (handledAll config requests)).policyTracked.toNat = trackable config requests := by
  obtain ⟨_, _, _, _, _, tracked⟩ := published_exact now (handledAll config requests)
  have filled := filled_handledAll config requests
  rw [tracked, trackedItems, ofNat_sum, UInt64.toNat_ofNat', trackable]
  simp only [filled.size_eq]
  exact Nat.mod_eq_of_lt (sum_filling_lt ..)

/-! ## What two daemons have in common -/

/-- Two daemons that were given the same puts and deletes publish the same counts of puts and
deletes and the same capacity. Their evictions and entries agree throughout, that is after
any first parts of the two sequences with the same puts and deletes, if and only if every put
and delete finds its item in the cache of both daemons or of neither. The numbers of tracked
items agree if and only if live recommendations have shown equally many different items, each
shard counting no more than it has room for. -/
theorem exact_counters (config : Config D) {first second : List (Request D × Timestamp)}
    (same : only changesCatalogue first = only changesCatalogue second) (now later : Timestamp) :
    let left := published now (handledAll config first)
    let right := published later (handledAll config second)
    (left.puts = right.puts ∧ left.deletes = right.deletes ∧ left.capacity = right.capacity) ∧
      ((∀ past other, past <+: first → other <+: second →
          only changesCatalogue past = only changesCatalogue other →
          (published now (handledAll config past)).evictions =
              (published later (handledAll config other)).evictions ∧
            (published now (handledAll config past)).entries =
              (published later (handledAll config other)).entries) ↔
        findings config first = findings config second) ∧
      (left.policyTracked = right.policyTracked ↔
        trackable config first = trackable config second) := by
  intro left right
  obtain ⟨putsLeft, deletesLeft, _, _, capacityLeft, _⟩ :=
    published_exact now (handledAll config first)
  obtain ⟨putsRight, deletesRight, _, _, capacityRight, _⟩ :=
    published_exact later (handledAll config second)
  have counts : catalogueCounts (handledAll config first) =
      catalogueCounts (handledAll config second) := by
    rw [counts_handledAll, counts_handledAll, same]
  refine ⟨⟨?_, ?_, capacityLeft.trans capacityRight.symm⟩, ?_, ?_⟩
  · exact putsLeft.trans ((congrArg Prod.fst counts).trans putsRight.symm)
  · exact deletesLeft.trans ((congrArg Prod.snd counts).trans deletesRight.symm)
  · rw [findings, findings, ← (discloses_findings config).agree_iff same]
    simp only [totals_published]
    rfl
  · rw [← UInt64.toNat_inj, policyTracked_handledAll, policyTracked_handledAll]

/-- A lookup that misses is not noticed, although a put evicts an item. -/
theorem exact_counters_two :
    let first := [publishing 1 1, publishing 2 1, publishing 3 1]
    let second := [publishing 1 1, publishing 2 1, looking 9, publishing 3 1]
    let left := published ⟨0⟩ (handledAll twoItems first)
    let right := published ⟨0⟩ (handledAll twoItems second)
    left.puts = right.puts ∧ (left.evictions = right.evictions ∧ left.entries = right.entries) ∧
      left.policyTracked = right.policyTracked := by
  intro first second left right
  have same : only changesCatalogue first = only changesCatalogue second := by decide +kernel
  obtain ⟨⟨puts, _, _⟩, throughout, tracked⟩ := exact_counters twoItems same ⟨0⟩ ⟨0⟩
  refine ⟨puts, ?_, tracked.mpr (by decide +kernel)⟩
  exact throughout.mpr (by decide +kernel) first second List.prefix_rfl List.prefix_rfl same

/-- The puts and deletes are the same, but a lookup of item 1 saves it from eviction, so
that storing it again evicts nothing and deleting it leaves one entry less; and a live
recommendation is tracked. -/
theorem exact_counters_leak :
    let stores := [publishing 1 1, publishing 2 1, publishing 3 1]
    let looked := [publishing 1 1, publishing 2 1, looking 1, publishing 3 1]
    let asked := [publishing 1 1, publishing 2 1, publishing 3 1, asking 1]
    let after := fun requests => published ⟨0⟩ (handledAll twoItems requests)
    (only changesCatalogue (stores ++ [publishing 1 1]) =
          only changesCatalogue (looked ++ [publishing 1 1]) ∧
        (after (stores ++ [publishing 1 1])).evictions = 2 ∧
        (after (looked ++ [publishing 1 1])).evictions = 1) ∧
      (only changesCatalogue (stores ++ [deleting 1]) =
          only changesCatalogue (looked ++ [deleting 1]) ∧
        (after (stores ++ [deleting 1])).entries = 2 ∧
        (after (looked ++ [deleting 1])).entries = 1) ∧
      (only changesCatalogue stores = only changesCatalogue asked ∧
        (after stores).policyTracked = 0 ∧ (after asked).policyTracked = 1) := by
  decide +kernel

end Lrd.Daemon
