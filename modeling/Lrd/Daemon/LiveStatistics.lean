import Lrd.Cache.Metrics
import Lrd.Daemon.Answers
import Lrd.Foundation.Readings

/-!
# Statistics while requests run

`stats` reads its numbers one after another, without stopping the other workers, and sums what
the cache shards answer at different times. So the numbers of one answer need not belong to one
moment. Those that only ever grow are still bounded by the moments of arrival and answer
(`statistics_between`): whoever asks again after an answer never sees one of them go back.
-/

namespace Lrd.Daemon

open Foundation Common Rank Policy Cache Proto Privacy

variable {D : Type} {config : Config D}

/-! ## Numbers that only grow -/

/-- The published numbers that only grow: the handler's counters, the evictions of the cache and
the decisions of the exposure store. -/
inductive Cumulative where
  | counter (counter : Counter)
  | evictions
  | decision (decision : Decision)
deriving DecidableEq, Repr

/-- The number in an answer. -/
def Cumulative.reported (stats : Stats) : Cumulative → UInt64
  | .counter .requests => stats.requests
  | .counter .gets => stats.gets
  | .counter .puts => stats.puts
  | .counter .deletes => stats.deletes
  | .counter .recommends => stats.recommends
  | .counter .hits => stats.hits
  | .counter .misses => stats.misses
  | .evictions => stats.evictions
  | .decision .allowed => stats.policyAllowed
  | .decision .exposureCapReached => stats.policyExposureBlocked
  | .decision .frequencyLimited => stats.policyFrequencyBlocked
  | .decision .storeFull => stats.policyStoreFull

/-- One counter of the daemon, and where it is kept. -/
inductive Part (config : Config D) where
  | counter (counter : Counter)
  | evictions (index : Fin config.cache.shardCount.size)
  | decision (decision : Decision)
deriving DecidableEq

/-- The counter that the exposure store keeps of a decision. -/
def policyCounter : Decision → PolicyCounter
  | .allowed => .allowed
  | .exposureCapReached => .exposureBlocked
  | .frequencyLimited => .frequencyBlocked
  | .storeFull => .storeFullBlocked

/-- What a part of a number stands at. -/
def Part.value : Part config → State config → UInt64
  | .counter which, state => state.counters which
  | .evictions index, state => (state.cache.shards index).metrics.evictions
  | .decision made, state => loadPolicy state.policy (policyCounter made)

/-- The counters that a number is the sum of. -/
def Cumulative.parts (config : Config D) : Cumulative → List (Part config)
  | .counter which => [.counter which]
  | .evictions => (List.finRange _).map .evictions
  | .decision made => [.decision made]

/-- The number as it stands in a state. -/
def Cumulative.current (state : State config) (number : Cumulative) : Nat :=
  Concurrent.total Part.value (number.parts config) state

/-- A number has no part twice. -/
theorem Cumulative.parts_nodup (number : Cumulative) : (number.parts config).Nodup := by
  cases number with
  | counter counter => exact List.pairwise_singleton _ _
  | evictions =>
      refine (List.nodup_finRange _).map ?_
      intro first second same
      cases same
      rfl
  | decision decision => exact List.pairwise_singleton _ _

/-! ## Steps -/

variable [Scalar D]

/-- The counter of a decision moves if and only if the decision was made. -/
theorem loadPolicy_reserve {settings : Policy.Settings} (store : ExposureStore settings)
    (id : ItemId) (now : Timestamp) (decision : Decision) :
    loadPolicy (store.reserve D id now).2 (policyCounter decision) =
      loadPolicy store (policyCounter decision) +
        if (store.reserve D id now).1 = decision then 1 else 0 := by
  obtain ⟨allowed, exposure, frequency, full⟩ := store.reserve_counters D id now
  cases decision with
  | allowed => exact allowed
  | exposureCapReached => exact exposure
  | frequencyLimited => exact frequency
  | storeFull => exact full

/-- What a put evicts in a shard. -/
theorem evictions_cachePut (now : Timestamp) (item : Item D) (state : State config)
    (index : Fin config.cache.shardCount.size) :
    (Part.evictions index).value (perform now (.cachePut item) state).2 =
      ((state.cache.put item.id item).shards index).metrics.evictions :=
  rfl

/-- Every step adds at most one to every part. -/
theorem tallies_value : (workers config).Tallies (@Part.value D config) := by
  intro now op state
  cases op with
  | bump counter =>
      refine Or.inr ⟨.counter counter, Function.update_self .., ?_⟩
      intro part other
      cases part with
      | counter another =>
          refine Function.update_of_ne ?_ ..
          rintro rfl
          exact other rfl
      | evictions index => rfl
      | decision decision => rfl
  | cacheGet id =>
      refine Or.inl fun part => ?_
      cases part with
      | counter counter => rfl
      | evictions index => exact state.cache.evictions_get id index
      | decision decision => rfl
  | cachePut item =>
      rcases state.cache.evictions_put item.id item with same | ⟨moved, others⟩
      · refine Or.inl fun part => ?_
        cases part with
        | counter counter => rfl
        | evictions index => exact same index
        | decision decision => rfl
      · refine Or.inr ⟨.evictions _, (evictions_cachePut now item state _).trans moved, ?_⟩
        intro part other
        cases part with
        | counter counter => rfl
        | evictions index => exact others index fun same => other (congrArg Part.evictions same)
        | decision decision => rfl
  | cacheErase id =>
      refine Or.inl fun part => ?_
      cases part with
      | counter counter => rfl
      | evictions index => exact state.cache.evictions_erase id index
      | decision decision => rfl
  | reserve id instant =>
      have moved := loadPolicy_reserve (D := D) state.policy id instant
      generalize (state.policy.reserve D id instant).1 = made at moved
      refine Or.inr ⟨.decision made, ?_, ?_⟩
      · have counted := moved made
        rw [if_pos rfl] at counted
        exact counted
      · intro part other
        cases part with
        | counter counter => rfl
        | evictions index => rfl
        | decision decision =>
            have kept := moved decision
            rw [if_neg fun same => other (congrArg Part.decision same.symm), UInt64.add_zero] at kept
            exact kept
  | _ => exact Or.inl fun _ => rfl

/-! ## What an answer was read from -/

omit [Scalar D] in
/-- The shards are asked one after another, and their evictions are added up. -/
theorem traces_sumEvictions {indices : List (Fin config.cache.shardCount.size)}
    (distinct : indices.Nodup) (start : UInt64) :
    (sumShards (fun index => do
        let metrics ← step (.cacheMetrics index)
        return metrics.evictions) indices start : Program (steps config) UInt64).Traces
      fun trace sum => ∃ metrics : Fin config.cache.shardCount.size → CacheMetrics,
        (∀ index ∈ indices, ⟨.cacheMetrics index, metrics index⟩ ∈ trace) ∧
        sum = start + (indices.map fun index => (metrics index).evictions).sum := by
  induction indices generalizing start with
  | nil =>
      refine ⟨fun _ => {}, ?_, (UInt64.add_zero _).symm⟩
      intro index member
      exact absurd member List.not_mem_nil
  | cons first indices ih =>
      obtain ⟨fresh, rest⟩ := List.nodup_cons.mp distinct
      intro answer
      apply (ih rest _).mono
      rintro trace sum ⟨metrics, asked, rfl⟩
      have others : ∀ index ∈ indices, Function.update metrics first answer index = metrics index :=
        fun index member => Function.update_of_ne (ne_of_mem_of_not_mem member fresh) ..
      refine ⟨Function.update metrics first answer, ?_, ?_⟩
      · intro index member
        rcases List.mem_cons.mp member with rfl | later
        · rw [Function.update_self]
          exact List.mem_cons_self
        · rw [others index later]
          exact List.mem_cons_of_mem _ (asked index later)
      · rw [List.map_cons, List.sum_cons, Function.update_self, UInt64.add_assoc,
          List.map_congr_left fun index member => congrArg CacheMetrics.evictions (others index member)]

/-- The events that the numbers of an answer are read from. -/
structure Read (trace : List (Event (steps config))) (stats : Stats) : Prop where
  counters : ∀ counter, ⟨.load counter, (Cumulative.counter counter).reported stats⟩ ∈ trace
  decisions : ∀ decision, ⟨.policyLoad (policyCounter decision),
    (Cumulative.decision decision).reported stats⟩ ∈ trace
  evictions : ∃ metrics : Fin config.cache.shardCount.size → CacheMetrics,
    (∀ index, ⟨.cacheMetrics index, metrics index⟩ ∈ trace) ∧
    stats.evictions = ((List.finRange _).map fun index => (metrics index).evictions).sum

omit [Scalar D] in
/-- What the statistics are read from. -/
theorem traces_stats : (stats : Program (steps config) Stats).Traces Read := by
  unfold stats
  iterate 7
    rw [Program.traces_call_bind]
    intro _
  rw [Program.traces_bind]
  apply (traces_sumEvictions (List.nodup_finRange _) 0).mono
  rintro asked evictions ⟨metrics, all, rfl⟩
  rw [Program.traces_bind]
  apply Program.traces_of_all
  intro sizes entries
  unfold policyMetrics
  simp only [Program.bind_bind]
  iterate 5
    rw [Program.traces_call_bind]
    intro _
  rw [Program.traces_bind]
  apply Program.traces_of_all
  intro tracked total
  refine ⟨?_, ?_, metrics, ?_, UInt64.zero_add _⟩
  · intro counter
    cases counter <;> simp [Cumulative.reported]
  · intro decision
    cases decision <;> simp [Cumulative.reported, policyCounter]
  · intro index
    have member := all index (List.mem_finRange index)
    simp [member]

variable {stats : Stats}

omit [Scalar D] in
/-- What was read is read from anything longer. -/
theorem Read.extend {trace : List (Event (steps config))} (read : Read trace stats)
    {longer : List (Event (steps config))} (within : trace ⊆ longer) : Read longer stats := by
  obtain ⟨counters, decisions, metrics, asked, sum⟩ := read
  exact ⟨fun counter => within (counters counter), fun decision => within (decisions decision),
    metrics, fun index => within (asked index), sum⟩

omit [Scalar D] in
/-- Without noise the answer is what was read. -/
theorem traces_onStats_read (exact : config.privacy.enabled = false) :
    (onStats : Program (steps config) (ResponseBody D)).Traces fun trace body =>
      ∃ stats, body = .statsResult .ok stats ∧ Read trace stats := by
  unfold onStats publishedStats
  simp only [Program.bind_bind]
  rw [Program.traces_bind]
  apply traces_stats.mono
  intro trace stats read
  rw [Program.traces_call_bind]
  intro now
  simp only [publish, exact, Bool.not_false, ↓reduceIte]
  exact ⟨stats, rfl, read.extend (List.subset_append_left ..)⟩

/-- The numbers of an answer stand in the trace of its call. -/
theorem read_of_answered (schedule : List (Label Timestamp (Request D)))
    (exact : config.privacy.enabled = false) {call : Call (steps config) (Request D) (Response D)}
    (made : call ∈ (reached config schedule).calls) {requestId : UInt64}
    (answered : call.result? = some ⟨requestId, .statsResult .ok stats⟩) :
    Read call.trace stats := by
  have asked : call.request.body = .getStats := by
    obtain ⟨_, _, _, body⟩ := answered_of_finished schedule made answered
    generalize call.request.body = request at body
    cases body
    rfl
  have traces : (dispatch call.request.body : Program (steps config) (ResponseBody D)).Traces
      fun trace body => ∃ stats, body = .statsResult .ok stats ∧ Read trace stats := by
    rw [asked]
    exact traces_onStats_read exact
  obtain ⟨_, rest, trace, _, same, read⟩ :=
    traced_of_finished schedule made answered (traces_handle_body traces)
  cases same
  rw [trace]
  exact read.extend (List.subset_cons_self ..)

/-- **Statistics between two moments.** The numbers of an answer that only grow are at least what
they were at any moment before the request arrived and at most what they are at any moment after
the answer, whatever the other workers do meanwhile. -/
theorem statistics_between {schedule before : List (Label Timestamp (Request D))}
    (begun : before <+: schedule) (short : (reached config schedule).history.length < 2 ^ 64)
    (exact : config.privacy.enabled = false) {index : Nat}
    {call : Call (steps config) (Request D) (Response D)}
    (made : (reached config schedule).calls[index]? = some call)
    (unmade : (reached config before).calls.length ≤ index) {requestId : UInt64}
    (answered : call.result? = some ⟨requestId, .statsResult .ok stats⟩) (number : Cumulative) :
    number.current (reached config before).state ≤ (number.reported stats).toNat ∧
      (number.reported stats).toNat ≤ number.current (reached config schedule).state := by
  obtain ⟨counters, decisions, metrics, asked, sum⟩ :=
    read_of_answered schedule exact (List.mem_of_getElem? made) answered
  have zero : ∀ part : Part config, part.value (State.initial config) = 0 := by
    intro part
    cases part with
    | counter counter => rfl
    | evictions index => rfl
    | decision decision => cases decision <;> rfl
  -- What each part was read as, and by which event.
  let values : Part config → UInt64
    | .counter which => (Cumulative.counter which).reported stats
    | .evictions index => (metrics index).evictions
    | .decision made => (Cumulative.decision made).reported stats
  have each : ∀ part ∈ number.parts config, ∃ event ∈ call.trace, ∀ now (state : State config),
      ((workers config).perform now event.op state).1 = event.answer →
        part.value state = values part := by
    intro part _
    cases part with
    | counter which => exact ⟨_, counters which, fun _ _ read => read⟩
    | evictions index =>
        exact ⟨_, asked index, fun _ _ read => congrArg CacheMetrics.evictions read⟩
    | decision made => exact ⟨_, decisions made, fun _ _ read => read⟩
  have reported : number.reported stats = ((number.parts config).map values).sum := by
    cases number with
    | counter which => exact (UInt64.add_zero _).symm
    | evictions =>
        refine sum.trans ?_
        rw [Cumulative.parts, List.map_map]
        rfl
    | decision made => exact (UInt64.add_zero _).symm
  rw [reported]
  exact tallies_value.reading_sum zero begun short made unmade number.parts_nodup each

/-- A small daemon stores an item and is then asked for its statistics. -/
def askedAfterPut (requests : Nat) : List (Label Timestamp (Request ℚ)) :=
  Label.inTurn 17 ([publishing 1 1, (⟨7, .getStats⟩, ⟨0⟩)].take requests)

theorem statistics_between_put :
    let config := oneShard {} (by decide)
    let puts := Cumulative.counter .puts
    puts.current (reached config (askedAfterPut 1)).state ≤ 1 ∧
      1 ≤ puts.current (reached config (askedAfterPut 2)).state := by
  intro config puts
  have returned : ((reached config (askedAfterPut 2)).calls[1]?.bind Call.result?) =
      some ⟨7, .statsResult .ok { requests := 2, puts := 1, entries := 1, capacity := 100 }⟩ := by
    decide +kernel
  obtain ⟨call, made, answered⟩ := Option.bind_eq_some_iff.mp returned
  have begun : askedAfterPut 1 <+: askedAfterPut 2 :=
    List.prefix_append (Label.inTurn 17 [publishing 1 1]) (.invoke ⟨7, .getStats⟩ :: _)
  exact statistics_between begun (by decide +kernel) rfl made (by decide +kernel) answered puts

end Lrd.Daemon
