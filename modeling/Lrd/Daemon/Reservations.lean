import Lrd.Daemon.Footprint

/-!
# The reservations of a request

What the trace of a request says about the exposure store, whatever other workers
do in between. Only a live recommendation reserves (`uses_handle`). It offers each
item at most once and returns exactly the items it was allowed
(`traces_handle`).
-/

namespace Lrd.Daemon

open Foundation Common Rank Policy Cache Proto CandidateSelector

variable {D : Type} {config : Config D}

/-- The item that an event offered to `reserve`. -/
def offered : Event (steps config) → Option ItemId
  | ⟨.reserve id _, _⟩ => some id
  | _ => none

/-- The item that an event charged a show. -/
def charged : Event (steps config) → Option ItemId
  | ⟨.reserve id _, decision⟩ => if decision = Decision.allowed then some id else none
  | _ => none

/-- Every step but a reservation. -/
def Quiet : Op config → Prop
  | .reserve _ _ => False
  | _ => True

theorem quiet_or_reserve (op : Op config) : Quiet op ∨ ∃ id now, op = .reserve id now := by
  cases op with
  | reserve id now => exact Or.inr ⟨id, now, rfl⟩
  | _ => exact Or.inl trivial

variable {event : Event (steps config)}

/-- A quiet step offers nothing. -/
theorem offered_quiet (quiet : Quiet event.op) :
    offered event = none := by
  obtain ⟨op, answer⟩ := event
  cases op with
  | reserve id now => exact quiet.elim
  | _ => rfl

/-- A quiet step charges nothing. -/
theorem charged_quiet (quiet : Quiet event.op) :
    charged event = none := by
  obtain ⟨op, answer⟩ := event
  cases op with
  | reserve id now => exact quiet.elim
  | _ => rfl

/-! ## Requests that do not reserve -/

variable [Scalar D]

/-- Nothing but a live recommendation reserves. -/
theorem uses_handle {request : Request D} (other : isLive request = false) :
    (handle request : Program (steps config) (Response D)).Uses Quiet := by
  refine (uses_permitted request).mono fun op permitted => ?_
  rcases quiet_or_reserve op with quiet | ⟨id, now, rfl⟩
  · exact quiet
  · exact absurd (other.symm.trans permitted) nofun

/-! ## Live recommendations -/

/-- A copy of a shard holds items under their own ids, each once and in the shard
it belongs to. -/
def Consistent : Event (steps config) → Prop
  | ⟨.snapshotShard index, batch⟩ =>
      ((batch : List (ItemId × Item D)).map Prod.fst).Nodup ∧ ∀ entry ∈ batch,
        entry.2.id = entry.1 ∧ ShardedCache.shardIndex (fun id => id) config.cache entry.1 = index
  | _ => True

/-- What a step answers is consistent with what it was. -/
theorem consistent_perform (now : Timestamp) (op : Op config) (state : State config) :
    Consistent (⟨op, (perform now op state).1⟩ : Event (steps config)) := by
  cases op with
  | snapshotShard index =>
      refine ⟨(state.cache.shards index).nodup_keys, fun entry member => ⟨?_, ?_⟩⟩
      · exact state.keyed index entry member
      · exact state.cache.placed index entry member
  | _ => trivial

/-- The copy of one shard. -/
abbrev Batch (config : Config D) : Type :=
  Fin config.cache.shardCount.size × List (ItemId × Item D)

/-- The event of copying a shard out. -/
def copied (batch : Batch config) : Event (steps config) := ⟨.snapshotShard batch.1, batch.2⟩

omit [Scalar D] in
/-- Consistent copies of different shards hold different items. -/
theorem batches_nodup {batches : List (Batch config)}
    (different : (batches.map Prod.fst).Nodup)
    (consistent : ∀ batch ∈ batches, Consistent (copied batch)) :
    (((batches.flatMap Prod.snd).map Prod.snd).map Item.id).Nodup := by
  have keys : ((batches.flatMap Prod.snd).map Prod.snd).map Item.id =
      batches.flatMap fun batch => batch.2.map Prod.fst := by
    rw [List.map_flatMap, List.map_flatMap]
    apply List.flatMap_congr
    intro batch member
    rw [List.map_map]
    exact List.map_congr_left fun entry inside => ((consistent batch member).2 entry inside).1
  rw [keys, List.nodup_flatMap]
  refine ⟨fun batch member => (consistent batch member).1, ?_⟩
  refine (List.pairwise_map.mp different).imp_of_mem fun {first second} inFirst inSecond apart => ?_
  intro key left right
  obtain ⟨leftEntry, leftMember, rfl⟩ := List.mem_map.mp left
  obtain ⟨rightEntry, rightMember, same⟩ := List.mem_map.mp right
  have leftPlace := ((consistent first inFirst).2 leftEntry leftMember).2
  have rightPlace := ((consistent second inSecond).2 rightEntry rightMember).2
  rw [same] at rightPlace
  exact apart (leftPlace.symm.trans rightPlace)

/-- A trace charges the items of a slate, in their order, and offers no item
twice. -/
structure Accounted (trace : List (Event (steps config))) (slate : List (RankedItem D)) :
    Prop where
  returned : trace.filterMap charged = slate.map RankedItem.id
  once : (∀ event ∈ trace, Consistent event) → (trace.filterMap offered).Nodup

omit [Scalar D] in
/-- A quiet step leaves the account. -/
theorem Accounted.quiet {trace : List (Event (steps config))} {slate : List (RankedItem D)}
    (accounted : Accounted trace slate) (quiet : Quiet event.op) :
    Accounted (event :: trace) slate where
  returned := by
    rw [List.filterMap_cons_none (charged_quiet quiet)]
    exact accounted.returned
  once := by
    intro consistent
    rw [List.filterMap_cons_none (offered_quiet quiet)]
    exact accounted.once fun event member => consistent event (List.mem_cons_of_mem _ member)

omit [Scalar D] in
/-- Quiet steps charge and offer nothing. -/
theorem filterMap_quiet {trace : List (Event (steps config))}
    (quiet : ∀ event ∈ trace, Quiet event.op) :
    trace.filterMap charged = [] ∧ trace.filterMap offered = [] :=
  ⟨List.filterMap_eq_nil_iff.mpr fun event member => charged_quiet (quiet event member),
    List.filterMap_eq_nil_iff.mpr fun event member => offered_quiet (quiet event member)⟩

/-- A scan copies out each shard once and considers all copies. -/
theorem traces_scanShards {query : Query D} (indices : List (Fin config.cache.shardCount.size))
    (selector : CandidateSelector query) :
    (scanShards indices selector : Program (steps config) _).Traces fun trace result =>
      ∃ batches : List (Batch config), batches.map Prod.fst = indices ∧ trace = batches.map copied ∧
        result = selector.considerAll config.heaps ((batches.flatMap Prod.snd).map Prod.snd) := by
  induction indices generalizing selector with
  | nil => exact ⟨[], rfl, rfl, rfl⟩
  | cons index indices ih =>
      intro batch
      apply (ih (selector.considerAll config.heaps (batch.map Prod.snd))).mono
      rintro trace result ⟨batches, scanned, copies, considered⟩
      refine ⟨(index, batch) :: batches, ?_, ?_, ?_⟩
      · rw [List.map_cons, scanned]
      · rw [List.map_cons, copies]
        rfl
      · rw [considered, List.flatMap_cons, List.map_append, considerAll_append]

omit [Scalar D] in
/-- What reservations charge and offer. -/
theorem filterMap_reserve (config : Config D) (now : Timestamp)
    (offers : List ((_ : ItemId) × Decision)) :
    (offers.map fun offer => (⟨.reserve offer.1 now, offer.2⟩ : Event (steps config))).filterMap
        charged =
      (offers.filter fun offer => decide (offer.2 = Decision.allowed)).map Sigma.fst ∧
    (offers.map fun offer => (⟨.reserve offer.1 now, offer.2⟩ : Event (steps config))).filterMap
        offered = offers.map Sigma.fst := by
  induction offers with
  | nil => exact ⟨rfl, rfl⟩
  | cons offer offers ih =>
      obtain ⟨id, decision⟩ := offer
      refine ⟨?_, congrArg (id :: ·) ih.2⟩
      rw [List.map_cons, List.filterMap_cons, ih.1, List.filter_cons]
      by_cases allowed : decision = .allowed
      · simp only [charged, allowed, decide_true, ↓reduceIte, List.map_cons]
      · simp only [charged, allowed, decide_false, ↓reduceIte, Bool.false_eq_true]

/-- Scanning and then selecting through `reserve` accounts for the slate. -/
theorem accounted_offers {query : Query D} {now : Timestamp} {batches : List (Batch config)}
    (different : (batches.map Prod.fst).Nodup) {later : List (Event (steps config))}
    {slate : List (RankedItem D)}
    (offers : Offers (S := steps config) (fun id => Op.reserve id now)
      (fun _ decision => decide (decision = Decision.allowed))
      (Selection.start ((create query).considerAll config.heaps
        ((batches.flatMap Prod.snd).map Prod.snd)).shortlist) later slate) :
    Accounted (batches.map copied ++ later) slate := by
  obtain ⟨offers, performed, fresh, returned⟩ := offers
  have quiet : ∀ event ∈ batches.map copied, Quiet event.op := by
    intro event member
    obtain ⟨batch, _, rfl⟩ := List.mem_map.mp member
    trivial
  obtain ⟨nothingCharged, nothingOffered⟩ := filterMap_quiet quiet
  obtain ⟨chargedIds, offeredIds⟩ := filterMap_reserve config now offers
  refine ⟨?_, ?_⟩
  · rw [List.filterMap_append, nothingCharged, List.nil_append, performed, chargedIds, returned]
    rfl
  · intro consistent
    rw [List.filterMap_append, nothingOffered, List.nil_append, performed, offeredIds]
    have distinct := batches_nodup different fun batch member =>
      consistent _ (List.mem_append_left _ (List.mem_map_of_mem member))
    rw [untaken_start] at fresh
    obtain ⟨kept, same, sublist⟩ := fresh
    exact same.nodup_iff.mp ((considerAll_ids_nodup config.heaps query distinct).sublist sublist)

omit [Scalar D] in
theorem Accounted.nil (config : Config D) :
    Accounted ([] : List (Event (steps config))) ([] : List (RankedItem D)) :=
  ⟨rfl, fun _ => List.nodup_nil⟩

/-- A live recommendation returns what it was charged for. -/
theorem traces_onRecommend (requestId : UInt64) (signal : UserSignal D) (count : UInt32) :
    (onRecommend ⟨signal, count, false⟩ : Program (steps config) (ResponseBody D)).Traces
      fun trace body => Accounted trace (slateOf ⟨requestId, body⟩) := by
  unfold onRecommend
  rw [Program.traces_call_bind]
  intro _
  split
  · exact (Accounted.nil config).quiet trivial
  · split
    · exact (Accounted.nil config).quiet trivial
    · rw [Program.traces_call_bind]
      intro now
      rw [Program.traces_bind]
      apply (traces_scanShards _ _).mono
      rintro scanned selector ⟨batches, indices, rfl, rfl⟩
      rw [select_eq, Program.traces_bind]
      apply (traces_selectLoop _ _ _).mono
      intro later slate offers
      have different : (batches.map Prod.fst).Nodup := by
        rw [indices]
        exact List.nodup_finRange _
      have accounted := accounted_offers different offers
      rw [Program.pure_eq, Program.traces_done, List.append_nil]
      refine Accounted.quiet (Accounted.quiet accounted ?_) ?_
      · trivial
      · trivial

/-- Whatever happens in between, a live recommendation is charged exactly for the
slate it returns. -/
theorem traces_handle {request : Request D} (live : isLive request = true) :
    (handle request : Program (steps config) (Response D)).Traces fun trace response =>
      Accounted trace (slateOf response) := by
  obtain ⟨requestId, body⟩ := request
  cases body with
  | recommend recommend =>
      obtain ⟨signal, count, dryRun⟩ := recommend
      cases dryRun with
      | true => cases live
      | false =>
          unfold handle
          rw [Program.traces_call_bind]
          intro _
          rw [Program.traces_bind]
          apply (traces_onRecommend requestId signal count).mono
          intro trace body accounted
          rw [Program.pure_eq, Program.traces_done, List.append_nil]
          exact accounted.quiet trivial
  | _ => cases live

end Lrd.Daemon
