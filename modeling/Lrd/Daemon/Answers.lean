import Lrd.Daemon.Reservations

/-!
# What a response says

Whatever other workers do in between, the response to a request determines the trace of
its steps, or at least the answers it rests on (`Answered`): an item that was found is
one that the cache answered, and the entries of a slate are copies of items that some
snapshot of a shard answered. Every finished request has such a trace
(`traces_answered`).
-/

namespace Lrd.Daemon

open Foundation Common Rank Policy Cache Proto CandidateSelector

variable {D : Type} [Scalar D] {config : Config D}

/-- The texts of the errors that a `PutItem` can meet. -/
def putErrors : List Bytes :=
  [text "item id must not be zero", text "item category must not be empty"]

/-- The texts of the errors that a `Recommend` of the given count meets. -/
def recommendErrors (count : UInt32) : List Bytes :=
  if count = 0 then [text "count must be at least 1"]
  else if kMaxRecommendCount < count then
    [text ("count " ++ toString count ++ " exceeds the limit of " ++ toString kMaxRecommendCount)]
  else []

/-- A slate of at most `count` entries, each a copy of another one of the items that a
scan met. -/
structure Drawn (items : List (Item D)) (count : UInt32) (slate : List (RankedItem D)) :
    Prop where
  copies : ∀ entry ∈ slate, ∃ item ∈ items, entry.label = item.label
  once : (items.map Item.id).Nodup → (slate.map RankedItem.id).Nodup
  short : slate.length ≤ count.toNat

/-- What the body of a response says about the trace of its request. -/
inductive Answered : RequestBody D → List (Event (steps config)) → ResponseBody D → Prop where
  | found (id : ItemId) (item : Item D) :
      Answered (.getItem id) [⟨.bump .gets, ()⟩, ⟨.cacheGet id, some item⟩, ⟨.bump .hits, ()⟩]
        (.getItemResult .ok item)
  | missed (id : ItemId) :
      Answered (.getItem id) [⟨.bump .gets, ()⟩, ⟨.cacheGet id, none⟩, ⟨.bump .misses, ()⟩]
        (.getItemResult .notFound (Item.empty (Scalar.ofNat 0)))
  | stored (item : Item D) (acceptable : Acceptable item) :
      Answered (.putItem item) [⟨.bump .puts, ()⟩, ⟨.cachePut item, ()⟩] (.putItemResult .ok)
  | refused (item : Item D) (message : Bytes) (named : message ∈ putErrors) :
      Answered (.putItem item) [⟨.bump .puts, ()⟩] (.failure .invalidRequest message)
  | deleted (id : ItemId) (erased : Bool) :
      Answered (.deleteItem id) [⟨.bump .deletes, ()⟩, ⟨.cacheErase id, erased⟩]
        (.deleteItemResult (if erased then .ok else .notFound))
  | stats (trace : List (Event (steps config))) (stats : Stats) :
      Answered .getStats trace (.statsResult .ok stats)
  | recommended (recommend : Recommend D) (now : Timestamp) (batches : List (Batch config))
      (later : List (Event (steps config))) (slate : List (RankedItem D))
      (within : recommend.count ≤ kMaxRecommendCount)
      (scanned : batches.map Prod.fst = List.finRange _)
      (drawn : Drawn ((batches.flatMap Prod.snd).map Prod.snd) recommend.count slate) :
      Answered (.recommend recommend)
        (⟨.bump .recommends, ()⟩ :: ⟨.clock, now⟩ :: (batches.map copied ++ later))
        (.recommendResult .ok slate)
  | rejected (recommend : Recommend D) (message : Bytes)
      (named : message ∈ recommendErrors recommend.count) :
      Answered (.recommend recommend) [⟨.bump .recommends, ()⟩] (.failure .invalidRequest message)

/-! ## Slates -/

/-- What a finished recommendation has done: the trace of its scan and of its gate, and a
slate of candidates of the items that the scan met, scored at the time of its clock. -/
inductive Recommended (recommend : Recommend D) :
    List (Event (steps config)) → ResponseBody D → Prop where
  | slate (now : Timestamp) (batches : List (Batch config)) (later : List (Event (steps config)))
      (slate : List (RankedItem D)) (drawn : List (Candidate D))
      (within : recommend.count ≤ kMaxRecommendCount)
      (scanned : batches.map Prod.fst = List.finRange _)
      (among : drawn.Subperm (candidates
        ⟨config.scoring, recommend.signal, now, recommend.count.toUInt64⟩
        ((batches.flatMap Prod.snd).map Prod.snd)))
      (labels : slate.map RankedItem.label = drawn.map Candidate.label)
      (short : slate.length ≤ recommend.count.toNat) :
      Recommended recommend
        (⟨.bump .recommends, ()⟩ :: ⟨.clock, now⟩ :: (batches.map copied ++ later))
        (.recommendResult .ok slate)
  | rejected (message : Bytes) (named : message ∈ recommendErrors recommend.count) :
      Recommended recommend [⟨.bump .recommends, ()⟩] (.failure .invalidRequest message)

/-- What a recommendation does and answers. -/
theorem traces_onRecommend_slate (recommend : Recommend D) :
    (onRecommend recommend : Program (steps config) (ResponseBody D)).Traces
      (Recommended recommend) := by
  unfold onRecommend
  rw [Program.traces_call_bind]
  intro _
  split
  · rename_i zero
    refine .rejected _ ?_
    rw [recommendErrors, if_pos zero]
    exact List.mem_cons_self
  · rename_i positive
    split
    · rename_i exceeds
      refine .rejected _ ?_
      rw [recommendErrors, if_neg positive, if_pos exceeds]
      exact List.mem_cons_self
    · rename_i within
      rw [Program.traces_call_bind]
      intro now
      rw [Program.traces_bind]
      apply (traces_scanShards _ _).mono
      intro trace selector scan
      obtain ⟨batches, scanned, rfl, rfl⟩ := scan
      rw [select_eq, Program.traces_bind]
      apply (traces_selectLoop_drawn _ _ _ _).mono
      intro later slate drawing
      obtain ⟨drawn, shortlisted, labels, bounded⟩ := drawing
      rw [untaken_start] at shortlisted
      rw [Program.pure_eq, Program.traces_done, List.append_nil]
      refine .slate now batches later slate drawn (UInt32.not_lt.mp within) scanned ?_ labels ?_
      · exact shortlisted.trans (considerAll_subperm config.heaps _ _)
      · simpa [Selection.start] using bounded

variable {slate : List (RankedItem D)} {drawn : List (Candidate D)}
  {call : Call (steps config) (Request D) (Response D)} {response : Response D}

omit [Scalar D] in
/-- Entries that carry the labels of candidates have their ids. -/
theorem ids_of_labels (labels : slate.map RankedItem.label = drawn.map Candidate.label) :
    slate.map RankedItem.id = drawn.map Candidate.id := by
  have firsts := congrArg (List.map Prod.fst) labels
  rw [List.map_map, List.map_map] at firsts
  exact firsts

/-- An entry of a slate of candidates copies an item that became a candidate. -/
theorem item_of_entry {query : Query D} {items : List (Item D)}
    (among : drawn.Subperm (candidates query items))
    (labels : slate.map RankedItem.label = drawn.map Candidate.label) {entry : RankedItem D}
    (member : entry ∈ slate) :
    ∃ item ∈ items, entry.label = item.label ∧ (candidateOf query item).isSome := by
  have copied : entry.label ∈ drawn.map Candidate.label := by
    rw [← labels]
    exact List.mem_map_of_mem member
  obtain ⟨candidate, picked, same⟩ := List.mem_map.mp copied
  obtain ⟨item, considered, offered⟩ := List.mem_filterMap.mp (among.subset picked)
  refine ⟨item, considered, same.symm.trans (candidateOf_label offered), ?_⟩
  rw [offered]
  rfl

/-- A slate of candidates is drawn from the items considered. -/
theorem drawn_of_candidates {query : Query D} {items : List (Item D)} {count : UInt32}
    (among : drawn.Subperm (candidates query items))
    (labels : slate.map RankedItem.label = drawn.map Candidate.label)
    (short : slate.length ≤ count.toNat) : Drawn items count slate := by
  refine ⟨?_, ?_, short⟩
  · intro entry member
    obtain ⟨item, considered, label, _⟩ := item_of_entry among labels member
    exact ⟨item, considered, label⟩
  · intro distinct
    rw [ids_of_labels labels]
    obtain ⟨kept, same, sublist⟩ := among
    refine ((same.map Candidate.id).nodup_iff).mp ?_
    exact distinct.sublist ((sublist.map Candidate.id).trans (candidates_ids_sublist query items))

/-- The answer of a recommendation, with what it has done for it. -/
theorem traces_onRecommend_answered (recommend : Recommend D) :
    (onRecommend recommend : Program (steps config) (ResponseBody D)).Traces
      (Answered (.recommend recommend)) := by
  apply (traces_onRecommend_slate recommend).mono
  intro trace body recommended
  cases recommended with
  | slate now batches later slate drawn within scanned among labels short =>
      exact .recommended recommend now batches later slate within scanned
        (drawn_of_candidates among labels short)
  | rejected message named => exact .rejected recommend message named

/-! ## Requests -/

/-- The answer of a lookup. -/
theorem traces_onGet (id : ItemId) :
    (onGet id : Program (steps config) (ResponseBody D)).Traces (Answered (.getItem id)) := by
  intro _ item
  cases item with
  | none =>
      intro _
      exact .missed id
  | some item =>
      intro _
      exact .found id item

/-- The answer of a put. -/
theorem traces_onPut (item : Item D) :
    (onPut item : Program (steps config) (ResponseBody D)).Traces (Answered (.putItem item)) := by
  unfold onPut
  rw [Program.traces_call_bind]
  intro _
  split
  · exact .refused item _ List.mem_cons_self
  · rename_i someId
    split
    · exact .refused item _ (List.mem_cons_of_mem _ List.mem_cons_self)
    · rename_i someCategory
      rw [Program.traces_call_bind]
      intro _
      rw [List.isEmpty_iff] at someCategory
      exact .stored item ⟨someId, someCategory⟩

theorem traces_onDelete (id : ItemId) :
    (onDelete id : Program (steps config) (ResponseBody D)).Traces (Answered (.deleteItem id)) := by
  intro _ erased
  exact .deleted id erased

/-- The answer to a request for statistics. -/
theorem traces_onStats :
    (onStats : Program (steps config) (ResponseBody D)).Traces (Answered .getStats) := by
  unfold onStats
  rw [Program.traces_bind]
  refine Program.traces_of_all _ fun trace stats => ?_
  exact .stats _ stats

/-- A request counts itself, and then does what its body asks for. -/
theorem traces_handle_body {request : Request D}
    {post : List (Event (steps config)) → ResponseBody D → Prop}
    (traces : (dispatch request.body).Traces post) :
    (handle request).Traces fun trace response =>
      response.requestId = request.requestId ∧ ∃ rest,
        trace = ⟨.bump .requests, ()⟩ :: rest ∧ post rest response.body := by
  unfold handle
  rw [Program.traces_call_bind]
  intro _
  rw [Program.traces_bind]
  apply traces.mono
  intro trace body holds
  rw [Program.pure_eq, Program.traces_done, List.append_nil]
  exact ⟨rfl, trace, rfl, holds⟩

/-- Every finished request carries its id and is answered by its trace. -/
theorem traces_answered (request : Request D) :
    (handle request : Program (steps config) (Response D)).Traces fun trace response =>
      response.requestId = request.requestId ∧ ∃ rest,
        trace = ⟨.bump .requests, ()⟩ :: rest ∧ Answered request.body rest response.body := by
  apply traces_handle_body
  cases request.body with
  | getItem id => exact traces_onGet id
  | putItem item => exact traces_onPut item
  | deleteItem id => exact traces_onDelete id
  | getStats => exact traces_onStats
  | recommend recommend => exact traces_onRecommend_answered recommend

/-- What holds of the traces of a request holds of a finished call of it. -/
theorem traced_of_finished (schedule : List (Label Timestamp (Request D)))
    (made : call ∈ (reached config schedule).calls) (finished : call.result? = some response)
    {post : List (Event (steps config)) → Response D → Prop}
    (traces : (handle call.request).Traces post) : post call.trace response :=
  System.run_traced (State.initial config) schedule made finished traces

/-- The trace of a finished call answers its request. -/
theorem answered_of_finished (schedule : List (Label Timestamp (Request D)))
    (made : call ∈ (reached config schedule).calls) (finished : call.result? = some response) :
    response.requestId = call.request.requestId ∧ ∃ rest,
      call.trace = ⟨.bump .requests, ()⟩ :: rest ∧
        Answered call.request.body rest response.body :=
  traced_of_finished schedule made finished (traces_answered call.request)

/-- The trace of a finished recommendation is that of its scan and of its gate. -/
theorem recommended_of_finished (schedule : List (Label Timestamp (Request D)))
    (made : call ∈ (reached config schedule).calls) (finished : call.result? = some response)
    {recommend : Recommend D} (asked : call.request.body = .recommend recommend) :
    ∃ rest, call.trace = ⟨.bump .requests, ()⟩ :: rest ∧
      Recommended recommend rest response.body := by
  apply (traced_of_finished schedule made finished (traces_handle_body ?_)).2
  rw [asked]
  exact traces_onRecommend_slate recommend

end Lrd.Daemon
