import Lrd.Daemon.Handler
import Lrd.Policy.ItemView

/-!
# One recommendation

What `handle` does with a `Recommend` request that runs alone: the slate is the
selector's over the cached items, gated by `reserve` against the evolving store
for a live request and by `check` against the store as it stands for a dry run
(`slate_live`, `slate_dry`).
-/

namespace Lrd.Daemon

open Foundation Common Rank Policy Cache Proto CandidateSelector

variable {D : Type} [Scalar D] {config : Config D}

/-- Handle one request alone, with the clock at one instant. -/
def respond (state : State config) (now : Timestamp) (request : Request D) :
    Response D × State config :=
  (handle request).run (perform now) state

/-- The slate a response carries. -/
def slateOf (response : Response D) : List (RankedItem D) :=
  match response.body with
  | .recommendResult _ items => items
  | _ => []

/-- The cached items, in the order a scan meets them. -/
def State.cached (state : State config) : List (Item D) := state.cache.held.map Prod.snd

omit [Scalar D] in
/-- The cached items have different ids. -/
theorem State.cached_ids_nodup (state : State config) : (state.cached.map Item.id).Nodup := by
  have keys := state.cache.nodup_keys
  have same : state.cached.map Item.id = state.cache.held.map Prod.fst := by
    rw [State.cached, List.map_map]
    apply List.map_congr_left
    intro entry member
    obtain ⟨index, _, inside⟩ := List.mem_flatMap.mp member
    exact state.keyed index entry inside
  rw [same]
  exact keys

/-! ## Running the parts -/

/-- A scan in one go considers what is cached, shard after shard. -/
theorem run_scanShards (now : Timestamp) {query : Query D}
    (indices : List (Fin config.cache.shardCount.size)) (selector : CandidateSelector query)
    (state : State config) :
    (scanShards indices selector).run (perform now) state =
      (selector.considerAll config.heaps
        ((indices.flatMap state.cache.snapshotShard).map Prod.snd), state) := by
  induction indices generalizing selector with
  | nil => rfl
  | cons index indices ih =>
      rw [List.flatMap_cons, List.map_append, considerAll_append]
      exact ih _

/-- The gate of a live request, as a computation on the store. -/
def reserveGate (settings : Policy.Settings) (now : Timestamp) (id : ItemId) :
    StateM (ExposureStore settings) Bool := fun store =>
  (decide ((store.reserve D id now).1 = .allowed), (store.reserve D id now).2)

/-- A live selection in one go reserves what it offers. -/
theorem run_selectLoop_live (now : Timestamp) (query : Query D) (fuel : Nat)
    (selection : Selection D) (state : State config) :
    (selectLoop query (some (accept now false)) fuel selection).run (perform now) state =
      ((selectLoop query (some (reserveGate (D := D) config.policy now)) fuel selection
          state.policy).1,
        { state with policy := (selectLoop query
          (some (reserveGate (D := D) config.policy now)) fuel selection state.policy).2 }) := by
  induction fuel generalizing selection state with
  | zero => rfl
  | succ fuel ih =>
      rw [selectLoop_succ, selectLoop_succ]
      by_cases room : selection.chosen.length < query.count.toNat
      · rw [if_pos room, if_pos room]
        cases pick query selection with
        | none => rfl
        | some best =>
            have bound : ∀ next : Bool → StateM (ExposureStore config.policy) (List (RankedItem D)),
                (reserveGate (D := D) config.policy now best.candidate.id >>= next) state.policy =
                  next (decide ((state.policy.reserve D best.candidate.id now).1 = .allowed))
                    (state.policy.reserve D best.candidate.id now).2 := fun _ => rfl
            change (if decide ((state.policy.reserve D best.candidate.id now).1 = .allowed) then _
              else _ : Program (steps config) _).run (perform now)
                { state with policy := (state.policy.reserve D best.candidate.id now).2 } = _
            simp only [consult, bound]
            by_cases allowed : (state.policy.reserve D best.candidate.id now).1 = .allowed
            · simp only [allowed, decide_true, ↓reduceIte]
              exact ih _ _
            · simp only [allowed, decide_false, Bool.false_eq_true, ↓reduceIte]
              exact ih _ _
      · rw [if_neg room, if_neg room]
        rfl

/-- A preview in one go checks what it offers and changes nothing. -/
theorem run_selectLoop_dry (now : Timestamp) (query : Query D) (fuel : Nat)
    (selection : Selection D) (state : State config) :
    (selectLoop query (some (accept now true)) fuel selection).run (perform now) state =
      (selectLoop (m := Id) query
        (some fun id => decide (state.policy.check D id now = .allowed)) fuel selection,
        state) := by
  induction fuel generalizing selection with
  | zero => rfl
  | succ fuel ih =>
      rw [selectLoop_succ, selectLoop_succ]
      by_cases room : selection.chosen.length < query.count.toNat
      · rw [if_pos room, if_pos room]
        cases pick query selection with
        | none => rfl
        | some best =>
            change (if decide (state.policy.check D best.candidate.id now = .allowed) then _
              else _ : Program (steps config) _).run (perform now) state =
              ((if decide (state.policy.check D best.candidate.id now = .allowed) then _ else _ :
                Id (List (RankedItem D))), state)
            by_cases allowed : state.policy.check D best.candidate.id now = .allowed
            · simp only [allowed, decide_true, ↓reduceIte]
              exact ih _
            · simp only [allowed, decide_false, Bool.false_eq_true, ↓reduceIte]
              exact ih _
      · rw [if_neg room, if_neg room]
        rfl

/-! ## The slate of a request -/

/-- What the selector of a request is asked. -/
def queryOf (config : Config D) (now : Timestamp) (signal : UserSignal D) (count : UInt32) :
    Query D :=
  ⟨config.scoring, signal, now, count.toUInt64⟩

/-- The shortlist a request run alone works with. -/
def shortlistOf (state : State config) (query : Query D) : List (Candidate D) :=
  ((create query).considerAll config.heaps state.cached).shortlist

/-- A request for between one and a hundred items returns what its selector
selects. -/
theorem slate_select (state : State config) (now : Timestamp) (requestId : UInt64)
    (signal : UserSignal D) (count : UInt32) (dryRun : Bool) (positive : count ≠ 0)
    (within : ¬ kMaxRecommendCount < count) :
    slateOf (respond state now ⟨requestId, .recommend ⟨signal, count, dryRun⟩⟩).1 =
      ((selectLoop (queryOf config now signal count) (some (accept now dryRun))
        (shortlistOf state (queryOf config now signal count)).length
        (Selection.start (shortlistOf state (queryOf config now signal count)))).run (perform now)
          (perform now (.bump .recommends) (perform now (.bump .requests) state).2).2).1 := by
  simp only [respond, handle, dispatch, onRecommend, Program.run_bind, positive, within,
    ↓reduceIte, run_scanShards, select_eq]
  rfl

/-- A live slate is selected through `reserve`, against the store as the request
changes it. -/
theorem slate_live (state : State config) (now : Timestamp) (requestId : UInt64)
    (signal : UserSignal D) (count : UInt32) (positive : count ≠ 0)
    (within : ¬ kMaxRecommendCount < count) :
    slateOf (respond state now ⟨requestId, .recommend ⟨signal, count, false⟩⟩).1 =
      (selectLoop (queryOf config now signal count)
        (some (reserveGate (D := D) config.policy now))
        (shortlistOf state (queryOf config now signal count)).length
        (Selection.start (shortlistOf state (queryOf config now signal count)))
          state.policy).1 := by
  rw [slate_select state now requestId signal count false positive within, run_selectLoop_live]
  rfl

/-- A dry slate is selected through `check`, against the store as it stands. -/
theorem slate_dry (state : State config) (now : Timestamp) (requestId : UInt64)
    (signal : UserSignal D) (count : UInt32) (positive : count ≠ 0)
    (within : ¬ kMaxRecommendCount < count) :
    slateOf (respond state now ⟨requestId, .recommend ⟨signal, count, true⟩⟩).1 =
      selectLoop (m := Id) (queryOf config now signal count)
        (some fun id => decide (state.policy.check D id now = .allowed))
        (shortlistOf state (queryOf config now signal count)).length
        (Selection.start (shortlistOf state (queryOf config now signal count))) := by
  rw [slate_select state now requestId signal count true positive within, run_selectLoop_dry]
  rfl

/-- A count out of range is answered by a failure. -/
theorem slate_invalid (state : State config) (now : Timestamp) (requestId : UInt64)
    (signal : UserSignal D) (count : UInt32) (dryRun : Bool)
    (invalid : count = 0 ∨ kMaxRecommendCount < count) :
    slateOf (respond state now ⟨requestId, .recommend ⟨signal, count, dryRun⟩⟩).1 = [] := by
  by_cases zero : count = 0
  · simp only [respond, handle, dispatch, onRecommend, Program.run_bind, zero, ↓reduceIte]
    rfl
  · have large : kMaxRecommendCount < count := invalid.resolve_left zero
    simp only [respond, handle, dispatch, onRecommend, Program.run_bind, zero, large, ↓reduceIte]
    rfl

theorem untaken_shortlistOf_nodup (state : State config) (query : Query D) :
    ((untaken (Selection.start (shortlistOf state query)).slots).map Candidate.id).Nodup := by
  rw [untaken_start]
  exact considerAll_ids_nodup config.heaps query state.cached_ids_nodup

end Lrd.Daemon
