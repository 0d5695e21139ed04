import Lrd.Daemon.Recommend

/-!
# What a request may do

The steps that a request may perform, whatever answers it gets (`uses_permitted`): only
a `PutItem` stores, and it stores its own item; only a `DeleteItem` erases; only a
`GetItem` marks an item as used; only a live recommendation reserves.
-/

namespace Lrd.Daemon

open Foundation Common Rank Policy Cache Proto CandidateSelector

variable {D : Type} {config : Config D}

/-- Whether a request is a recommendation that is not a dry run. -/
def isLive (request : Request D) : Bool :=
  match request.body with
  | .recommend recommend => !recommend.dryRun
  | _ => false

/-- An item that `on_put` takes. -/
def Acceptable (item : Item D) : Prop := item.id ≠ 0 ∧ item.category ≠ []

instance (item : Item D) : Decidable (Acceptable item) :=
  inferInstanceAs (Decidable (_ ∧ _))

/-- Steps that read something other than a counter, or count something other than puts
and deletes. -/
def Observes : Op config → Prop
  | .bump .puts => False
  | .bump .deletes => False
  | .load _ => False
  | .cacheGet _ => False
  | .cachePut _ => False
  | .cacheErase _ => False
  | .reserve _ _ => False
  | _ => True

/-- The steps that a request may perform. -/
def Permits (request : Request D) : Op config → Prop
  | .bump .puts => ∃ item, request.body = .putItem item
  | .bump .deletes => ∃ id, request.body = .deleteItem id
  | .load _ => request.body = .getStats
  | .cacheGet id => request.body = .getItem id
  | .cachePut item => request.body = .putItem item ∧ Acceptable item
  | .cacheErase id => request.body = .deleteItem id
  | .reserve _ _ => isLive request = true
  | _ => True

/-- Reading is always permitted. -/
theorem Observes.permitted {op : Op config} (observes : Observes op) (request : Request D) :
    Permits request op := by
  cases op with
  | bump counter =>
      cases counter with
      | puts => exact observes.elim
      | deletes => exact observes.elim
      | _ => trivial
  | load counter => exact observes.elim
  | cacheGet id => exact observes.elim
  | cachePut item => exact observes.elim
  | cacheErase id => exact observes.elim
  | reserve id now => exact observes.elim
  | _ => trivial

/-! ## Reading the counters -/

theorem uses_step {allowed : Op config → Prop} (op : Op config) (holds : allowed op) :
    (step op).Uses allowed :=
  Program.uses_call holds

/-- A sum over shards uses what its parts use. -/
theorem uses_sumShards {ι : Type} {allowed : Op config → Prop}
    {ask : ι → Program (steps config) UInt64}
    (each : ∀ index, (ask index).Uses allowed) (indices : List ι) (total : UInt64) :
    (sumShards ask indices total).Uses allowed := by
  induction indices generalizing total with
  | nil => trivial
  | cons index indices ih => exact Program.uses_bind (each index) fun _ => ih _

/-- The metrics of the policy store are read only. -/
theorem uses_policyMetrics :
    (policyMetrics : Program (steps config) PolicyMetrics).Uses Observes := by
  unfold policyMetrics
  iterate 5
    refine Program.uses_bind (uses_step _ trivial) fun _ => ?_
  exact Program.uses_bind
    (uses_sumShards (fun index => uses_step (.policySize index) trivial) _ _) fun _ => trivial

/-- The statistics are read only, apart from the noise. -/
theorem uses_stats (requestId : UInt64) :
    (stats : Program (steps config) Stats).Uses
      (Permits (⟨requestId, .getStats⟩ : Request D)) := by
  unfold stats
  iterate 7
    refine Program.uses_bind (uses_step _ rfl) fun _ => ?_
  refine Program.uses_bind (uses_sumShards (fun _ => ?_) _ _) fun _ => ?_
  · exact Program.uses_bind (uses_step _ trivial) fun _ => trivial
  · refine Program.uses_bind
      (uses_sumShards (fun index => uses_step (.cacheSize index) trivial) _ _) fun _ => ?_
    refine Program.uses_bind (uses_policyMetrics.mono fun op observes => ?_) fun _ => trivial
    exact observes.permitted _

/-! ## Requests -/

section Requests

variable [Scalar D]

/-- A scan reads only. -/
theorem uses_scanShards {query : Query D} (indices : List (Fin config.cache.shardCount.size))
    (selector : CandidateSelector query) :
    (scanShards indices selector : Program (steps config) _).Uses Observes := by
  induction indices generalizing selector with
  | nil => trivial
  | cons index indices ih => exact Program.uses_bind (uses_step _ trivial) fun _ => ih _

omit [Scalar D] in
/-- The gate of a request reserves only when the request is live. -/
theorem uses_accept (requestId : UInt64) (recommend : Recommend D) (now : Timestamp)
    (id : ItemId) :
    (accept now recommend.dryRun id : Program (steps config) Bool).Uses
      (Permits ⟨requestId, .recommend recommend⟩) := by
  unfold accept
  split
  · exact Program.uses_bind (uses_step _ trivial) fun _ => trivial
  · rename_i live
    refine Program.uses_bind (uses_step _ ?_) fun _ => trivial
    rw [Bool.not_eq_true] at live
    simp only [Permits, isLive, live, Bool.not_false]

/-- A recommendation uses the steps of its kind. -/
theorem uses_onRecommend (requestId : UInt64) (recommend : Recommend D) :
    (onRecommend recommend : Program (steps config) (ResponseBody D)).Uses
      (Permits ⟨requestId, .recommend recommend⟩) := by
  unfold onRecommend
  refine Program.uses_bind (uses_step _ trivial) fun _ => ?_
  split
  · trivial
  · split
    · trivial
    · refine Program.uses_bind (uses_step _ trivial) fun now => ?_
      refine Program.uses_bind ((uses_scanShards _ _).mono fun op observes =>
        observes.permitted _) fun selector => ?_
      rw [select_eq]
      refine Program.uses_bind (uses_selectLoop _ (fun id => ?_) _ _) fun _ => trivial
      exact uses_accept requestId recommend now id

omit [Scalar D] in
/-- A put uses the steps of its kind. -/
theorem uses_onPut (requestId : UInt64) (item : Item D) :
    (onPut item : Program (steps config) (ResponseBody D)).Uses
      (Permits ⟨requestId, .putItem item⟩) := by
  unfold onPut
  refine Program.uses_bind (uses_step _ ⟨item, rfl⟩) fun _ => ?_
  split
  · trivial
  · rename_i someId
    split
    · trivial
    · rename_i someCategory
      refine Program.uses_bind (uses_step _ ⟨rfl, someId, ?_⟩) fun _ => trivial
      rwa [List.isEmpty_iff] at someCategory

/-- A request performs only what it may. -/
theorem uses_permitted (request : Request D) :
    (handle request : Program (steps config) (Response D)).Uses (Permits request) := by
  obtain ⟨requestId, body⟩ := request
  unfold handle
  refine Program.uses_bind (uses_step _ trivial) fun _ =>
    Program.uses_bind ?_ fun _ => trivial
  cases body with
  | getItem itemId =>
      refine Program.uses_bind (uses_step _ trivial) fun _ => ?_
      refine Program.uses_bind (uses_step _ rfl) fun item => ?_
      cases item with
      | none => exact Program.uses_bind (uses_step _ trivial) fun _ => trivial
      | some item => exact Program.uses_bind (uses_step _ trivial) fun _ => trivial
  | putItem item => exact uses_onPut requestId item
  | deleteItem itemId =>
      refine Program.uses_bind (uses_step _ ⟨itemId, rfl⟩) fun _ => ?_
      exact Program.uses_bind (uses_step _ rfl) fun _ => trivial
  | getStats =>
      refine Program.uses_bind (Program.uses_bind (uses_stats requestId) fun _ => ?_) fun _ => trivial
      exact Program.uses_bind (uses_step _ trivial) fun _ => trivial
  | recommend recommend => exact uses_onRecommend requestId recommend

end Requests

end Lrd.Daemon
