import Lrd.Daemon.Scans
import Lrd.Foundation.Linearization

/-!
# The catalogue is linearizable

A lookup, a put or a delete counts itself and goes to the cache once, by key. Whatever the
other workers do in between, it takes effect at that one step, so the requests to the
catalogue look as if the daemon had handled them one at a time, each somewhere between its
arrival and its answer (`catalogue_linearizable`). Recommendations and statistics run beside
them and are not in the order: they leave the cache alone.
-/

namespace Lrd.Daemon

open Foundation Common Rank Policy Cache Proto

variable {D : Type} [Scalar D] {config : Config D}

/-- The daemon when it is asked one request after another, with the clock at one instant. -/
def oneAtATime (config : Config D) (now : Timestamp) :
    Machine (State config) (Request D) (Response D) where
  step state request := respond state now request

/-- The step at which a request to the catalogue takes effect. A put that is refused never
reaches the cache and takes effect when it is counted. -/
def takesEffectAt (request : Request D) : Op config → Bool
  | .cacheGet _ => true
  | .cachePut _ => true
  | .cacheErase _ => true
  | .bump .puts =>
      match request.body with
      | .putItem item => !decide (Acceptable item)
      | _ => false
  | _ => false

/-- Two states hold the same items, in the same order of use. -/
def SameCache (state other : State config) : Prop := state.cache = other.cache

/-- A step that leaves the cache keeps the view. -/
theorem keeps_of_view {op : Op config}
    (keeps : ∀ now (state : State config), (perform now op state).2.cache = state.cache) :
    (workers config).Keeps SameCache op :=
  fun now state _ same => (keeps now state).trans same

theorem keeps_bump (counter : Counter) :
    (workers config).Keeps SameCache (.bump counter : Op config) :=
  keeps_of_view fun _ _ => rfl

/-! ## The requests -/

variable {item : Item D}

section Requests

variable (now : Timestamp) (requestId : UInt64)

/-- What a lookup does with what the cache answered. -/
def lookedUp : Option (Item D) → Program (steps config) (Response D)
  | none => do
      step (.bump .misses)
      return ⟨requestId, .getItemResult .notFound (Item.empty (Scalar.ofNat 0))⟩
  | some item => do
      step (.bump .hits)
      return ⟨requestId, .getItemResult .ok item⟩

/-- The steps of a lookup. -/
theorem handle_getItem (id : ItemId) :
    (handle ⟨requestId, .getItem id⟩ : Program (steps config) (Response D)) =
      .perform (.bump .requests) fun _ => .perform (.bump .gets) fun _ =>
        .perform (.cacheGet id) (lookedUp requestId) := by
  unfold handle dispatch onGet
  refine congrArg (Program.perform _) (funext fun _ => congrArg (Program.perform _)
    (funext fun _ => congrArg (Program.perform _) (funext fun item => ?_)))
  cases item with
  | none => rfl
  | some item => rfl

/-- A lookup takes effect at its step on the cache. -/
theorem pending_getItem (id : ItemId) :
    (workers config).Pending SameCache (oneAtATime config now)
      (takesEffectAt ⟨requestId, .getItem id⟩) ⟨requestId, .getItem id⟩
      (handle ⟨requestId, .getItem id⟩) := by
  have unfolded : (handle ⟨requestId, .getItem id⟩ : Program (steps config) (Response D)) = _ :=
    handle_getItem requestId id
  rw [unfolded]
  refine .keep rfl (keeps_bump _) fun _ => .keep rfl (keeps_bump _) fun _ => .commit rfl ?_
  intro environment state other same
  have answers : (state.cache.get id).1 = (other.cache.get id).1 := by rw [same]
  have caches : (state.cache.get id).2 = (other.cache.get id).2 := by rw [same]
  have alone : (oneAtATime config now).step other ⟨requestId, .getItem id⟩ =
      (lookedUp requestId (other.cache.get id).1).run (perform now)
        (perform now (.cacheGet id) (perform now (.bump .gets)
          (perform now (.bump .requests) other).2).2).2 := by
    change (handle _).run (perform now) other = _
    rw [unfolded]
    rfl
  change (state.cache.get id).2 = _ ∧ (workers config).Settled SameCache _ _
    (lookedUp requestId (state.cache.get id).1)
  rw [alone, caches, answers]
  cases (other.cache.get id).1 with
  | none => exact ⟨rfl, rfl, keeps_bump _, fun _ => rfl⟩
  | some item => exact ⟨rfl, rfl, keeps_bump _, fun _ => rfl⟩

/-- A deletion takes effect at its step on the cache. -/
theorem pending_deleteItem (id : ItemId) :
    (workers config).Pending SameCache (oneAtATime config now)
      (takesEffectAt ⟨requestId, .deleteItem id⟩) ⟨requestId, .deleteItem id⟩
      (handle ⟨requestId, .deleteItem id⟩) := by
  refine .keep rfl (keeps_bump _) fun _ => .keep rfl (keeps_bump _) fun _ => .commit rfl ?_
  intro environment state other same
  have answers : (state.cache.erase id).1 = (other.cache.erase id).1 := by rw [same]
  have caches : (state.cache.erase id).2 = (other.cache.erase id).2 := by rw [same]
  refine ⟨caches, ?_⟩
  change (⟨requestId, .deleteItemResult (if (state.cache.erase id).1 then .ok else .notFound)⟩ :
    Response D) = ⟨requestId, .deleteItemResult (if (other.cache.erase id).1 then .ok else .notFound)⟩
  rw [answers]

/-- The steps of a put, up to its checks. -/
theorem handle_putItem {rest : Unit → Program (steps config) (ResponseBody D)}
    (unfolded : onPut item = .perform (.bump .puts) rest) :
    (handle ⟨requestId, .putItem item⟩ : Program (steps config) (Response D)) =
      .perform (.bump .requests) fun _ => .perform (.bump .puts) fun answer =>
        rest answer >>= fun body => .done ⟨requestId, body⟩ := by
  unfold handle dispatch
  simp only [unfolded]
  rfl

omit [Scalar D] in
/-- A put of an item that is refused counts itself and nothing else. -/
theorem onPut_refused (refused : ¬ Acceptable item) :
    ∃ message, (onPut item : Program (steps config) (ResponseBody D)) =
      .perform (.bump .puts) fun _ => .done (.failure .invalidRequest message) := by
  unfold onPut
  by_cases zero : item.id = 0
  · simp only [if_pos zero]
    exact ⟨_, rfl⟩
  · have empty : item.category.isEmpty = true := by
      by_contra filled
      exact refused ⟨zero, fun none => filled (List.isEmpty_iff.mpr none)⟩
    simp only [if_neg zero, if_pos empty]
    exact ⟨_, rfl⟩

omit [Scalar D] in
/-- A put that is not refused writes the cache and answers. -/
theorem onPut_acceptable (acceptable : Acceptable item) :
    (onPut item : Program (steps config) (ResponseBody D)) =
      .perform (.bump .puts) fun _ => .perform (.cachePut item) fun _ =>
        .done (.putItemResult .ok) := by
  unfold onPut
  simp only [if_neg acceptable.1, if_neg fun empty => acceptable.2 (List.isEmpty_iff.mp empty)]
  rfl

/-- A put takes effect at its step on the cache, and one that is refused has none. -/
theorem pending_putItem (item : Item D) :
    (workers config).Pending SameCache (oneAtATime config now)
      (takesEffectAt ⟨requestId, .putItem item⟩) ⟨requestId, .putItem item⟩
      (handle ⟨requestId, .putItem item⟩) := by
  by_cases acceptable : Acceptable item
  · have accepted : (onPut item : Program (steps config) (ResponseBody D)) = _ :=
      onPut_acceptable acceptable
    have unfolded := handle_putItem requestId accepted
    have silent : takesEffectAt ⟨requestId, .putItem item⟩ (.bump .puts : Op config) = false := by
      simp only [takesEffectAt, acceptable, decide_true, Bool.not_true]
    rw [unfolded]
    refine .keep rfl (keeps_bump _) fun _ => .keep silent (keeps_bump _) fun _ => .commit rfl ?_
    intro environment state other same
    have alone : (oneAtATime config now).step other ⟨requestId, .putItem item⟩ =
        (⟨requestId, .putItemResult .ok⟩, (perform now (.cachePut item) (perform now (.bump .puts)
          (perform now (.bump .requests) other).2).2).2) := by
      change (handle _).run (perform now) other = _
      rw [unfolded]
      rfl
    rw [alone]
    refine ⟨?_, rfl⟩
    change state.cache.put item.id item = other.cache.put item.id item
    rw [same]
  · obtain ⟨message, refused⟩ : ∃ message, (onPut item : Program (steps config) (ResponseBody D)) =
        .perform (.bump .puts) fun _ => .done (.failure .invalidRequest message) :=
      onPut_refused acceptable
    have unfolded := handle_putItem requestId refused
    have loud : takesEffectAt ⟨requestId, .putItem item⟩ (.bump .puts : Op config) = true := by
      simp only [takesEffectAt, acceptable, decide_false, Bool.not_false]
    rw [unfolded]
    refine .keep rfl (keeps_bump _) fun _ => .commit loud ?_
    intro environment state other same
    have alone : (oneAtATime config now).step other ⟨requestId, .putItem item⟩ =
        (⟨requestId, .failure .invalidRequest message⟩,
          (perform now (.bump .puts) (perform now (.bump .requests) other).2).2) := by
      change (handle _).run (perform now) other = _
      rw [unfolded]
      rfl
    rw [alone]
    exact ⟨same, rfl⟩

end Requests

/-- Requests that do not go to the catalogue leave the cache alone. -/
theorem keeps_permitted {request : Request D} (unused : usesCache request = false) {op : Op config}
    (permitted : Permits request op) : (workers config).Keeps SameCache op :=
  keeps_of_view fun now state => perform_cache unused now state permitted

/-- The catalogue as the workers use it. -/
def catalogue (config : Config D) (now : Timestamp) :
    Atomic (workers config) (oneAtATime config now) where
  related := SameCache
  covers := usesCache
  commits := takesEffectAt
  pending := by
    intro request uses
    obtain ⟨requestId, body⟩ := request
    cases body with
    | getItem id => exact pending_getItem now requestId id
    | putItem item => exact pending_putItem now requestId item
    | deleteItem id => exact pending_deleteItem now requestId id
    | getStats => cases uses
    | recommend recommend => cases uses
  silent := by
    intro request unused
    exact (uses_permitted request).mono fun op => keeps_permitted unused

/-- **The catalogue is linearizable.** For every interleaving of the workers there is an order
of the lookups, puts and deletes, every finished one among them, in which the daemon, asked one
after another, gives exactly the answers that were returned. A request that was answered before
another one arrived comes before it. -/
theorem catalogue_linearizable (now : Timestamp) (schedule : List (Label Timestamp (Request D))) :
    ∃ points : List (Point (Request D) (Response D)),
      Linearization (oneAtATime config now) (State.initial config) usesCache
        (reached config schedule) points ∧
      ∀ earlier, earlier <+: schedule → ∀ first second call,
        (reached config earlier).calls[first]? = some call → usesCache call.request = true →
        call.result?.isSome → (reached config earlier).calls.length ≤ second →
        second ∈ points.map Point.index →
        [first, second].Sublist (points.map Point.index) := by
  have begin : (catalogue config now).related (State.initial config) (State.initial config) := rfl
  refine ⟨_, (catalogue config now).linearizes begin schedule, ?_⟩
  rintro earlier ⟨later, rfl⟩ first second call found covered returned unmade marked
  exact (catalogue config now).linearize_sublist begin found covered returned unmade marked

end Lrd.Daemon
