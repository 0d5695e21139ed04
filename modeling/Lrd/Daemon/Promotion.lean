import Lrd.Daemon.ExactCounters
import Lrd.Rank.Raise

/-!
# Publishing an item again

An item that is published again with a higher base score, all else being equal, does not move
down: whatever slate held it before holds it afterwards, no later and behind the same entries
(`promotion_keeps_place`). This is so for previews, and for live requests as long as the policy
store does not discard counters. A store that fails open may forget the shows of an item while
others ahead of it are offered, so an item that comes earlier may be refused.
-/

namespace Lrd.Daemon

open Foundation Common Rank Policy Cache Proto CandidateSelector

/-! ## The cache -/

section Cached

variable {K V : Type} [DecidableEq K] {hash : K → UInt64} {settings : CacheSettings}

/-- A put under a key that is held replaces its value and keeps everything else. -/
theorem held_put (cache : ShardedCache K V hash settings) {key : K} {value : V} (new : V)
    {rest : List (K × V)} (held : cache.held.Perm ((key, value) :: rest)) :
    (cache.put key new).held.Perm ((key, new) :: rest) := by
  have found : cache.peek key = some value :=
    (cache.mem_held_iff key value).mp (held.mem_iff.mpr List.mem_cons_self)
  have room : key ∈ (cache.shardFor key).index := by
    rw [LruCache.mem_index_iff]
    exact List.mem_map_of_mem (cache.peek_eq_some_iff.mp found)
  have keys : (((key, value) :: rest).map Prod.fst).Nodup :=
    (held.map Prod.fst).nodup_iff.mp cache.nodup_keys
  have absent : key ∉ rest.map Prod.fst := (List.nodup_cons.mp keys).1
  have newKeys : (((key, new) :: rest).map Prod.fst).Nodup := keys
  rw [List.perm_ext_iff_of_nodup ((cache.put key new).nodup_keys.of_map) newKeys.of_map]
  rintro ⟨other, item⟩
  rw [ShardedCache.mem_held_iff, cache.peek_put_of_room (Or.inl room)]
  by_cases same : other = key
  · subst same
    rw [if_pos rfl, List.mem_cons, Option.some.injEq, Prod.mk.injEq, eq_comm]
    constructor
    · exact fun isNew => Or.inl ⟨rfl, isNew⟩
    · rintro (⟨-, isNew⟩ | inside)
      · exact isNew
      · exact absurd (List.mem_map_of_mem inside) absent
  · rw [if_neg same, ← ShardedCache.mem_held_iff, held.mem_iff]
    simp [same]

end Cached

variable {D : Type} {config : Config D}

/-- Where an item is cached, the others are the rest. -/
theorem State.cached_split (state : State config) {item : Item D} (cached : item ∈ state.cached) :
    ∃ rest, state.cache.held.Perm ((item.id, item) :: rest) := by
  obtain ⟨⟨id, found⟩, inside, rfl⟩ := List.mem_map.mp cached
  obtain ⟨index, _, stored⟩ := List.mem_flatMap.mp inside
  obtain rfl : found.id = id := state.keyed index (id, found) stored
  obtain ⟨front, back, split⟩ := List.append_of_mem inside
  refine ⟨front ++ back, ?_⟩
  rw [split]
  exact List.perm_middle

/-! ## The policy store -/

section Keen

variable (D) [Scalar D] {settings : Policy.Settings}

/-- A reservation takes room away, if anything, as long as no counters are discarded. -/
theorem hasRoom_of_reserve (closed : settings.config.failOpenWhenFull = false)
    (store : ExposureStore settings) {id other : ItemId} (now : Timestamp)
    (room : (store.reserve D id now).2.HasRoom other) : store.HasRoom other := by
  have grows : ∀ {entry : Entry} {grown : Nat},
      ExposureStore.Touches store (store.reserve D id now).2 id entry grown →
        store.HasRoom other := by
    intro entry grown touches
    refine Nat.lt_of_le_of_lt ?_ room
    by_cases same : ExposureStore.shardIndex settings other = ExposureStore.shardIndex settings id
    · have size := touches.sizeSelf
      simp only [ExposureStore.shardFor, same] at size ⊢
      omega
    · exact (touches.sizeOthers _ same).ge
  cases tracked : store.entryOf id with
  | some entry => exact grows (ExposureStore.reserve_tracked D tracked now).2
  | none =>
      by_cases free : store.HasRoom id
      · exact grows (ExposureStore.reserve_fresh D tracked free now).2
      · rw [ExposureStore.reserve_full D closed tracked free] at room
        exact room

/-- Reservations of other items never make an item acceptable. -/
theorem allowed_of_reserve (closed : settings.config.failOpenWhenFull = false)
    (store : ExposureStore settings) {id other : ItemId} (different : other ≠ id) (now : Timestamp)
    (allowed : ((store.reserve D other now).2.reserve D id now).1 = .allowed) :
    (store.reserve D id now).1 = .allowed := by
  have same := ExposureStore.reserve_others D closed store different.symm now
  cases tracked : store.entryOf id with
  | some entry =>
      rw [tracked] at same
      rw [(ExposureStore.reserve_tracked D same now).1] at allowed
      rw [(ExposureStore.reserve_tracked D tracked now).1]
      exact allowed
  | none =>
      rw [tracked] at same
      by_cases room : (store.reserve D other now).2.HasRoom id
      · rw [(ExposureStore.reserve_fresh D same room now).1] at allowed
        rw [(ExposureStore.reserve_fresh D tracked (hasRoom_of_reserve D closed store now room)
          now).1]
        exact allowed
      · rw [ExposureStore.reserve_full D closed same room] at allowed
        cases allowed

/-- In a store that keeps its counters, questions about others never help an item. -/
theorem keen_reserveGate (closed : settings.config.failOpenWhenFull = false) (now : Timestamp)
    (id : ItemId) : Keen (reserveGate (D := D) settings now) id := by
  intro store others different accepted
  induction others generalizing store with
  | nil => exact accepted
  | cons other others ih =>
      have first : other ≠ id := (List.ne_of_not_mem_cons different).symm
      have after := ih (store.reserve D other now).2 (List.not_mem_of_not_mem_cons different)
        accepted
      exact decide_eq_true (allowed_of_reserve D closed store first now (of_decide_eq_true after))

end Keen

/-! ## The slate -/

section Slate

variable [ExactScalar D]

/-- What gates a request: a dry run asks, a live one reserves. -/
def gateOf (D : Type) [Scalar D] (settings : Policy.Settings) (now : Timestamp) (dryRun : Bool)
    (id : ItemId) : StateM (ExposureStore settings) Bool :=
  if dryRun then fun store => (decide (store.check D id now = .allowed), store)
  else reserveGate (D := D) settings now id

/-- A preview is no less keen than a store that keeps its counters. -/
theorem keen_gateOf {settings : Policy.Settings} {dryRun : Bool}
    (keeps : dryRun = true ∨ settings.config.failOpenWhenFull = false) (now : Timestamp)
    (id : ItemId) : Keen (gateOf D settings now dryRun) id := by
  cases dryRun with
  | true => exact keen_of_silent (fun _ _ => rfl) id
  | false => exact keen_reserveGate D (keeps.resolve_left Bool.false_ne_true) now id

/-- The slate of a request, live or not, as one selection. -/
theorem slate_gateOf (state : State config) (now : Timestamp) (requestId : UInt64)
    (signal : UserSignal D) (count : UInt32) (dryRun : Bool) (positive : count ≠ 0)
    (within : ¬ kMaxRecommendCount < count) :
    slateOf (respond state now ⟨requestId, .recommend ⟨signal, count, dryRun⟩⟩).1 =
      (((create (queryOf config now signal count)).considerAll config.heaps state.cached).select
        (some (gateOf D config.policy now dryRun)) state.policy).1 := by
  rw [select_eq]
  cases dryRun with
  | false => exact slate_live state now requestId signal count positive within
  | true =>
      rw [slate_dry state now requestId signal count positive within,
        selectLoop_of_silent (fun _ _ => rfl)]
      rfl

/-- An item that is published again with a higher base score, all else being equal, comes no
later in the slate than before, behind the same entries, in every preview, and in every live
slate unless the policy store fails open. -/
theorem promotion_keeps_place (state : State config) {item : Item D} (cached : item ∈ state.cached)
    {score : D} (higher : item.baseScore ≤ score) (floor : 0 ≤ config.scoring.minScore)
    (category : 0 ≤ config.scoring.categoryRepeatFactor)
    (advertiser : 0 ≤ config.scoring.advertiserRepeatFactor) {dryRun : Bool}
    (keeps : dryRun = true ∨ config.policy.config.failOpenWhenFull = false)
    (now published : Timestamp) (putId requestId : UInt64) (signal : UserSignal D) (count : UInt32)
    {before after : List (RankedItem D)} {entry : RankedItem D}
    (slate : slateOf (respond state now ⟨requestId, .recommend ⟨signal, count, dryRun⟩⟩).1 =
      before ++ entry :: after) (here : entry.id = item.id) :
    ∃ shorter moved later, shorter <+: before ∧ moved.id = item.id ∧
      slateOf (respond (respond state published ⟨putId, .putItem (rescored item score)⟩).2 now
        ⟨requestId, .recommend ⟨signal, count, dryRun⟩⟩).1 = shorter ++ moved :: later := by
  by_cases invalid : count = 0 ∨ kMaxRecommendCount < count
  · rw [slate_invalid state now requestId signal count dryRun invalid] at slate
    exact absurd slate.symm (by simp)
  obtain ⟨positive, within⟩ := not_or.mp invalid
  rw [slate_gateOf state now requestId signal count dryRun positive within] at slate
  rw [slate_gateOf _ now requestId signal count dryRun positive within, respond_policy rfl]
  obtain ⟨rest, held⟩ := state.cached_split cached
  have firstItems : state.cached.Perm (item :: rest.map Prod.snd) := held.map Prod.snd
  by_cases acceptable : Acceptable (rescored item score)
  · have secondItems : (respond state published ⟨putId, .putItem (rescored item score)⟩).2.cached.Perm
        (rescored item score :: rest.map Prod.snd) := by
      simp only [State.cached, respond_cache, cacheAfter, acceptable, ↓reduceIte]
      exact (held_put state.cache (rescored item score) held).map Prod.snd
    exact select_raised config.heaps firstItems secondItems state.cached_ids_nodup higher floor
      category advertiser (keen_gateOf keeps now item.id) slate here
  · have same : (respond state published ⟨putId, .putItem (rescored item score)⟩).2.cached =
        state.cached := by
      simp only [State.cached, respond_cache, cacheAfter, acceptable, ↓reduceIte]
    rw [same]
    exact ⟨before, entry, after, List.prefix_rfl, here, slate⟩

end Slate

/-- A daemon with three items. -/
def threeItems : State (oneShard {} Settings.enough_default) :=
  (served (oneShard {} Settings.enough_default)
    [publishing 1 3, publishing 2 2, publishing 3 1]).state

theorem promotion_keeps_place_third : ∃ moved ∈ slateOf (respond (respond threeItems ⟨0⟩
      ⟨0, .putItem (rescored ⟨3, [0], [3], 1, ⟨0⟩, ⟨0⟩⟩ 9)⟩).2 ⟨0⟩
      ⟨0, .recommend ⟨⟨[], []⟩, 3, false⟩⟩).1, moved.id = 3 := by
  have cached : (⟨3, [0], [3], 1, ⟨0⟩, ⟨0⟩⟩ : Item ℚ) ∈ threeItems.cached := by decide +kernel
  obtain ⟨entry, member, here⟩ : ∃ entry ∈ slateOf (respond threeItems ⟨0⟩
      ⟨0, .recommend ⟨⟨[], []⟩, 3, false⟩⟩).1, entry.id = 3 := by decide +kernel
  obtain ⟨before, after, slate⟩ := List.append_of_mem member
  obtain ⟨shorter, moved, later, _, named, split⟩ := promotion_keeps_place threeItems cached
    (show (1 : ℚ) ≤ 9 by norm_num) (show (0 : ℚ) ≤ 0 by norm_num) (show (0 : ℚ) ≤ 1 / 2 by norm_num)
    (show (0 : ℚ) ≤ 3 / 10 by norm_num) (Or.inr rfl) ⟨0⟩ ⟨0⟩ 0 0 ⟨[], []⟩ 3 slate here
  refine ⟨moved, ?_, named⟩
  rw [split]
  exact List.mem_append_right _ List.mem_cons_self

theorem openStore_enough : 1 ≤ ({ exposureCap := 1, maxTrackedItems := 1, failOpenWhenFull := true } :
    PolicyConfig).maxTrackedItems := by
  decide

/-- A store that fails open with room for one item, which has been shown as often as allowed. -/
def shownOnce : State (oneShard { exposureCap := 1, maxTrackedItems := 1, failOpenWhenFull := true }
    openStore_enough) :=
  (served _ [publishing 2 1, asking 1, publishing 1 2]).state

/-- Where counters are discarded, an item may owe its place to one that is offered before it. -/
theorem promotion_hides_item :
    (slateOf (respond shownOnce ⟨0⟩ ⟨0, .recommend ⟨⟨[], []⟩, 2, false⟩⟩).1).map RankedItem.id =
      [1, 2] ∧
    (slateOf (respond (respond shownOnce ⟨0⟩
      ⟨0, .putItem (rescored ⟨2, [0], [2], 1, ⟨0⟩, ⟨0⟩⟩ 9)⟩).2 ⟨0⟩
      ⟨0, .recommend ⟨⟨[], []⟩, 2, false⟩⟩).1).map RankedItem.id = [1] := by
  decide +kernel

end Lrd.Daemon
