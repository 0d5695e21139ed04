import Lrd.Policy.ExposureStore

/-!
# The store as one item sees it

`reserve` and `check` on an item depend only on the item's own counters and, for
an item not yet tracked, on whether its shard has room (`reserve_tracked`,
`reserve_fresh`, `reserve_full`, `check_tracked`, `check_untracked`). Apart from
an eviction under fail-open, no other item's counters change (`Touches`).
-/

namespace Lrd.Policy

open Foundation Common Rank

/-- The recency list has nothing to do with the counters. -/
theorem Shard.touchRecency_entries (config : PolicyConfig) (shard : Shard) (id : ItemId) :
    (shard.touchRecency config id).entries = shard.entries := by
  unfold touchRecency
  split
  · rfl
  · split <;> rfl

variable {id : ItemId}

/-- An item the index does not find is not in the recency list. -/
theorem Shard.not_mem_recency {shard : Shard} (missing : shard.recencyIndex.lookup id = none) :
    id ∉ shard.recency.toList := by
  have agree := shard.agree.mem_iff id
  rw [List.map_id] at agree
  exact fun member => AList.lookup_eq_none.mp missing (agree.mpr member)

section Judge

variable (D : Type) [Scalar D] (config : PolicyConfig) (entry : Entry) (nowMs : UInt64)

/-- The two estimators agree. -/
theorem advanceAndEstimate_fst :
    (advanceAndEstimate D config entry nowMs).1 = estimateWithoutAdvancing D config entry nowMs := by
  unfold advanceAndEstimate estimateWithoutAdvancing Entry.advance
  by_cases disabled : config.windowMs = 0
  · simp only [disabled, ↓reduceIte]
  · by_cases following : nowMs / config.windowMs = entry.windowIndex + 1
    · simp only [disabled, following, ↓reduceIte]
    · by_cases same : nowMs / config.windowMs = entry.windowIndex
      · rw [same] at following
        simp only [disabled, following, same, ↓reduceIte, ne_eq, not_true_eq_false]
      · simp only [disabled, following, same, ↓reduceIte, ne_eq, not_false_eq_true]

/-- Moving to another window keeps the lifetime count. -/
theorem advance_lifetimeShows (index : UInt64) :
    (entry.advance index).lifetimeShows = entry.lifetimeShows := by
  unfold Entry.advance
  split
  · rfl
  · split <;> rfl

/-- The estimate keeps the lifetime count. -/
theorem advanceAndEstimate_lifetimeShows :
    (advanceAndEstimate D config entry nowMs).2.lifetimeShows = entry.lifetimeShows := by
  unfold advanceAndEstimate
  split
  · rfl
  · exact advance_lifetimeShows entry _

/-- Everything the limits can decide about an item's counters. -/
theorem judge_cases :
    (judge D config entry nowMs = (.exposureCapReached, entry) ∧
      0 < config.exposureCap ∧ config.exposureCap ≤ entry.lifetimeShows) ∨
    (¬ (0 < config.exposureCap ∧ config.exposureCap ≤ entry.lifetimeShows) ∧
      0 < config.frequencyLimit ∧
      Scalar.lt (Scalar.ofNat config.frequencyLimit.toNat)
        ((advanceAndEstimate D config entry nowMs).1 + Scalar.ofNat 1) = true ∧
      judge D config entry nowMs =
        (.frequencyLimited, (advanceAndEstimate D config entry nowMs).2)) ∨
    (¬ (0 < config.exposureCap ∧ config.exposureCap ≤ entry.lifetimeShows) ∧
      0 < config.frequencyLimit ∧
      Scalar.lt (Scalar.ofNat config.frequencyLimit.toNat)
        ((advanceAndEstimate D config entry nowMs).1 + Scalar.ofNat 1) = false ∧
      judge D config entry nowMs =
        (.allowed, { (advanceAndEstimate D config entry nowMs).2 with
          current := (advanceAndEstimate D config entry nowMs).2.current + 1
          lifetimeShows := entry.lifetimeShows + 1 })) ∨
    (¬ (0 < config.exposureCap ∧ config.exposureCap ≤ entry.lifetimeShows) ∧
      config.frequencyLimit = 0 ∧
      judge D config entry nowMs =
        (.allowed, { entry with lifetimeShows := entry.lifetimeShows + 1 })) := by
  have kept := advanceAndEstimate_lifetimeShows D config entry nowMs
  unfold judge
  by_cases capped : 0 < config.exposureCap ∧ config.exposureCap ≤ entry.lifetimeShows
  · exact Or.inl ⟨if_pos capped, capped⟩
  · rw [if_neg capped]
    by_cases limited : 0 < config.frequencyLimit
    · rw [if_pos limited]
      cases exceeds : Scalar.lt (Scalar.ofNat config.frequencyLimit.toNat)
          ((advanceAndEstimate D config entry nowMs).1 + Scalar.ofNat 1) with
      | true => exact Or.inr (Or.inl ⟨capped, limited, rfl, if_pos exceeds⟩)
      | false =>
          refine Or.inr (Or.inr (Or.inl ⟨capped, limited, rfl, ?_⟩))
          rw [← kept]
          exact if_neg (Bool.eq_false_iff.mp exceeds)
    · have zero : config.frequencyLimit = 0 := by
        rw [UInt32.lt_iff_toNat_lt] at limited
        exact UInt32.toNat.inj (Nat.eq_zero_of_not_pos limited)
      rw [if_neg limited]
      exact Or.inr (Or.inr (Or.inr ⟨capped, zero, rfl⟩))

/-- A show is counted exactly when it is allowed. -/
theorem judge_lifetimeShows :
    (judge D config entry nowMs).2.lifetimeShows =
      entry.lifetimeShows + if (judge D config entry nowMs).1 = .allowed then 1 else 0 := by
  rcases judge_cases D config entry nowMs with
    ⟨same, _⟩ | ⟨_, _, _, same⟩ | ⟨_, _, _, same⟩ | ⟨_, _, same⟩
  · simp [same]
  · simp [same, advanceAndEstimate_lifetimeShows]
  · simp [same]
  · simp [same]

/-- Below its cap an item keeps within it. -/
theorem judge_allowed_below (allowed : (judge D config entry nowMs).1 = .allowed)
    (capped : 0 < config.exposureCap) : entry.lifetimeShows < config.exposureCap := by
  have below : ¬ (0 < config.exposureCap ∧ config.exposureCap ≤ entry.lifetimeShows) := by
    rcases judge_cases D config entry nowMs with
      ⟨same, _⟩ | ⟨below, _⟩ | ⟨below, _⟩ | ⟨below, _⟩
    · rw [same] at allowed
      cases allowed
    all_goals exact below
  have notReached : ¬ config.exposureCap ≤ entry.lifetimeShows :=
    fun reached => below ⟨capped, reached⟩
  exact UInt64.not_le.mp notReached

/-- Lack of room is not for the limits to find. -/
theorem judge_ne_storeFull : (judge D config entry nowMs).1 ≠ .storeFull := by
  rcases judge_cases D config entry nowMs with
    ⟨same, _⟩ | ⟨_, _, _, same⟩ | ⟨_, _, _, same⟩ | ⟨_, _, same⟩
  all_goals simp [same]

end Judge

namespace ExposureStore

variable {settings : Settings} (D : Type) [Scalar D]

/-- The counters of an item, if it is tracked. -/
def entryOf (store : ExposureStore settings) (id : ItemId) : Option Entry :=
  (store.shardFor id).entries.lookup id

/-- Whether the item's shard could track one more item. -/
def HasRoom (store : ExposureStore settings) (id : ItemId) : Prop :=
  (store.shardFor id).size < settings.perShardCapacity

instance (store : ExposureStore settings) (id : ItemId) : Decidable (store.HasRoom id) :=
  inferInstanceAs (Decidable (_ < _))

/-- `after` is `before` with the item's counters written, and grown by as many
tracked items as given. -/
structure Touches (before after : ExposureStore settings) (id : ItemId) (entry : Entry)
    (grown : Nat) : Prop where
  self : after.entryOf id = some entry
  others : ∀ other, other ≠ id → after.entryOf other = before.entryOf other
  sizeSelf : (after.shardFor id).size = (before.shardFor id).size + grown
  sizeOthers : ∀ index, index ≠ shardIndex settings id →
    (after.shards index).size = (before.shards index).size

theorem record_shards (store : ExposureStore settings) (decision : Decision) :
    (store.record decision).shards = store.shards := by
  cases decision <;> rfl

/-- Writing a shard changes that shard. -/
theorem written_shards (store : ExposureStore settings) (index : Fin settings.shardCount.size)
    (shard : Shard) (decision : Decision) :
    ((store.setShard index shard).record decision).shards =
      Function.update store.shards index shard :=
  record_shards ..

/-- Writing the counters of a tracked item tracks nothing more. -/
theorem size_insert_mem {entries : AList fun _ : ItemId => Entry} (entry : Entry)
    (present : id ∈ entries) : (entries.insert id entry).keys.length = entries.keys.length := by
  rw [AList.keys_insert, List.length_cons, List.length_erase_of_mem (AList.mem_keys.mp present)]
  have positive := List.length_pos_of_mem (AList.mem_keys.mp present)
  omega

/-- Writing the counters of another item tracks one more. -/
theorem size_insert_absent {entries : AList fun _ : ItemId => Entry} (entry : Entry)
    (absent : id ∉ entries) :
    (entries.insert id entry).keys.length = entries.keys.length + 1 := by
  rw [AList.keys_insert, List.length_cons,
    List.erase_of_not_mem fun member => absent (AList.mem_keys.mpr member)]

/-- Writing an item's counters into its shard touches nothing else. -/
theorem touches_write (store : ExposureStore settings) (id : ItemId) (entry : Entry) (shard : Shard)
    (decision : Decision) (written : shard.entries = (store.shardFor id).entries.insert id entry) :
    Touches store ((store.setShard (shardIndex settings id) shard).record decision) id entry
      (if id ∈ (store.shardFor id).entries then 0 else 1) where
  self := by
    rw [entryOf, shardFor, written_shards, Function.update_self, written,
      AList.lookup_insert]
  others := by
    intro other different
    rw [entryOf, entryOf, shardFor, shardFor, written_shards]
    by_cases together : shardIndex settings other = shardIndex settings id
    · rw [together, Function.update_self, written, AList.lookup_insert_ne different]
      rfl
    · rw [Function.update_of_ne together]
  sizeSelf := by
    rw [shardFor, written_shards, Function.update_self, Shard.size, written]
    split
    · rename_i present
      exact size_insert_mem entry present
    · rename_i absent
      exact size_insert_absent entry absent
  sizeOthers := by
    intro index different
    rw [written_shards, Function.update_of_ne different]

/-- The entry that `findOrEmplace` finds or makes, and the shard that holds it. -/
inductive Finds (settings : Settings) (shard : Shard) (id : ItemId) (nowMs : UInt64) :
    Option Found → Prop where
  | tracked {entry : Entry} (tracked : shard.entries.lookup id = some entry) :
      Finds settings shard id nowMs (some ⟨shard, entry, false⟩)
  | admitted (untracked : id ∉ shard.entries) (room : shard.size < settings.perShardCapacity) :
      Finds settings shard id nowMs (some ⟨shard, freshEntry settings.config nowMs, false⟩)
  | replaced {fewer : Shard} (untracked : id ∉ shard.entries)
      (full : settings.perShardCapacity ≤ shard.size)
      (failOpen : settings.config.failOpenWhenFull = true) (evicted : shard.evictOne = some fewer) :
      Finds settings shard id nowMs (some ⟨fewer, freshEntry settings.config nowMs, true⟩)
  | full (untracked : id ∉ shard.entries) (full : settings.perShardCapacity ≤ shard.size)
      (stuck : settings.config.failOpenWhenFull = false ∨ shard.evictOne = none) :
      Finds settings shard id nowMs none

/-- What looking for an item's counters comes to. -/
theorem finds_findOrEmplace (settings : Settings) (shard : Shard) (id : ItemId) (nowMs : UInt64) :
    Finds settings shard id nowMs (findOrEmplace settings shard id nowMs) := by
  unfold findOrEmplace
  split
  · rename_i tracked
    exact .tracked tracked
  · rename_i missing
    have untracked := AList.lookup_eq_none.mp missing
    split
    · rename_i full
      split
      · rename_i closed
        rw [Bool.not_eq_true'] at closed
        exact .full untracked full (.inl closed)
      · rename_i failOpen
        split
        · rename_i nothing
          exact .full untracked full (.inr nothing)
        · rename_i evicted
          rw [Bool.not_eq_true', Bool.not_eq_false] at failOpen
          exact .replaced untracked full failOpen evicted
    · rename_i room
      exact .admitted untracked (Nat.not_le.mp room)

/-- Without room there is a refusal, which is counted. -/
theorem reserve_none (store : ExposureStore settings) (id : ItemId) (now : Timestamp)
    (missing : findOrEmplace settings (store.shardFor id) id (toMillis now) = none) :
    store.reserve D id now = (.storeFull, store.record .storeFull) := by
  unfold reserve
  simp only [missing]

/-- With counters the item is judged, and the result is written. -/
theorem reserve_some (store : ExposureStore settings) (id : ItemId) (now : Timestamp)
    {found : Found}
    (present : findOrEmplace settings (store.shardFor id) id (toMillis now) = some found) :
    ∃ shard : Shard,
      shard.entries = found.shard.entries.insert id
        (judge D settings.config found.entry (toMillis now)).2 ∧
      store.reserve D id now =
        ((judge D settings.config found.entry (toMillis now)).1,
          ((if found.evicted then { store with evicted := store.evicted + 1 } else store).setShard
            (shardIndex settings id) shard).record
              (judge D settings.config found.entry (toMillis now)).1) := by
  unfold reserve
  simp only [present]
  refine ⟨_, ?_, rfl⟩
  split
  · rw [Shard.touchRecency_entries]
  · rfl

/-- Only the item's own shard is written. -/
theorem reserve_shards (store : ExposureStore settings) (id : ItemId) (now : Timestamp)
    {found : Found}
    (present : findOrEmplace settings (store.shardFor id) id (toMillis now) = some found) :
    ∃ shard : Shard,
      shard.entries = found.shard.entries.insert id
        (judge D settings.config found.entry (toMillis now)).2 ∧
      (store.reserve D id now).2.shards =
        Function.update store.shards (shardIndex settings id) shard := by
  obtain ⟨shard, written, reserved⟩ := reserve_some D store id now present
  refine ⟨shard, written, ?_⟩
  rw [reserved, written_shards]
  split <;> rfl

/-- The counters that were there are judged. -/
theorem reserve_of_found (store : ExposureStore settings) (id : ItemId) (now : Timestamp)
    {entry : Entry}
    (found : findOrEmplace settings (store.shardFor id) id (toMillis now) =
      some ⟨store.shardFor id, entry, false⟩) :
    (store.reserve D id now).1 = (judge D settings.config entry (toMillis now)).1 ∧
      Touches store (store.reserve D id now).2 id
        (judge D settings.config entry (toMillis now)).2
        (if id ∈ (store.shardFor id).entries then 0 else 1) := by
  obtain ⟨shard, written, result⟩ := reserve_some D store id now found
  rw [result]
  exact ⟨rfl, touches_write store id _ shard _ written⟩

variable {store : ExposureStore settings}

/-- A tracked item is judged by its counters. -/
theorem reserve_tracked {entry : Entry} (tracked : store.entryOf id = some entry)
    (now : Timestamp) :
    (store.reserve D id now).1 = (judge D settings.config entry (toMillis now)).1 ∧
      Touches store (store.reserve D id now).2 id
        (judge D settings.config entry (toMillis now)).2 0 := by
  have present : id ∈ (store.shardFor id).entries :=
    AList.lookup_isSome.mp (Option.isSome_iff_exists.mpr ⟨entry, tracked⟩)
  have found : findOrEmplace settings (store.shardFor id) id (toMillis now) =
      some ⟨store.shardFor id, entry, false⟩ := by
    rw [entryOf] at tracked
    rw [findOrEmplace, tracked]
  have result := reserve_of_found D store id now found
  rwa [if_pos present] at result

/-- An item not yet tracked starts from a fresh entry if its shard has room. -/
theorem reserve_fresh (untracked : store.entryOf id = none) (room : store.HasRoom id)
    (now : Timestamp) :
    (store.reserve D id now).1 =
        (judge D settings.config (freshEntry settings.config (toMillis now)) (toMillis now)).1 ∧
      Touches store (store.reserve D id now).2 id
        (judge D settings.config (freshEntry settings.config (toMillis now)) (toMillis now)).2
        1 := by
  have absent : id ∉ (store.shardFor id).entries := AList.lookup_eq_none.mp untracked
  have found : findOrEmplace settings (store.shardFor id) id (toMillis now) =
      some ⟨store.shardFor id, freshEntry settings.config (toMillis now), false⟩ := by
    rw [entryOf] at untracked
    rw [HasRoom] at room
    rw [findOrEmplace, untracked]
    exact if_neg (Nat.not_le.mpr room)
  have result := reserve_of_found D store id now found
  rwa [if_neg absent] at result

/-- A fail-closed store refuses a new item when its shard is full. -/
theorem reserve_full (closed : settings.config.failOpenWhenFull = false)
    (untracked : store.entryOf id = none) (full : ¬ store.HasRoom id) (now : Timestamp) :
    store.reserve D id now = (.storeFull, store.record .storeFull) := by
  have found : findOrEmplace settings (store.shardFor id) id (toMillis now) = none := by
    rw [entryOf] at untracked
    rw [HasRoom] at full
    rw [findOrEmplace, untracked]
    simp only [Nat.not_lt.mp full, closed, ↓reduceIte, Bool.not_false]
  exact reserve_none D store id now found

/-- A fail-closed store never drops or changes another item's counters. -/
theorem reserve_others (closed : settings.config.failOpenWhenFull = false)
    (store : ExposureStore settings) {id other : ItemId} (different : other ≠ id)
    (now : Timestamp) : (store.reserve D id now).2.entryOf other = store.entryOf other := by
  cases tracked : store.entryOf id with
  | some entry => exact (reserve_tracked D tracked now).2.others other different
  | none =>
      by_cases room : store.HasRoom id
      · exact (reserve_fresh D tracked room now).2.others other different
      · rw [reserve_full D closed tracked room now, entryOf, shardFor, record_shards]
        rfl

/-- Forgetting an item takes it out of its own shard. -/
theorem forget_shards (store : ExposureStore settings) (id : ItemId) :
    ∃ shard : Shard, shard.entries = (store.shardFor id).entries.erase id ∧
      shard.recency.toList =
        (store.shardFor id).recency.toList.filter (fun other => ¬ other = id) ∧
      (store.forget id).shards =
        Function.update store.shards (shardIndex settings id) shard := by
  unfold forget
  simp only
  split
  · rename_i handle found
    exact ⟨_, rfl, (store.shardFor id).agree.toList_erase found, rfl⟩
  · rename_i missing
    refine ⟨{ store.shardFor id with entries := _ }, rfl, (List.filter_eq_self.mpr ?_).symm, rfl⟩
    intro other member
    exact decide_eq_true (ne_of_mem_of_not_mem member (Shard.not_mem_recency missing))

/-- The policy counters advance with the decision. -/
theorem reserve_counters (store : ExposureStore settings) (id : ItemId) (now : Timestamp) :
    (store.reserve D id now).2.allowed =
        store.allowed + (if (store.reserve D id now).1 = .allowed then 1 else 0) ∧
      (store.reserve D id now).2.exposureBlocked = store.exposureBlocked +
        (if (store.reserve D id now).1 = .exposureCapReached then 1 else 0) ∧
      (store.reserve D id now).2.frequencyBlocked = store.frequencyBlocked +
        (if (store.reserve D id now).1 = .frequencyLimited then 1 else 0) ∧
      (store.reserve D id now).2.storeFullBlocked = store.storeFullBlocked +
        (if (store.reserve D id now).1 = .storeFull then 1 else 0) := by
  have recorded : ∀ (start : ExposureStore settings) (decision : Decision),
      start.allowed = store.allowed → start.exposureBlocked = store.exposureBlocked →
      start.frequencyBlocked = store.frequencyBlocked →
      start.storeFullBlocked = store.storeFullBlocked →
      (start.record decision).allowed =
          store.allowed + (if decision = .allowed then 1 else 0) ∧
        (start.record decision).exposureBlocked =
          store.exposureBlocked + (if decision = .exposureCapReached then 1 else 0) ∧
        (start.record decision).frequencyBlocked =
          store.frequencyBlocked + (if decision = .frequencyLimited then 1 else 0) ∧
        (start.record decision).storeFullBlocked =
          store.storeFullBlocked + (if decision = .storeFull then 1 else 0) := by
    intro start decision allowed exposure frequency full
    cases decision <;> simp [record, allowed, exposure, frequency, full]
  cases present : findOrEmplace settings (store.shardFor id) id (toMillis now) with
  | none =>
      rw [reserve_none D store id now present]
      exact recorded store .storeFull rfl rfl rfl rfl
  | some found =>
      obtain ⟨shard, _, result⟩ := reserve_some D store id now present
      rw [result]
      cases evicted : found.evicted with
      | true => exact recorded _ _ rfl rfl rfl rfl
      | false => exact recorded _ _ rfl rfl rfl rfl

/-- The number of decisions the store has counted. -/
def decisions (store : ExposureStore settings) : UInt64 :=
  store.allowed + store.exposureBlocked + store.frequencyBlocked + store.storeFullBlocked

/-- Every reservation is decided once. -/
theorem reserve_decisions (store : ExposureStore settings) (id : ItemId) (now : Timestamp) :
    (store.reserve D id now).2.decisions = store.decisions + 1 := by
  obtain ⟨allowed, exposure, frequency, full⟩ := reserve_counters D store id now
  rw [decisions, allowed, exposure, frequency, full, decisions]
  cases (store.reserve D id now).1 with
  | allowed => simp only [↓reduceIte, reduceCtorEq, UInt64.add_zero]; ac_rfl
  | exposureCapReached => simp only [↓reduceIte, reduceCtorEq, UInt64.add_zero]; ac_rfl
  | frequencyLimited => simp only [↓reduceIte, reduceCtorEq, UInt64.add_zero]; ac_rfl
  | storeFull => simp only [↓reduceIte, reduceCtorEq, UInt64.add_zero]; ac_rfl

/-! ## Reading without recording -/

/-- `check` answers for a tracked item what `reserve` would. -/
theorem check_tracked {entry : Entry} (tracked : store.entryOf id = some entry) (now : Timestamp) :
    store.check D id now = (judge D settings.config entry (toMillis now)).1 := by
  rw [entryOf] at tracked
  unfold check judge
  simp only [tracked, advanceAndEstimate_fst]
  split
  · rfl
  · split
    · split <;> rfl
    · rfl

/-- What `check` says about an item that is not tracked. -/
theorem check_untracked (untracked : store.entryOf id = none) (now : Timestamp) :
    store.check D id now =
      if ¬ store.HasRoom id ∧ settings.config.failOpenWhenFull = false then .storeFull
      else .allowed := by
  rw [entryOf] at untracked
  unfold check
  simp only [untracked, HasRoom, Nat.not_lt]

end ExposureStore

/-! ## First shows -/

section First

variable (D : Type) [FloatScalar D]

/-- The offset into a window is less than its length. -/
theorem remainder_lt {nowMs windowMs : UInt64} (enabled : windowMs ≠ 0) :
    (nowMs % windowMs).toNat < windowMs.toNat := by
  rw [UInt64.toNat_mod]
  refine Nat.mod_lt _ (Nat.pos_of_ne_zero fun zero => enabled ?_)
  exact UInt64.toNat.inj zero

/-- Nothing stands against the first show of an item. -/
theorem judge_freshEntry (config : PolicyConfig) (nowMs : UInt64) :
    (judge D config (ExposureStore.freshEntry config nowMs) nowMs).1 = .allowed := by
  have nothingShown : (ExposureStore.freshEntry config nowMs).lifetimeShows = 0 := rfl
  have estimate : (advanceAndEstimate D config (ExposureStore.freshEntry config nowMs) nowMs).1 =
      Scalar.ofNat 0 := by
    rw [advanceAndEstimate_fst]
    unfold estimateWithoutAdvancing
    split
    · rfl
    · rename_i enabled
      have weight : (Scalar.ofNat 0 * (Scalar.ofNat 1 -
          Scalar.ofNat (nowMs % config.windowMs).toNat / Scalar.ofNat config.windowMs.toNat) : D) =
            Scalar.ofNat 0 :=
        FloatScalar.zero_mul_weight (remainder_lt enabled) config.windowMs.toNat_lt
      have sum : (Scalar.ofNat 0 + Scalar.ofNat 0 : D) = Scalar.ofNat 0 :=
        FloatScalar.zero_add_ofNat (by decide)
      have nothing : (Scalar.ofNat (0 : UInt32).toNat * (Scalar.ofNat 1 -
          Scalar.ofNat (nowMs % config.windowMs).toNat / Scalar.ofNat config.windowMs.toNat) +
            Scalar.ofNat (0 : UInt32).toNat : D) = Scalar.ofNat 0 := by
        change (Scalar.ofNat 0 * _ + Scalar.ofNat 0 : D) = _
        rw [weight, sum]
      simp only
      split
      · exact nothing
      · split <;> exact nothing
  rcases judge_cases D config (ExposureStore.freshEntry config nowMs) nowMs with
    ⟨_, capped, reached⟩ | ⟨_, limited, exceeds, _⟩ | ⟨_, _, _, same⟩ | ⟨_, _, same⟩
  · rw [nothingShown, UInt64.le_iff_toNat_le] at reached
    rw [UInt64.lt_iff_toNat_lt] at capped
    omega
  · rw [UInt32.lt_iff_toNat_lt] at limited
    have bound : config.frequencyLimit.toNat < 2 ^ 64 :=
      config.frequencyLimit.toNat_lt.trans (by decide)
    rw [estimate, FloatScalar.zero_add_ofNat (by decide), FloatScalar.one_le_ofNat limited bound]
      at exceeds
    cases exceeds
  · rw [same]
  · rw [same]

end First

end Lrd.Policy
