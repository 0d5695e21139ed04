import Lrd.Foundation.Residence
import Lrd.Policy.Tracking

/-!
# What a store that fails open forgets

A store that fails open discards the counters of the item that has gone unshown for longest
when a new item finds its shard full. So the items of a shard are residents in the sense of
`Foundation.Residence`, and an allowed reservation is a use (`Remembers`). An item that is
forgotten starts afresh and may be shown up to its cap once more, but each time it is
forgotten the shard has first shown as many other items as it has places since (`Spent`).
-/

namespace Lrd.Policy

open Foundation Common Rank

/-! ## One reservation -/

namespace Shard

variable {D : Type} [FloatScalar D] {settings : Settings} {shown : List ItemId}
  {index : Fin settings.shardCount.size} {shard after : Shard} {id : ItemId} {nowMs : UInt64}
  {decision : Decision}

theorem nodup_recency (shard : Shard) : shard.recency.toList.Nodup := by
  have nodup := shard.agree.nodup_keys
  rwa [List.map_id] at nodup

/-- Under fail-open the recency list is as long as the shard is large. -/
theorem InOrder.length_recency (inOrder : shard.InOrder settings shown index)
    (failOpen : settings.config.failOpenWhenFull = true) :
    shard.recency.toList.length = shard.size := by
  refine List.Perm.length_eq ((List.perm_ext_iff_of_nodup shard.nodup_recency
    shard.entries.keys_nodup).mpr fun id => ?_)
  rw [inOrder.recent, AList.mem_keys]
  exact and_iff_right failOpen

/-- An item that is shown is the most recent one. -/
theorem write_allowed_recency (failOpen : settings.config.failOpenWhenFull = true) (shard : Shard)
    (id : ItemId) {judged : Decision × Entry} (allowed : judged.1 = .allowed) :
    (shard.write settings.config id judged).recency.toList =
      id :: shard.recency.toList.filter (· ≠ id) := by
  rw [write, if_pos allowed, touchRecency_toList failOpen]

/-- Under fail-open an allowed reservation is a use of the item, and no other changes the
order. -/
theorem Reserved.recency (reserved : Shard.Reserved D settings shard id nowMs decision after)
    (inOrder : shard.InOrder settings shown index)
    (failOpen : settings.config.failOpenWhenFull = true) :
    after.recency.toList =
      if decision = .allowed then
        (Touch.use id).apply settings.perShardCapacity shard.recency.toList
      else shard.recency.toList := by
  have fresh := judge_freshEntry D settings.config nowMs
  have length := inOrder.length_recency failOpen
  have absent : id ∉ shard.entries → shard.recency.toList.filter (· ≠ id) = shard.recency.toList := by
    intro untracked
    refine List.filter_eq_self.mpr fun other member => decide_eq_true ?_
    exact ne_of_mem_of_not_mem member fun listed => untracked ((inOrder.recent id).mp listed).2
  cases reserved with
  | @judged entry tracked =>
      split
      · rename_i allowed
        rw [write_allowed_recency failOpen shard id allowed, Touch.apply, List.take_of_length_le]
        have listed : id ∈ shard.recency.toList :=
          (inOrder.recent id).mpr ⟨failOpen, AList.lookup_isSome.mp (tracked ▸ rfl)⟩
        have shorter : (shard.recency.toList.filter (· ≠ id)).length < shard.recency.toList.length :=
          List.length_filter_lt_length_iff_exists.mpr ⟨id, listed, by simp⟩
        rw [length] at shorter
        exact Nat.le_trans shorter inOrder.bounded
      · rename_i refused
        rw [write_refused _ _ _ refused]
  | admitted untracked room =>
      rw [if_pos rfl, write_allowed_recency failOpen shard id fresh, Touch.apply,
        List.take_of_length_le]
      rw [absent untracked, List.length_cons, length]
      exact room
  | @replaced fewer untracked full _ evicted =>
      rw [if_pos rfl, write_allowed_recency failOpen fewer id fresh, Touch.apply,
        absent untracked]
      rcases shard.evictOne_cases with ⟨nothing, _⟩ | ⟨other, victim, found, listed, _⟩
      · rw [nothing] at evicted
        cases evicted
      · rw [found] at evicted
        cases evicted
        have kept := absent untracked
        rw [listed, List.filter_append] at kept
        rw [listed, List.length_append] at length
        have places : fewer.recency.toList.length + 1 = settings.perShardCapacity :=
          length.trans (Nat.le_antisymm inOrder.bounded full)
        rw [listed, ← places, List.take_succ_cons, List.take_left]
        refine congrArg (id :: ·) (List.filter_eq_self.mpr fun held member => decide_eq_true ?_)
        refine ne_of_mem_of_not_mem member fun again => untracked ((inOrder.recent id).mp ?_).2
        rw [listed]
        exact List.mem_append_left _ again
  | full untracked full stuck =>
      rw [if_neg (by simp)]

end Shard

/-- Counting what a decision shows. -/
theorem Decision.countP_shows (counted : ItemId → Bool) (id : ItemId) (decision : Decision) :
    (decision.shows id).countP counted =
      if counted id then (if decision = .allowed then 1 else 0) else 0 := by
  cases decision with
  | allowed => exact List.countP_singleton ..
  | exposureCapReached | frequencyLimited | storeFull => exact (ite_self 0).symm

/-! ## The store -/

namespace ExposureStore

variable {settings : Settings} {shown : List ItemId} {store : ExposureStore settings}

/-- The shows of a shard's items, in order. -/
def usesIn (settings : Settings) (index : Fin settings.shardCount.size) (shown : List ItemId) :
    List (Touch ItemId) :=
  (shown.filter fun id => shardIndex settings id = index).map Touch.use

/-- The uses of a shard, in two parts. -/
theorem usesIn_append (index : Fin settings.shardCount.size) (earlier later : List ItemId) :
    usesIn settings index (earlier ++ later) =
      usesIn settings index earlier ++ usesIn settings index later := by
  rw [usesIn, List.filter_append, List.map_append]
  rfl

/-- A show is a use of the item's own shard. -/
theorem usesIn_cons_own (id : ItemId) (later : List ItemId) :
    usesIn settings (shardIndex settings id) (id :: later) =
      .use id :: usesIn settings (shardIndex settings id) later := by
  refine congrArg (List.map Touch.use) (List.filter_cons_of_pos ?_)
  exact decide_eq_true rfl

/-- Every shard is in order, and lists its items in the order in which they were last
shown. -/
structure Remembers (shown : List ItemId) (store : ExposureStore settings) : Prop where
  inOrder : store.InOrder shown
  order : ∀ index, (store.shards index).recency.toList =
    residents settings.perShardCapacity (usesIn settings index shown)

theorem remembers_create : (create settings).Remembers [] :=
  ⟨fun index => Shard.InOrder.empty _ index, fun _ => rfl⟩

/-- The counters of an item after it was judged, and the shows they account for. -/
theorem judge_paid (D : Type) [Scalar D] {config : PolicyConfig} (capped : 0 < config.exposureCap)
    {entry : Entry} (within : entry.lifetimeShows ≤ config.exposureCap) (nowMs : UInt64) :
    (judge D config entry nowMs).2.lifetimeShows ≤ config.exposureCap ∧
      (judge D config entry nowMs).2.lifetimeShows.toNat =
        entry.lifetimeShows.toNat + if (judge D config entry nowMs).1 = .allowed then 1 else 0 := by
  rw [judge_lifetimeShows]
  split
  · rename_i allowed
    have below := judge_allowed_below D config entry nowMs allowed capped
    rw [UInt64.lt_iff_toNat_lt] at below
    have fits : entry.lifetimeShows.toNat + 1 < 2 ^ 64 :=
      Nat.lt_of_le_of_lt below config.exposureCap.toNat_lt
    have sum : (entry.lifetimeShows + 1).toNat = entry.lifetimeShows.toNat + 1 := by
      rw [UInt64.toNat_add]
      exact Nat.mod_eq_of_lt fits
    rw [UInt64.le_iff_toNat_le, sum]
    exact ⟨below, rfl⟩
  · rw [UInt64.add_zero]
    exact ⟨within, rfl⟩

section FailOpen

variable {D : Type} [FloatScalar D] (failOpen : settings.config.failOpenWhenFull = true)
include failOpen

/-- What a reservation does to the order of a shard. -/
theorem reserve_recency (inOrder : store.InOrder shown) (id : ItemId) (now : Timestamp)
    (index : Fin settings.shardCount.size) :
    ((store.reserve D id now).2.shards index).recency.toList =
      (usesIn settings index ((store.reserve D id now).1.shows id)).foldl
        (Touch.apply settings.perShardCapacity) (store.shards index).recency.toList := by
  obtain ⟨reserved, others⟩ := reserve_reserved D store id now
  by_cases allowed : (store.reserve D id now).1 = .allowed
  · rw [allowed, Decision.shows]
    by_cases own : index = shardIndex settings id
    · subst own
      rw [usesIn_cons_own]
      exact (reserved.recency (inOrder _) failOpen).trans (if_pos allowed)
    · rw [others index own, usesIn, List.filter_cons_of_neg fun here =>
        own (of_decide_eq_true here).symm]
      rfl
  · rw [Decision.shows_refused id allowed]
    by_cases own : index = shardIndex settings id
    · subst own
      exact (reserved.recency (inOrder _) failOpen).trans (if_neg allowed)
    · rw [others index own]
      rfl

/-- A reservation is remembered. -/
theorem Remembers.reserve (remembers : store.Remembers shown) (id : ItemId) (now : Timestamp) :
    (store.reserve D id now).2.Remembers (shown ++ (store.reserve D id now).1.shows id) where
  inOrder := remembers.inOrder.reserve D id now
  order := by
    intro index
    rw [reserve_recency failOpen remembers.inOrder, remembers.order, usesIn_append, residents,
      residents, List.foldl_append]

omit [FloatScalar D] in
/-- Under fail-open the recency list of an item's shard says whether it is tracked. -/
theorem InOrder.mem_recency_iff (inOrder : store.InOrder shown) (id : ItemId) :
    id ∈ (store.shardFor id).recency.toList ↔ (store.entryOf id).isSome := by
  rw [shardFor, (inOrder _).recent, and_iff_right failOpen]
  exact AList.lookup_isSome.symm

omit [FloatScalar D] in
/-- An item that was shown is tracked exactly if since its last show the other items of its
shard never took all places. -/
theorem Remembers.tracked_iff {past since : List ItemId} {id : ItemId}
    (remembers : store.Remembers (past ++ id :: since)) (unshown : id ∉ since) :
    (store.entryOf id).isSome ↔
      Uncrowded settings.perShardCapacity (usesIn settings (shardIndex settings id) since) := by
  rw [← remembers.inOrder.mem_recency_iff failOpen, shardFor, remembers.order, usesIn_append,
    usesIn_cons_own]
  refine mem_residents_iff settings.perShardCapacity_pos _ fun touch member => ?_
  obtain ⟨other, listed, rfl⟩ := List.mem_map.mp member
  exact fun same => unshown (same ▸ List.mem_of_mem_filter listed)

/-! ## How often an item may be shown -/

/-- Another item of the same shard. -/
def rival (settings : Settings) (id other : ItemId) : Bool :=
  other ≠ id ∧ shardIndex settings other = shardIndex settings id

/-- How an item's shows are paid for: a cap for each time its counters were lost, and what
its counters say; each loss by shows of as many rivals as its shard has places, and the
place it stands at by shows of those ahead of it. -/
inductive Spent (store : ExposureStore settings) (id : ItemId) (shows rivals : Nat) : Prop where
  | untracked (lost : Nat) (untracked : store.entryOf id = none)
      (paid : shows ≤ settings.config.exposureCap.toNat * lost)
      (earned : lost * settings.perShardCapacity ≤ rivals)
  | tracked (lost : Nat) (entry : Entry) (ahead : Finset ItemId)
      (tracked : store.entryOf id = some entry)
      (behind : StandsBehind (store.shardFor id).recency.toList id ahead)
      (paid : shows ≤ settings.config.exposureCap.toNat * lost + entry.lifetimeShows.toNat)
      (within : entry.lifetimeShows ≤ settings.config.exposureCap)
      (earned : lost * settings.perShardCapacity + ahead.card ≤ rivals)

omit failOpen in
theorem spent_create (id : ItemId) : (create settings).Spent id 0 0 :=
  .untracked 0 rfl (Nat.zero_le _) (by rw [Nat.zero_mul])

omit failOpen in
/-- What is shown is paid for: a cap for the counters there are and one for each loss. -/
theorem Spent.le {id : ItemId} {shows rivals : Nat} (spent : store.Spent id shows rivals) :
    shows ≤ settings.config.exposureCap.toNat * (1 + rivals / settings.perShardCapacity) := by
  have bound : ∀ lost, lost * settings.perShardCapacity ≤ rivals →
      settings.config.exposureCap.toNat * (1 + lost) ≤
        settings.config.exposureCap.toNat * (1 + rivals / settings.perShardCapacity) := by
    intro lost earned
    refine Nat.mul_le_mul_left _ (Nat.add_le_add_left ?_ 1)
    exact (Nat.le_div_iff_mul_le settings.perShardCapacity_pos).mpr earned
  cases spent with
  | untracked lost _ paid earned =>
      refine Nat.le_trans (Nat.le_trans paid ?_) (bound lost earned)
      exact Nat.mul_le_mul_left _ (Nat.le_add_left ..)
  | tracked lost entry ahead _ _ paid within earned =>
      refine Nat.le_trans (Nat.le_trans paid ?_) (bound lost (Nat.le_of_add_right_le earned))
      rw [Nat.mul_add, Nat.mul_one, Nat.add_comm]
      exact Nat.add_le_add_right (UInt64.le_iff_toNat_le.mp within) _

section Steps

variable {id : ItemId} {shows rivals : Nat}

/-- A reservation of the item itself. -/
theorem Spent.own (remembers : store.Remembers shown) (capped : 0 < settings.config.exposureCap)
    (spent : store.Spent id shows rivals) (now : Timestamp) :
    (store.reserve D id now).2.Spent id
      (shows + if (store.reserve D id now).1 = .allowed then 1 else 0) rivals := by
  -- After a show the item is ahead of all others.
  have front : (store.reserve D id now).1 = .allowed →
      StandsBehind ((store.reserve D id now).2.shardFor id).recency.toList id ∅ := by
    intro allowed
    rw [shardFor, reserve_recency failOpen remembers.inOrder, allowed, Decision.shows,
      usesIn_cons_own]
    exact standsBehind_use settings.perShardCapacity_pos _ id
  rcases reserve_self D store id now with
    ⟨entry, tracked, decision, after⟩ | ⟨untracked, decision, after⟩ | ⟨untracked, decision, after⟩
  · cases spent with
    | untracked lost untracked => cases untracked.symm.trans tracked
    | tracked lost own ahead found behind paid within earned =>
        cases found.symm.trans tracked
        obtain ⟨still, counted⟩ := judge_paid D capped within (toMillis now)
        rw [← decision] at counted
        by_cases allowed : (store.reserve D id now).1 = .allowed
        · refine .tracked lost _ ∅ after (front allowed) ?_ still ?_
          · rw [counted]
            omega
          · exact Nat.le_trans (Nat.add_le_add_left (Nat.zero_le _) _) earned
        · refine .tracked lost _ ahead after ?_ ?_ still earned
          · rw [shardFor, reserve_recency failOpen remembers.inOrder,
              Decision.shows_refused id allowed]
            exact behind
          · rw [counted]
            omega
  · have fresh : (freshEntry settings.config (toMillis now)).lifetimeShows ≤
        settings.config.exposureCap := UInt64.le_iff_toNat_le.mpr (Nat.zero_le _)
    obtain ⟨still, counted⟩ := judge_paid D capped fresh (toMillis now)
    have allowed : (store.reserve D id now).1 = .allowed :=
      decision.trans (judge_freshEntry D settings.config (toMillis now))
    rw [← decision] at counted
    cases spent with
    | tracked lost own ahead found => cases found.symm.trans untracked
    | untracked lost _ paid earned =>
        refine .tracked lost _ ∅ after (front allowed) ?_ still earned
        rw [counted]
        omega
  · cases spent with
    | tracked lost own ahead found => cases found.symm.trans untracked
    | untracked lost _ paid earned =>
        rw [decision]
        exact .untracked lost after paid earned

omit failOpen in
/-- A reservation of an item of another shard. -/
theorem Spent.elsewhere (spent : store.Spent id shows rivals) {other : ItemId}
    (apart : shardIndex settings id ≠ shardIndex settings other) (now : Timestamp) :
    (store.reserve D other now).2.Spent id shows rivals := by
  have same : (store.reserve D other now).2.shardFor id = store.shardFor id :=
    (reserve_reserved D store other now).2 _ apart
  cases spent with
  | untracked lost untracked paid earned =>
      exact .untracked lost ((congrArg (·.entries.lookup id) same).trans untracked) paid earned
  | tracked lost entry ahead tracked behind paid within earned =>
      refine .tracked lost entry ahead ((congrArg (·.entries.lookup id) same).trans tracked) ?_ paid
        within earned
      rw [same]
      exact behind

/-- A reservation of a rival. The item loses its place when the rivals shown since its last
show take all places. -/
theorem Spent.rivalled (remembers : store.Remembers shown)
    (spent : store.Spent id shows rivals) {other : ItemId} (different : other ≠ id)
    (together : shardIndex settings other = shardIndex settings id) (now : Timestamp) :
    (store.reserve D other now).2.Spent id shows
      (rivals + if (store.reserve D other now).1 = .allowed then 1 else 0) := by
  have unmoved := reserve_other D store (Ne.symm different) now
  have kept := (remembers.reserve failOpen other now (D := D)).inOrder.mem_recency_iff failOpen id
  have order : ((store.reserve D other now).2.shardFor id).recency.toList =
      ((usesIn settings (shardIndex settings id) ((store.reserve D other now).1.shows other)).foldl
        (Touch.apply settings.perShardCapacity) (store.shardFor id).recency.toList) :=
    reserve_recency failOpen remembers.inOrder other now _
  cases spent with
  | untracked lost untracked paid earned =>
      rw [untracked, or_self] at unmoved
      exact .untracked lost unmoved paid (Nat.le_trans earned (Nat.le_add_right ..))
  | tracked lost entry ahead tracked behind paid within earned =>
      -- While the item stands in the list, its counters are as they were.
      have counters : ∀ {ahead : Finset ItemId},
          StandsBehind ((store.reserve D other now).2.shardFor id).recency.toList id ahead →
          (store.reserve D other now).2.entryOf id = some entry := by
        intro ahead stands
        rcases unmoved with same | gone
        · exact same.trans tracked
        · rw [gone] at kept
          exact absurd (kept.mp stands.mem) Bool.false_ne_true
      by_cases allowed : (store.reserve D other now).1 = .allowed
      · rw [if_pos allowed]
        rw [allowed, Decision.shows, ← together, usesIn_cons_own] at order
        have uses : ((store.reserve D other now).2.shardFor id).recency.toList =
          (Touch.use other).apply settings.perShardCapacity (store.shardFor id).recency.toList := order
        have used : if (insert other ahead).card < settings.perShardCapacity then
            StandsBehind ((store.reserve D other now).2.shardFor id).recency.toList id
              (insert other ahead)
            else id ∉ ((store.reserve D other now).2.shardFor id).recency.toList := by
          rw [uses]
          exact behind.use (Shard.nodup_recency _) different
        split at used
        · refine .tracked lost entry (insert other ahead) (counters used) used paid within ?_
          have one := Finset.card_insert_le other ahead
          omega
        · rename_i crowded
          have gone : (store.reserve D other now).2.entryOf id = none :=
            Option.not_isSome_iff_eq_none.mp fun held => used (kept.mpr held)
          refine .untracked (lost + 1) gone ?_ ?_
          · rw [Nat.mul_add, Nat.mul_one]
            exact Nat.le_trans paid (Nat.add_le_add_left (UInt64.le_iff_toNat_le.mp within) _)
          · have one := Finset.card_insert_le other ahead
            rw [Nat.add_mul, Nat.one_mul]
            omega
      · rw [if_neg allowed]
        rw [Decision.shows_refused other allowed] at order
        have stands : StandsBehind ((store.reserve D other now).2.shardFor id).recency.toList id
            ahead := by
          rw [order]
          exact behind
        exact .tracked lost entry ahead (counters stands) stands paid within earned

/-- Any reservation. -/
theorem Spent.reserve (remembers : store.Remembers shown)
    (capped : 0 < settings.config.exposureCap) (spent : store.Spent id shows rivals)
    (other : ItemId) (now : Timestamp) :
    (store.reserve D other now).2.Spent id
      (shows + ((store.reserve D other now).1.shows other).count id)
      (rivals + ((store.reserve D other now).1.shows other).countP (rival settings id)) := by
  rw [List.count_eq_countP, Decision.countP_shows, Decision.countP_shows]
  by_cases own : other = id
  · subst own
    have single : rival settings other other = false := decide_eq_false fun both => both.1 rfl
    simp only [beq_self_eq_true, single, Bool.false_eq_true, ↓reduceIte]
    exact spent.own failOpen remembers capped now
  · simp only [beq_false_of_ne own, Bool.false_eq_true, ↓reduceIte]
    by_cases together : shardIndex settings other = shardIndex settings id
    · have both : rival settings id other = true := decide_eq_true ⟨own, together⟩
      simp only [both, ↓reduceIte]
      exact spent.rivalled failOpen remembers own together now
    · have apart : rival settings id other = false := decide_eq_false fun both => together both.2
      simp only [apart, Bool.false_eq_true, ↓reduceIte]
      exact spent.elsewhere (Ne.symm together) now

end Steps

end FailOpen

end ExposureStore

end Lrd.Policy
