import Lrd.Policy.ShowLog
import Lrd.Policy.Tracking

/-!
# Refused reservations

A refusal is not without effect on the store: it may roll the item's window forward. But a
later call on the item would have rolled it there anyway, since rolling forward in two
steps is rolling forward in one (`Entry.advance_advance`). So the store after a run and the
store after the same run without its refusals differ only in how far they have rolled their
entries (`Shard.Alike`), and as long as time does not go back no decision depends on it
(`ExposureStore.refusals_invisible`).
-/

namespace Lrd.Policy

open Foundation Common Rank

/-! ## Rolling forward -/

variable {entry : Entry} {id : ItemId}

namespace Entry

/-- Counters that stay in their window stay as they are. -/
theorem advance_self (entry : Entry) : entry.advance entry.windowIndex = entry := by
  have notNext : entry.windowIndex ≠ entry.windowIndex + 1 := by
    intro same
    have values := congrArg UInt64.toNat same
    have small := entry.windowIndex.toNat_lt
    rw [UInt64.toNat_add] at values
    change _ = (_ + 1) % 2 ^ 64 at values
    omega
  rw [advance, if_neg notNext, if_neg (fun different => different rfl)]

/-- Counters stand in the window they are moved to. -/
theorem advance_windowIndex (entry : Entry) (index : UInt64) :
    (entry.advance index).windowIndex = index := by
  unfold advance
  split
  · rfl
  · split
    · rfl
    · rename_i same
      exact (not_not.mp same).symm

/-- In a new window nothing has been shown. -/
theorem advance_current {index : UInt64} (forward : index ≠ entry.windowIndex) :
    (entry.advance index).current = 0 := by
  rw [advance, if_pos forward]
  split <;> rfl

/-- Without shows in its window, an entry that moves on forgets everything. -/
theorem advance_of_unshown {index : UInt64} (unshown : entry.current = 0)
    (forward : index ≠ entry.windowIndex) :
    entry.advance index = { entry with previous := 0, current := 0, windowIndex := index } := by
  rw [advance, if_pos forward, unshown]
  split <;> rfl

/-- Forward in two steps is forward in one. -/
theorem advance_advance {between index : UInt64} (first : entry.windowIndex.toNat ≤ between.toNat)
    (second : between.toNat ≤ index.toNat) :
    (entry.advance between).advance index = entry.advance index := by
  have window := entry.advance_windowIndex between
  by_cases stays : between = entry.windowIndex
  · rw [stays, advance_self]
  by_cases there : index = between
  · have arrived := advance_self (entry.advance between)
    rw [window] at arrived
    rw [there, arrived]
  · -- More than one window on, neither counter survives.
    have left : entry.windowIndex.toNat ≠ between.toNat := fun same =>
      stays (UInt64.toNat.inj same.symm)
    have onward : between.toNat ≠ index.toNat := fun same => there (UInt64.toNat.inj same.symm)
    have notNext : index ≠ entry.windowIndex + 1 := by
      rw [ne_eq, eq_succ_iff (first.trans second)]
      omega
    have notSame : index ≠ entry.windowIndex := by
      intro same
      rw [same] at second
      omega
    rw [advance_of_unshown (advance_current stays) (by rw [window]; exact there),
      advance_lifetimeShows]
    conv_rhs => rw [advance, if_neg notNext, if_pos notSame]

/-- Moving to another window does not look at the lifetime count. -/
theorem advance_shown (entry : Entry) (index shows : UInt64) :
    ({ entry with lifetimeShows := shows }).advance index =
      { entry.advance index with lifetimeShows := shows } := by
  unfold advance
  simp only
  split
  · rfl
  · split <;> rfl

end Entry

/-- `left` is `right` rolled forward to a window that has come by the given time. -/
def Rolled (config : PolicyConfig) (nowMs : UInt64) (left right : Entry) : Prop :=
  ∃ index : UInt64, right.windowIndex.toNat ≤ index.toNat ∧
    index.toNat ≤ nowMs.toNat / config.windowMs.toNat ∧ left = right.advance index

namespace Rolled

variable {config : PolicyConfig} {nowMs : UInt64} {left right : Entry}

theorem refl (inOrder : InOrder config entry nowMs) :
    Rolled config nowMs entry entry :=
  ⟨entry.windowIndex, Nat.le_refl _, inOrder, entry.advance_self.symm⟩

/-- Counters that are alike stay so as time passes. -/
theorem later (rolled : Rolled config nowMs left right) {laterMs : UInt64}
    (passes : nowMs.toNat ≤ laterMs.toNat) : Rolled config laterMs left right := by
  obtain ⟨index, forward, reached, same⟩ := rolled
  exact ⟨index, forward, reached.trans (Nat.div_le_div_right passes), same⟩

/-- Both are rolled to the same counters when they are next judged. -/
theorem estimate (D : Type) [Scalar D] (rolled : Rolled config nowMs left right) :
    advanceAndEstimate D config left nowMs = advanceAndEstimate D config right nowMs ∧
      (advanceAndEstimate D config right nowMs).2 = right.advance (nowMs / config.windowMs) ∧
      right.windowIndex.toNat ≤ (nowMs / config.windowMs).toNat := by
  obtain ⟨index, forward, reached, rfl⟩ := rolled
  rw [← UInt64.toNat_div] at reached
  by_cases disabled : config.windowMs = 0
  · -- All time is one window.
    have zero : (nowMs / config.windowMs).toNat = 0 := by
      rw [UInt64.toNat_div, disabled]
      exact Nat.div_zero _
    have start : right.windowIndex = 0 := UInt64.toNat.inj (by
      change right.windowIndex.toNat = 0
      omega)
    have isZero : index = right.windowIndex := UInt64.toNat.inj (by omega)
    have isStart : nowMs / config.windowMs = right.windowIndex := UInt64.toNat.inj (by omega)
    rw [isZero, isStart, Entry.advance_self]
    refine ⟨rfl, ?_, Nat.le_refl _⟩
    rw [advanceAndEstimate, if_pos disabled]
  · unfold advanceAndEstimate
    rw [if_neg disabled, if_neg disabled, Entry.advance_advance forward reached]
    exact ⟨rfl, rfl, forward.trans reached⟩

/-- The limits decide alike for both, and only an allowed show needs to be made of both for
them to stay alike. -/
theorem judge (D : Type) [Scalar D] (rolled : Rolled config nowMs left right) :
    (judge D config left nowMs).1 = (judge D config right nowMs).1 ∧
      Rolled config nowMs (judge D config left nowMs).2
        (if (judge D config left nowMs).1 = .allowed then (judge D config right nowMs).2
          else right) := by
  obtain ⟨estimates, advances, forward⟩ := rolled.estimate D
  have shows : left.lifetimeShows = right.lifetimeShows := by
    obtain ⟨index, _, _, rfl⟩ := rolled
    exact advance_lifetimeShows right index
  have reached : (nowMs / config.windowMs).toNat ≤ nowMs.toNat / config.windowMs.toNat :=
    (UInt64.toNat_div ..).le
  unfold Policy.judge
  rw [estimates, shows]
  by_cases capped : 0 < config.exposureCap ∧ config.exposureCap ≤ right.lifetimeShows
  · simp only [capped, and_self, ↓reduceIte, reduceCtorEq, true_and]
    exact rolled
  by_cases limited : 0 < config.frequencyLimit
  · simp only [capped, limited, ↓reduceIte]
    split
    · exact ⟨trivial, _, forward, reached, advances⟩
    · refine ⟨trivial, refl ?_⟩
      rw [InOrder, advances]
      exact (congrArg UInt64.toNat (right.advance_windowIndex _)).trans_le reached
  · simp only [capped, limited, ↓reduceIte, true_and]
    obtain ⟨index, before, came, same⟩ := rolled
    refine ⟨index, before, came, ?_⟩
    rw [Entry.advance_shown, ← same]

end Rolled

/-! ## Stores that differ in refusals -/

/-- The shards agree, but for how far their entries have been rolled forward. -/
structure Shard.Alike (config : PolicyConfig) (nowMs : UInt64) (left right : Shard) : Prop where
  recency : left.recency = right.recency
  recencyIndex : left.recencyIndex = right.recencyIndex
  entries : ∀ id, Option.Rel (Rolled config nowMs) (left.entries.lookup id) (right.entries.lookup id)

namespace Shard

/-- Recency is kept without looking at the counters. -/
theorem touchRecency_congr {left right : Shard} (recency : left.recency = right.recency)
    (recencyIndex : left.recencyIndex = right.recencyIndex) (config : PolicyConfig) (id : ItemId) :
    (left.touchRecency config id).recency = (right.touchRecency config id).recency ∧
      (left.touchRecency config id).recencyIndex = (right.touchRecency config id).recencyIndex := by
  obtain ⟨leftEntries, list, index, agree⟩ := left
  obtain ⟨rightEntries, _, _, _⟩ := right
  subst recency recencyIndex
  unfold touchRecency
  dsimp only
  split
  · exact ⟨rfl, rfl⟩
  · split <;> exact ⟨rfl, rfl⟩

end Shard

namespace Shard.Alike

variable {config : PolicyConfig} {nowMs : UInt64} {left right : Shard}

/-- Shards that are alike stay so as time passes. -/
theorem later (alike : Shard.Alike config nowMs left right) {laterMs : UInt64}
    (passes : nowMs.toNat ≤ laterMs.toNat) : Shard.Alike config laterMs left right where
  recency := alike.recency
  recencyIndex := alike.recencyIndex
  entries := by
    intro id
    have before := alike.entries id
    generalize left.entries.lookup id = first at before ⊢
    generalize right.entries.lookup id = second at before ⊢
    cases before with
    | none => exact .none
    | some rolled => exact .some (rolled.later passes)

/-- Alike shards track the same items. -/
theorem mem_iff (alike : Shard.Alike config nowMs left right) (id : ItemId) :
    id ∈ left.entries ↔ id ∈ right.entries := by
  have rel := alike.entries id
  rw [← AList.lookup_isSome, ← AList.lookup_isSome]
  generalize left.entries.lookup id = first at rel ⊢
  generalize right.entries.lookup id = second at rel ⊢
  cases rel with
  | none => exact Iff.rfl
  | some => exact Iff.rfl

/-- Alike shards track equally many. -/
theorem size_eq (alike : Shard.Alike config nowMs left right) : left.size = right.size := by
  refine List.Perm.length_eq ?_
  rw [List.perm_ext_iff_of_nodup left.entries.keys_nodup right.entries.keys_nodup]
  intro id
  rw [← AList.mem_keys, ← AList.mem_keys]
  exact alike.mem_iff id

/-- Both shards discard the same item. -/
theorem evictOne (alike : Shard.Alike config nowMs left right) {fewer : Shard}
    (evicted : left.evictOne = some fewer) :
    ∃ fewer', right.evictOne = some fewer' ∧ Shard.Alike config nowMs fewer fewer' := by
  obtain ⟨leftEntries, list, index, agree⟩ := left
  obtain ⟨rightEntries, _, _, _⟩ := right
  obtain ⟨rfl, rfl, entries⟩ := alike
  unfold Shard.evictOne at evicted ⊢
  split at evicted
  · cases evicted
  · rename_i victim back
    cases evicted
    split
    · rename_i nothing
      simp only [nothing] at back
      cases back
    · rename_i other backOther
      have same : other = victim := Option.some.inj (backOther.symm.trans back)
      subst same
      refine ⟨_, rfl, rfl, rfl, ?_⟩
      intro id
      simp only
      by_cases isVictim : id = other
      · rw [isVictim, AList.lookup_erase, AList.lookup_erase]
        exact .none
      · rw [AList.lookup_erase_ne isVictim, AList.lookup_erase_ne isVictim]
        exact entries id

/-- A write to both shards. -/
theorem write (alike : Shard.Alike config nowMs left right) (id : ItemId)
    {first second : Decision × Entry} (decisions : first.1 = second.1)
    (rolled : Rolled config nowMs first.2 second.2) :
    Shard.Alike config nowMs (left.write config id first) (right.write config id second) := by
  have recent : (left.write config id first).recency = (right.write config id second).recency ∧
      (left.write config id first).recencyIndex = (right.write config id second).recencyIndex := by
    unfold Shard.write
    dsimp only
    rw [decisions]
    split
    · apply touchRecency_congr
      · exact alike.recency
      · exact alike.recencyIndex
    · exact ⟨alike.recency, alike.recencyIndex⟩
  refine ⟨recent.1, recent.2, ?_⟩
  intro other
  rw [write_entries, write_entries]
  by_cases same : other = id
  · rw [same, AList.lookup_insert, AList.lookup_insert]
    exact .some rolled
  · rw [AList.lookup_insert_ne same, AList.lookup_insert_ne same]
    exact alike.entries other

/-- A write without a show to one of them. -/
theorem write_refused (alike : Shard.Alike config nowMs left right)
    (tracked : right.entries.lookup id = some entry) {judged : Decision × Entry}
    (refused : judged.1 ≠ .allowed) (rolled : Rolled config nowMs judged.2 entry) :
    Shard.Alike config nowMs (left.write config id judged) right := by
  refine ⟨?_, ?_, ?_⟩
  · rw [Shard.write_refused config left id refused]
    exact alike.recency
  · rw [Shard.write, if_neg refused]
    exact alike.recencyIndex
  · intro other
    rw [write_entries]
    by_cases same : other = id
    · rw [same, AList.lookup_insert, tracked]
      exact .some rolled
    · rw [AList.lookup_insert_ne same]
      exact alike.entries other

/-- A reservation is decided alike in both shards, and a refused one need not be made in
both. -/
theorem reserved {D : Type} [FloatScalar D] {settings : Settings} {decision : Decision}
    {after : Shard} (alike : Shard.Alike settings.config nowMs left right)
    (reserved : Shard.Reserved D settings left id nowMs decision after) :
    (decision = .allowed → ∃ after', Shard.Reserved D settings right id nowMs .allowed after' ∧
        Shard.Alike settings.config nowMs after after') ∧
      (decision ≠ .allowed → Shard.Alike settings.config nowMs after right) := by
  have freshRolled := (Rolled.refl (fresh_inOrder settings.config nowMs)).judge D
  have fresh := judge_freshEntry D settings.config nowMs
  rw [if_pos fresh] at freshRolled
  cases reserved with
  | @judged entry tracked =>
      have rel := alike.entries id
      rw [tracked] at rel
      generalize found : right.entries.lookup id = other at rel
      cases rel with
      | @some _ entry' rolled =>
          obtain ⟨decisions, stays⟩ := rolled.judge D
          constructor
          · intro allowed
            rw [if_pos allowed] at stays
            have matching : Shard.Reserved D settings right id nowMs _ _ := .judged found
            rw [← decisions, allowed] at matching
            exact ⟨_, matching, alike.write id decisions stays⟩
          · intro refused
            rw [if_neg refused] at stays
            exact alike.write_refused found refused stays
  | admitted untracked room =>
      refine ⟨fun _ => ⟨_, .admitted (fun member => untracked ((alike.mem_iff id).mpr member))
        (alike.size_eq ▸ room), alike.write id rfl freshRolled.2⟩, fun refused => absurd rfl refused⟩
  | replaced untracked full failOpen evicted =>
      obtain ⟨fewer, evicted', still⟩ := alike.evictOne evicted
      refine ⟨fun _ => ⟨_, .replaced (fun member => untracked ((alike.mem_iff id).mpr member))
        (alike.size_eq ▸ full) failOpen evicted', still.write id rfl freshRolled.2⟩,
        fun refused => absurd rfl refused⟩
  | full => exact ⟨fun impossible => absurd impossible (by simp), fun _ => alike⟩

end Shard.Alike

/-- What a reservation does is determined by the shard. -/
theorem Shard.Reserved.functional {D : Type} [Scalar D] {settings : Settings} {shard : Shard}
    {nowMs : UInt64} {first second : Decision} {after after' : Shard}
    (left : Shard.Reserved D settings shard id nowMs first after)
    (right : Shard.Reserved D settings shard id nowMs second after') :
    first = second ∧ after = after' := by
  have present : ∀ {entry : Entry}, shard.entries.lookup id = some entry → id ∈ shard.entries :=
    fun tracked => AList.lookup_isSome.mp (tracked ▸ rfl)
  cases left with
  | judged tracked =>
      cases right with
      | judged tracked' =>
          cases tracked.symm.trans tracked'
          exact ⟨rfl, rfl⟩
      | admitted untracked | replaced untracked | full untracked =>
          exact absurd (present tracked) untracked
  | admitted untracked room =>
      cases right with
      | judged tracked => exact absurd (present tracked) untracked
      | admitted => exact ⟨rfl, rfl⟩
      | replaced _ full | full _ full => exact absurd room (Nat.not_lt.mpr full)
  | replaced untracked full failOpen evicted =>
      cases right with
      | judged tracked => exact absurd (present tracked) untracked
      | admitted _ room => exact absurd room (Nat.not_lt.mpr full)
      | replaced _ _ _ evicted' =>
          cases evicted.symm.trans evicted'
          exact ⟨rfl, rfl⟩
      | full _ _ stuck =>
          rw [failOpen, evicted] at stuck
          simp at stuck
  | full untracked full stuck =>
      cases right with
      | judged tracked => exact absurd (present tracked) untracked
      | admitted _ room => exact absurd room (Nat.not_lt.mpr full)
      | replaced _ _ failOpen evicted =>
          rw [failOpen, evicted] at stuck
          simp at stuck
      | full => exact ⟨rfl, rfl⟩

namespace ExposureStore

variable {settings : Settings} {D : Type} [FloatScalar D]

/-- Every shard agrees, but for how far its entries have been rolled forward. -/
def Alike (nowMs : UInt64) (left right : ExposureStore settings) : Prop :=
  ∀ index, Shard.Alike settings.config nowMs (left.shards index) (right.shards index)

/-- A reservation is decided alike in both stores, and a refused one need not be made in
both. -/
theorem Alike.reserve {nowMs : UInt64} {left right : ExposureStore settings}
    (alike : Alike nowMs left right) (id : ItemId) {now : Timestamp}
    (passes : nowMs.toNat ≤ (toMillis now).toNat) :
    ((left.reserve D id now).1 = .allowed → (right.reserve D id now).1 = .allowed ∧
        Alike (toMillis now) (left.reserve D id now).2 (right.reserve D id now).2) ∧
      ((left.reserve D id now).1 ≠ .allowed →
        Alike (toMillis now) (left.reserve D id now).2 right) := by
  obtain ⟨reserved, others⟩ := reserve_reserved D left id now
  obtain ⟨reserved', others'⟩ := reserve_reserved D right id now
  have still : Alike (toMillis now) left right := fun index => (alike index).later passes
  obtain ⟨shown, refused⟩ := (still (shardIndex settings id)).reserved reserved
  constructor
  · intro allowed
    obtain ⟨after, matching, next⟩ := shown allowed
    obtain ⟨decision, same⟩ := reserved'.functional matching
    refine ⟨decision, fun index => ?_⟩
    by_cases own : index = shardIndex settings id
    · subst own
      change Shard.Alike _ _ _ ((right.reserve D id now).2.shardFor id)
      rw [same]
      exact next
    · rw [others index own, others' index own]
      exact still index
  · intro notAllowed index
    by_cases own : index = shardIndex settings id
    · subst own
      exact refused notAllowed
    · rw [others index own]
      exact still index

/-- The store as a machine that only takes reservations. -/
def reservations (D : Type) [Scalar D] (settings : Settings) :
    Machine (ExposureStore settings) (ItemId × Timestamp) Decision where
  step store call := store.reserve D call.1 call.2

/-- Refused reservations are invisible. In a run of reservations whose timestamps are
non-negative and do not go back, those that were refused may be left out, and each of the
others is decided as before. -/
theorem refusals_invisible (settings : Settings) (calls : List (ItemId × Timestamp))
    (after : ∀ call ∈ calls, 0 ≤ call.2.millis.toInt)
    (ordered : calls.Pairwise fun earlier later =>
      earlier.2.millis.toInt ≤ later.2.millis.toInt) :
    let shown := ((reservations D settings).run (create settings) calls).1.filter
      fun event => event.2 = .allowed
    ((reservations D settings).run (create settings) (shown.map Prod.fst)).1 = shown := by
  let related (before : List (ItemId × Timestamp)) (left right : ExposureStore settings) : Prop :=
    ∀ nowMs : UInt64, (∀ call ∈ before, (toMillis call.2).toNat ≤ nowMs.toNat) →
      Alike nowMs left right
  refine (Machine.run_omits (fun event => event.2 = Decision.allowed) related ?_ ?_).1
  · intro before call within left right agreed
    have inOrder : ∀ earlier ∈ before, (toMillis earlier.2).toNat ≤ (toMillis call.2).toNat := by
      intro earlier member
      have times := (List.pairwise_append.mp (ordered.sublist within.sublist)).2.2 earlier member
        call (List.mem_singleton_self call)
      have first := toMillis_toInt (after earlier (within.subset (List.mem_append_left _ member)))
      have second := toMillis_toInt
        (after call (within.subset (List.mem_append_right _ (List.mem_singleton_self call))))
      omega
    obtain ⟨shown, refused⟩ :=
      (agreed (toMillis call.2) inOrder).reserve (D := D) call.1 (Nat.le_refl _)
    have onward : ∀ {left right : ExposureStore settings}, Alike (toMillis call.2) left right →
        ∀ nowMs : UInt64, (∀ earlier ∈ before ++ [call],
          (toMillis earlier.2).toNat ≤ nowMs.toNat) → Alike nowMs left right := by
      intro left right alike nowMs passed index
      exact (alike index).later
        (passed call (List.mem_append_right _ (List.mem_singleton_self call)))
    constructor
    · intro allowed
      have first : (left.reserve D call.1 call.2).1 = .allowed := of_decide_eq_true allowed
      obtain ⟨second, alike⟩ := shown first
      exact ⟨second.trans first.symm, onward alike⟩
    · intro notAllowed
      exact onward (refused (of_decide_eq_false notAllowed))
  · intro nowMs _ index
    exact ⟨rfl, rfl, fun _ => .none⟩

/-- The third call is refused and rolls the window forward. -/
theorem refusals_invisible_rolled :
    let calls : List (ItemId × Timestamp) := [(7, ⟨3⟩), (7, ⟨3⟩), (7, ⟨5⟩), (7, ⟨9⟩)]
    let run := (reservations ℚ twoInFour).run (create twoInFour) calls
    let shown := run.1.filter fun event => event.2 = .allowed
    run.1.map Prod.snd = [.allowed, .allowed, .frequencyLimited, .allowed] ∧
      ((reservations ℚ twoInFour).run (create twoInFour) (shown.map Prod.fst)).1 = shown :=
  ⟨by decide +kernel, refusals_invisible twoInFour _ (by decide) (by decide)⟩

end ExposureStore

end Lrd.Policy
