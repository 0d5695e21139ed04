import Lrd.Foundation.Machine
import Lrd.Foundation.Recency
import Lrd.Foundation.Records
import Lrd.Policy.ItemLog

/-!
# What the store tracks

A shard keeps counters, a recency list and an index into that list. `Shard.Reserved` says
case by case what a reservation does to them, and `Shard.InOrder` what is true of them
between calls: a shard tracks no more items than it has room for, and under fail-open its
recency list holds exactly the tracked items in the order of their last allowed
reservations. So a fail-open store always finds an item to discard, and the one it discards
has gone unshown for longest (`ExposureStore.representation_invariant`). Since a new item is
always admitted once there is room for it, `check` answers what `reserve` would
(`ExposureStore.check_predicts_reserve`).
-/

namespace Lrd.Policy

open Foundation Common Rank

/-! ## Recency -/

namespace Shard

/-- A store that fails closed keeps no order of recency. -/
theorem touchRecency_closed {config : PolicyConfig} (closed : config.failOpenWhenFull = false)
    (shard : Shard) (id : ItemId) : shard.touchRecency config id = shard := by
  rw [touchRecency, closed]
  rfl

/-- The item that was just shown is the most recent. -/
theorem touchRecency_toList {config : PolicyConfig} (failOpen : config.failOpenWhenFull = true)
    (shard : Shard) (id : ItemId) :
    (shard.touchRecency config id).recency.toList =
      id :: shard.recency.toList.filter fun other => ¬ other = id := by
  unfold touchRecency
  rw [failOpen]
  simp only [Bool.not_true, Bool.false_eq_true, ↓reduceIte]
  split
  · rename_i handle found
    obtain ⟨element, named, rfl⟩ := (shard.agree id handle).mp found
    exact shard.agree.toList_spliceFront found named
  · rename_i missing
    have kept : (shard.recency.toList.filter fun other => ¬ other = id) = shard.recency.toList :=
      List.filter_eq_self.mpr fun other member =>
        decide_eq_true (ne_of_mem_of_not_mem member (not_mem_recency missing))
    rw [kept]
    rfl

/-- An eviction discards the end of the recency list. -/
theorem evictOne_cases (shard : Shard) :
    (shard.evictOne = none ∧ shard.recency.toList = []) ∨
      ∃ after victim, shard.evictOne = some after ∧
        shard.recency.toList = after.recency.toList ++ [victim] ∧
        after.entries = shard.entries.erase victim := by
  unfold evictOne
  split
  · rename_i none
    exact Or.inl ⟨rfl, List.getLast?_eq_none_iff.mp none⟩
  · rename_i victim back
    refine Or.inr ⟨_, victim, rfl, ?_, rfl⟩
    rw [StableList.toList_popBack]
    exact (List.dropLast_append_getLast? victim back).symm

end Shard

/-! ## One reservation -/

/-- The shard once an item's counters are written, and the item made the most recent if it
was shown. -/
def Shard.write (config : PolicyConfig) (shard : Shard) (id : ItemId)
    (judged : Decision × Entry) : Shard :=
  let shard := { shard with entries := shard.entries.insert id judged.2 }
  if judged.1 = .allowed then shard.touchRecency config id else shard

/-- What is judged is written under its item. -/
theorem Shard.write_entries (config : PolicyConfig) (shard : Shard) (id : ItemId)
    (judged : Decision × Entry) :
    (shard.write config id judged).entries = shard.entries.insert id judged.2 := by
  unfold write
  simp only
  split
  · rw [touchRecency_entries]
  · rfl

variable {judged : Decision × Entry}

/-- A refusal does not count as a use. -/
theorem Shard.write_refused (config : PolicyConfig) (shard : Shard) (id : ItemId)
    (refused : judged.1 ≠ .allowed) :
    (shard.write config id judged).recency = shard.recency := by
  unfold write
  rw [if_neg refused]

/-- What a reservation decides and what it makes of the item's shard. -/
inductive Shard.Reserved (D : Type) [Scalar D] (settings : Settings) (shard : Shard) (id : ItemId)
    (nowMs : UInt64) : Decision → Shard → Prop where
  | judged {entry : Entry} (tracked : shard.entries.lookup id = some entry) :
      Reserved D settings shard id nowMs (judge D settings.config entry nowMs).1
        (shard.write settings.config id (judge D settings.config entry nowMs))
  | admitted (untracked : id ∉ shard.entries) (room : shard.size < settings.perShardCapacity) :
      Reserved D settings shard id nowMs .allowed
        (shard.write settings.config id
          (judge D settings.config (ExposureStore.freshEntry settings.config nowMs) nowMs))
  | replaced {fewer : Shard} (untracked : id ∉ shard.entries)
      (full : settings.perShardCapacity ≤ shard.size)
      (failOpen : settings.config.failOpenWhenFull = true) (evicted : shard.evictOne = some fewer) :
      Reserved D settings shard id nowMs .allowed
        (fewer.write settings.config id
          (judge D settings.config (ExposureStore.freshEntry settings.config nowMs) nowMs))
  | full (untracked : id ∉ shard.entries) (full : settings.perShardCapacity ≤ shard.size)
      (stuck : settings.config.failOpenWhenFull = false ∨ shard.evictOne = none) :
      Reserved D settings shard id nowMs .storeFull shard

namespace ExposureStore

variable {settings : Settings} (D : Type)

/-- The result of a reservation that finds an entry or makes one. -/
theorem reserve_write [Scalar D] (store : ExposureStore settings) (id : ItemId) (now : Timestamp)
    {found : Found}
    (present : findOrEmplace settings (store.shardFor id) id (toMillis now) = some found) :
    (store.reserve D id now).1 = (judge D settings.config found.entry (toMillis now)).1 ∧
      (store.reserve D id now).2.shards = Function.update store.shards (shardIndex settings id)
        (found.shard.write settings.config id
          (judge D settings.config found.entry (toMillis now))) := by
  unfold reserve
  simp only [present, true_and]
  rw [written_shards]
  split
  · rfl
  · rfl

variable [FloatScalar D]

/-- A reservation changes the item's own shard only, in one of the ways of
`Shard.Reserved`. -/
theorem reserve_reserved (store : ExposureStore settings) (id : ItemId) (now : Timestamp) :
    Shard.Reserved D settings (store.shardFor id) id (toMillis now) (store.reserve D id now).1
        ((store.reserve D id now).2.shardFor id) ∧
      ∀ index, index ≠ shardIndex settings id →
        (store.reserve D id now).2.shards index = store.shards index := by
  have fresh := judge_freshEntry D settings.config (toMillis now)
  have written : ∀ {found : Found},
      findOrEmplace settings (store.shardFor id) id (toMillis now) = some found →
      (store.reserve D id now).1 = (judge D settings.config found.entry (toMillis now)).1 ∧
        (store.reserve D id now).2.shardFor id = found.shard.write settings.config id
          (judge D settings.config found.entry (toMillis now)) ∧
        ∀ index, index ≠ shardIndex settings id →
          (store.reserve D id now).2.shards index = store.shards index := by
    intro found present
    obtain ⟨decision, shards⟩ := reserve_write D store id now present
    refine ⟨decision, ?_, ?_⟩
    · rw [shardFor, shards, Function.update_self]
    · intro index different
      rw [shards, Function.update_of_ne different]
  have finds := finds_findOrEmplace settings (store.shardFor id) id (toMillis now)
  generalize present : findOrEmplace settings (store.shardFor id) id (toMillis now) = found at finds
  cases finds with
  | tracked tracked =>
      obtain ⟨decision, shard, others⟩ := written present
      rw [decision, shard]
      exact ⟨.judged tracked, others⟩
  | admitted untracked room =>
      obtain ⟨decision, shard, others⟩ := written present
      rw [decision.trans fresh, shard]
      exact ⟨.admitted untracked room, others⟩
  | replaced untracked full failOpen evicted =>
      obtain ⟨decision, shard, others⟩ := written present
      rw [decision.trans fresh, shard]
      exact ⟨.replaced untracked full failOpen evicted, others⟩
  | full untracked full stuck =>
      rw [reserve_none D store id now present]
      exact ⟨.full untracked full stuck, fun _ _ => rfl⟩

end ExposureStore

/-! ## The shards between calls -/

/-- Every shard has room for an item. -/
theorem Settings.perShardCapacity_pos (settings : Settings) : 0 < settings.perShardCapacity := by
  rw [perShardCapacity, UInt64.toNat_div]
  exact Nat.div_pos (UInt64.le_iff_toNat_le.mp settings.enough) settings.shardCount.size_pos

/-- A shard between calls, given the items shown so far in order. -/
structure Shard.InOrder (settings : Settings) (shown : List ItemId)
    (index : Fin settings.shardCount.size) (shard : Shard) : Prop where
  own : ∀ id ∈ shard.entries, ExposureStore.shardIndex settings id = index
  bounded : shard.size ≤ settings.perShardCapacity
  recent : ∀ id, id ∈ shard.recency.toList ↔
    settings.config.failOpenWhenFull = true ∧ id ∈ shard.entries
  ordered : OrderedByUse shown shard.recency.toList
  known : ∀ id ∈ shard.entries, id ∈ shown

namespace Shard.InOrder

variable {settings : Settings} {shown : List ItemId} {index : Fin settings.shardCount.size}
  {shard : Shard}

/-- An empty shard is in order. -/
theorem empty (shown : List ItemId) (index : Fin settings.shardCount.size) :
    Shard.empty.InOrder settings shown index where
  own := fun _ member => absurd member (AList.notMem_empty _)
  bounded := Nat.zero_le _
  recent := fun id =>
    ⟨fun member => absurd member List.not_mem_nil,
      fun tracked => absurd tracked.2 (AList.notMem_empty id)⟩
  ordered := OrderedByUse.nil shown
  known := fun _ member => absurd member (AList.notMem_empty _)

/-- Shows of other shards' items do not matter. -/
theorem elsewhere (inOrder : shard.InOrder settings shown index) {id : ItemId}
    (other : ExposureStore.shardIndex settings id ≠ index) :
    shard.InOrder settings (shown ++ [id]) index where
  own := inOrder.own
  bounded := inOrder.bounded
  recent := inOrder.recent
  ordered := inOrder.ordered.other fun member =>
    other (inOrder.own id ((inOrder.recent id).mp member).2)
  known := fun held member => List.mem_append_left _ (inOrder.known held member)

/-- Dropping an item from the entries and from the recency list. -/
theorem drop (inOrder : shard.InOrder settings shown index) {fewer : Shard} {id : ItemId}
    (entries : fewer.entries = shard.entries.erase id)
    (recency : fewer.recency.toList = shard.recency.toList.filter fun other => ¬ other = id) :
    fewer.InOrder settings shown index where
  own := by
    intro held member
    rw [entries, AList.mem_erase] at member
    exact inOrder.own held member.2
  bounded := by
    refine Nat.le_trans ?_ inOrder.bounded
    rw [size, entries, AList.keys_erase]
    exact List.length_erase_le
  recent := by
    intro held
    rw [recency, List.mem_filter, decide_eq_true_eq, inOrder.recent, entries, AList.mem_erase]
    tauto
  ordered := by
    rw [recency]
    exact inOrder.ordered.sublist List.filter_sublist
  known := by
    intro held member
    rw [entries, AList.mem_erase] at member
    exact inOrder.known held member.2

/-- What an eviction drops is the item that has gone unshown for longest. -/
theorem evicts (inOrder : shard.InOrder settings shown index) {fewer : Shard}
    (evicted : shard.evictOne = some fewer) :
    ∃ victim ∈ shard.entries, settings.config.failOpenWhenFull = true ∧
      fewer.entries = shard.entries.erase victim ∧ fewer.InOrder settings shown index ∧
      ∀ other ∈ shard.entries, other ≠ victim → lastUse shown victim < lastUse shown other := by
  rcases shard.evictOne_cases with ⟨nothing, _⟩ | ⟨after, victim, found, split, entries⟩
  · rw [nothing] at evicted
    cases evicted
  · rw [found] at evicted
    cases evicted
    have inList : victim ∈ shard.recency.toList := by
      rw [split]
      exact List.mem_append_right _ (List.mem_singleton_self victim)
    obtain ⟨failOpen, tracked⟩ := (inOrder.recent victim).mp inList
    have nodup := shard.agree.nodup_keys
    rw [List.map_id, split] at nodup
    have notEarlier : victim ∉ fewer.recency.toList := fun member =>
      (List.nodup_append.mp nodup).2.2 victim member victim (List.mem_singleton_self victim) rfl
    have recency : fewer.recency.toList =
        shard.recency.toList.filter fun other => ¬ other = victim := by
      rw [split, List.filter_append, List.filter_cons_of_neg (by simp), List.filter_nil,
        List.append_nil]
      refine (List.filter_eq_self.mpr fun other member => ?_).symm
      exact decide_eq_true (ne_of_mem_of_not_mem member notEarlier)
    refine ⟨victim, tracked, failOpen, entries, inOrder.drop entries recency, ?_⟩
    intro other member different
    have ordered := inOrder.ordered
    have inOther := (inOrder.recent other).mpr ⟨failOpen, member⟩
    rw [split] at ordered inOther
    rcases List.mem_append.mp inOther with earlier | isVictim
    · exact ordered.last_oldest other earlier
    · exact absurd (List.mem_singleton.mp isVictim) different

/-- A shard that is full under fail-open has an item to discard. -/
theorem evictOne_isSome (inOrder : shard.InOrder settings shown index)
    (failOpen : settings.config.failOpenWhenFull = true)
    (full : settings.perShardCapacity ≤ shard.size) : shard.evictOne ≠ none := by
  have nonempty : 0 < shard.entries.keys.length := settings.perShardCapacity_pos.trans_le full
  obtain ⟨held, member⟩ := List.exists_mem_of_length_pos nonempty
  have inList := (inOrder.recent held).mpr ⟨failOpen, AList.mem_keys.mpr member⟩
  rcases shard.evictOne_cases with ⟨_, empty⟩ | ⟨_, _, found, _⟩
  · rw [empty] at inList
    exact absurd inList List.not_mem_nil
  · rw [found]
    exact Option.some_ne_none _

/-- Counters written without a show. -/
theorem refused (inOrder : shard.InOrder settings shown index) {id : ItemId}
    (tracked : id ∈ shard.entries) (refused : judged.1 ≠ .allowed) :
    (shard.write settings.config id judged).InOrder settings shown index := by
  have same : ∀ other, other ∈ (shard.write settings.config id judged).entries ↔
      other ∈ shard.entries := by
    intro other
    rw [write_entries, AList.mem_insert]
    exact ⟨fun member => member.elim (fun isId => isId ▸ tracked) fun held => held, Or.inr⟩
  refine ⟨?_, ?_, ?_, ?_, ?_⟩
  · exact fun other member => inOrder.own other ((same other).mp member)
  · rw [size, write_entries, ExposureStore.size_insert_mem _ tracked]
    exact inOrder.bounded
  · intro other
    rw [same, write_refused _ _ _ refused]
    exact inOrder.recent other
  · rw [write_refused _ _ _ refused]
    exact inOrder.ordered
  · exact fun other member => inOrder.known other ((same other).mp member)

/-- A show of an item of the shard. -/
theorem allowed (inOrder : shard.InOrder settings shown index) {id : ItemId}
    (own : ExposureStore.shardIndex settings id = index)
    (fits : id ∈ shard.entries ∨ shard.size < settings.perShardCapacity)
    (allowed : judged.1 = .allowed) :
    (shard.write settings.config id judged).InOrder settings (shown ++ [id]) index := by
  have entries := write_entries settings.config shard id judged
  have recency : (shard.write settings.config id judged).recency.toList =
      if settings.config.failOpenWhenFull = true then
        id :: shard.recency.toList.filter fun other => ¬ other = id
      else shard.recency.toList := by
    rw [write, if_pos allowed]
    cases mode : settings.config.failOpenWhenFull with
    | true => exact touchRecency_toList mode _ id
    | false => rw [touchRecency_closed mode]; rfl
  refine ⟨?_, ?_, ?_, ?_, ?_⟩
  · intro other member
    rw [entries, AList.mem_insert] at member
    rcases member with rfl | held
    · exact own
    · exact inOrder.own other held
  · rw [size, entries]
    by_cases tracked : id ∈ shard.entries
    · rw [ExposureStore.size_insert_mem _ tracked]
      exact inOrder.bounded
    · rw [ExposureStore.size_insert_absent _ tracked]
      exact fits.resolve_left tracked
  · intro other
    rw [recency, entries, AList.mem_insert]
    have before := inOrder.recent other
    split
    · rename_i failOpen
      simp only [List.mem_cons, List.mem_filter, decide_eq_true_eq, before, failOpen, true_and]
      tauto
    · rename_i closed
      rw [before]
      exact ⟨fun held => absurd held.1 closed, fun held => absurd held.1 closed⟩
  · rw [recency]
    split
    · refine (inOrder.ordered.sublist List.filter_sublist).use fun member => ?_
      exact of_decide_eq_true (List.mem_filter.mp member).2 rfl
    · rename_i closed
      exact inOrder.ordered.other fun member => closed ((inOrder.recent id).mp member).1
  · intro other member
    rw [entries, AList.mem_insert] at member
    rcases member with rfl | held
    · exact List.mem_append_right _ (List.mem_singleton_self other)
    · exact List.mem_append_left _ (inOrder.known other held)

end Shard.InOrder

/-- What a decision adds to the items shown. -/
def Decision.shows (id : ItemId) : Decision → List ItemId
  | .allowed => [id]
  | _ => []

/-- A refusal shows nothing. -/
theorem Decision.shows_refused (id : ItemId) {decision : Decision} (refused : decision ≠ .allowed) :
    decision.shows id = [] := by
  cases decision with
  | allowed => exact absurd rfl refused
  | exposureCapReached | frequencyLimited | storeFull => rfl

namespace Shard.Reserved

variable {D : Type} [FloatScalar D] {settings : Settings} {shown : List ItemId}
  {index : Fin settings.shardCount.size} {shard after : Shard} {id : ItemId} {nowMs : UInt64}
  {decision : Decision}

/-- A reservation leaves the item's shard in order. -/
theorem inOrder (reserved : Shard.Reserved D settings shard id nowMs decision after)
    (inOrder : shard.InOrder settings shown index)
    (own : ExposureStore.shardIndex settings id = index) :
    after.InOrder settings (shown ++ decision.shows id) index := by
  have fresh := judge_freshEntry D settings.config nowMs
  cases reserved with
  | @judged entry tracked =>
      have member : id ∈ shard.entries := AList.lookup_isSome.mp (tracked ▸ rfl)
      by_cases allowed : (judge D settings.config entry nowMs).1 = .allowed
      · rw [allowed]
        exact inOrder.allowed own (Or.inl member) allowed
      · rw [Decision.shows_refused id allowed, List.append_nil]
        exact inOrder.refused member allowed
  | admitted _ room => exact inOrder.allowed own (Or.inr room) fresh
  | @replaced fewer untracked _ _ evicted =>
      obtain ⟨victim, tracked, _, entries, still, _⟩ := inOrder.evicts evicted
      refine still.allowed own (Or.inr ?_) fresh
      have shorter : fewer.size < shard.size := by
        rw [size, size, entries, AList.keys_erase,
          List.length_erase_of_mem (AList.mem_keys.mp tracked)]
        exact Nat.sub_one_lt_of_lt (List.length_pos_of_mem (AList.mem_keys.mp tracked))
      exact shorter.trans_le inOrder.bounded
  | full => rwa [Decision.shows_refused id (by simp), List.append_nil]

/-- Under fail-open no item is turned away for lack of room. -/
theorem ne_storeFull (reserved : Shard.Reserved D settings shard id nowMs decision after)
    (inOrder : shard.InOrder settings shown index)
    (failOpen : settings.config.failOpenWhenFull = true) : decision ≠ .storeFull := by
  cases reserved with
  | judged => exact judge_ne_storeFull D settings.config _ nowMs
  | admitted => simp
  | replaced => simp
  | full _ full stuck =>
      rcases stuck with closed | nothing
      · rw [failOpen] at closed
        cases closed
      · exact absurd nothing (inOrder.evictOne_isSome failOpen full)

/-- A new item is shown, unless there is no room for it. -/
theorem allowed_of_untracked (reserved : Shard.Reserved D settings shard id nowMs decision after)
    (untracked : shard.entries.lookup id = none) (notFull : decision ≠ .storeFull) :
    decision = .allowed := by
  cases reserved with
  | judged tracked =>
      rw [tracked] at untracked
      cases untracked
  | admitted => rfl
  | replaced => rfl
  | full => exact absurd rfl notFull

/-- A new item in a full shard takes the place of the item that has gone unshown for
longest. -/
theorem discards_oldest (reserved : Shard.Reserved D settings shard id nowMs decision after)
    (inOrder : shard.InOrder settings shown index)
    (failOpen : settings.config.failOpenWhenFull = true)
    (untracked : shard.entries.lookup id = none) (full : settings.perShardCapacity ≤ shard.size) :
    ∃ victim ∈ shard.entries,
      (∀ other ∈ shard.entries, other ≠ victim → lastUse shown victim < lastUse shown other) ∧
      ∃ entry, after.entries = (shard.entries.erase victim).insert id entry := by
  have notFull := reserved.ne_storeFull inOrder failOpen
  cases reserved with
  | judged tracked =>
      rw [tracked] at untracked
      cases untracked
  | admitted _ room => exact absurd room (Nat.not_lt.mpr full)
  | full => exact absurd rfl notFull
  | @replaced fewer _ _ _ evicted =>
      obtain ⟨victim, tracked, _, erased, _, oldest⟩ := inOrder.evicts evicted
      have written := write_entries settings.config fewer id
        (judge D settings.config (ExposureStore.freshEntry settings.config nowMs) nowMs)
      rw [erased] at written
      exact ⟨victim, tracked, oldest, _, written⟩

end Shard.Reserved

/-! ## Runs of the store -/

namespace ExposureStore

variable {settings : Settings}

/-- Every shard is in order. -/
def InOrder (shown : List ItemId) (store : ExposureStore settings) : Prop :=
  ∀ index, (store.shards index).InOrder settings shown index

variable (D : Type)

/-- What a call answers. -/
def answer [Scalar D] (store : ExposureStore settings) : StoreCall → Option Decision
  | .reserve id now => some (store.reserve D id now).1
  | .check id now => some (store.check D id now)
  | .forget _ => none
  | .clear => none

/-- The store as a machine that answers calls. -/
def machine [Scalar D] (settings : Settings) :
    Machine (ExposureStore settings) StoreCall (Option Decision) where
  step store call := (store.answer D call, store.afterCall D call)

/-- The item that a call shows. -/
def shownBy : StoreCall × Option Decision → Option ItemId
  | (.reserve id _, some .allowed) => some id
  | _ => none

/-- The items shown during a run, in order. -/
def shown (transcript : List (StoreCall × Option Decision)) : List ItemId :=
  transcript.filterMap shownBy

/-- What was shown after one more call. -/
theorem shown_snoc (transcript : List (StoreCall × Option Decision))
    (entry : StoreCall × Option Decision) :
    shown (transcript ++ [entry]) = shown transcript ++ (shownBy entry).toList :=
  filterMap_snoc shownBy transcript entry

/-- Only a reservation shows anything. -/
theorem shown_snoc_other (transcript : List (StoreCall × Option Decision)) {call : StoreCall}
    (answer : Option Decision) (other : ∀ id now, call ≠ .reserve id now) :
    shown (transcript ++ [(call, answer)]) = shown transcript := by
  rw [shown_snoc]
  cases call with
  | reserve id now => exact absurd rfl (other id now)
  | check id now => exact List.append_nil _
  | forget id => exact List.append_nil _
  | clear => exact List.append_nil _

/-- A reservation shows what it allows. -/
theorem shown_snoc_reserve (transcript : List (StoreCall × Option Decision)) (id : ItemId)
    (now : Timestamp) (decision : Decision) :
    shown (transcript ++ [(.reserve id now, some decision)]) =
      shown transcript ++ decision.shows id := by
  rw [shown_snoc]
  cases decision <;> rfl

variable [FloatScalar D]

/-- A reservation leaves the store in order. -/
theorem InOrder.reserve {shownSoFar : List ItemId} {store : ExposureStore settings}
    (inOrder : store.InOrder shownSoFar) (id : ItemId) (now : Timestamp) :
    (store.reserve D id now).2.InOrder (shownSoFar ++ (store.reserve D id now).1.shows id) := by
  obtain ⟨reserved, others⟩ := reserve_reserved D store id now
  intro index
  by_cases own : index = shardIndex settings id
  · subst own
    exact reserved.inOrder (inOrder _) rfl
  · rw [others index own]
    by_cases allowed : (store.reserve D id now).1 = .allowed
    · rw [allowed]
      exact (inOrder index).elsewhere (Ne.symm own)
    · rw [Decision.shows_refused id allowed, List.append_nil]
      exact inOrder index

/-- A call leaves the store in order. -/
theorem inOrder_step {transcript : List (StoreCall × Option Decision)}
    {store : ExposureStore settings} (inOrder : store.InOrder (shown transcript))
    (call : StoreCall) :
    (store.afterCall D call).InOrder (shown (transcript ++ [(call, store.answer D call)])) := by
  cases call with
  | reserve id now =>
      rw [answer, shown_snoc_reserve]
      exact inOrder.reserve D id now
  | check id now =>
      rw [shown_snoc_other _ _ fun _ _ impossible => by cases impossible]
      exact inOrder
  | forget id =>
      obtain ⟨shard, entries, recency, shards⟩ := forget_shards store id
      rw [shown_snoc_other _ _ fun _ _ impossible => by cases impossible]
      intro index
      rw [afterCall, shards]
      by_cases own : index = shardIndex settings id
      · subst own
        rw [Function.update_self]
        exact (inOrder _).drop entries recency
      · rw [Function.update_of_ne own]
        exact inOrder index
  | clear => exact fun index => Shard.InOrder.empty _ index

/-- After every run of calls every shard is in order. -/
theorem inOrder_run (settings : Settings) (calls : List StoreCall) :
    ((machine D settings).run (create settings) calls).2.InOrder
      (shown ((machine D settings).run (create settings) calls).1) := by
  refine Machine.run_invariant (fun transcript store => InOrder (shown transcript) store) ?_ ?_ calls
  · exact fun index => Shard.InOrder.empty _ index
  · intro transcript store call inOrder
    exact inOrder_step D inOrder call

/-! ## What follows between calls -/

section Between

variable {shownSoFar : List ItemId} {store : ExposureStore settings}
  (inOrder : store.InOrder shownSoFar)
include inOrder

/-- A new item in a full shard takes the place of the item that has gone unshown for
longest, and of no other. -/
theorem InOrder.discards_oldest (failOpen : settings.config.failOpenWhenFull = true)
    {id : ItemId} (untracked : store.entryOf id = none) (full : ¬ store.HasRoom id)
    (now : Timestamp) :
    ∃ victim ∈ (store.shardFor id).entries,
      (∀ other ∈ (store.shardFor id).entries, other ≠ victim →
        lastUse shownSoFar victim < lastUse shownSoFar other) ∧
      (store.reserve D id now).2.entryOf victim = none ∧
      ∀ other, other ≠ id → other ≠ victim →
        (store.reserve D id now).2.entryOf other = store.entryOf other := by
  obtain ⟨reserved, others⟩ := reserve_reserved D store id now
  obtain ⟨victim, tracked, oldest, entry, entries⟩ :=
    reserved.discards_oldest (inOrder _) failOpen untracked (Nat.not_lt.mp full)
  have home : shardIndex settings victim = shardIndex settings id :=
    (inOrder _).own victim tracked
  have different : victim ≠ id := ne_of_mem_of_not_mem tracked (AList.lookup_eq_none.mp untracked)
  rw [shardFor] at entries
  refine ⟨victim, tracked, oldest, ?_, ?_⟩
  · rw [entryOf, shardFor, home, entries, AList.lookup_insert_ne different, AList.lookup_erase]
  · intro other notId notVictim
    rw [entryOf, entryOf, shardFor, shardFor]
    by_cases together : shardIndex settings other = shardIndex settings id
    · rw [together, entries, AList.lookup_insert_ne notId, AList.lookup_erase_ne notVictim]
      rfl
    · rw [others _ together]

/-- The store tracks no more items than it was configured for. -/
theorem InOrder.tracked_le : store.tracked ≤ settings.config.maxTrackedItems := by
  have total : ∀ (indices : List (Fin settings.shardCount.size)) (start : UInt64),
      (indices.foldl (fun total index => total + UInt64.ofNat (store.shards index).size)
          start).toNat ≤ start.toNat + indices.length * settings.perShardCapacity := by
    intro indices
    induction indices with
    | nil => intro start; simp
    | cons index indices ih =>
        intro start
        have bounded := (inOrder index).bounded
        have one : (start + UInt64.ofNat (store.shards index).size).toNat ≤
            start.toNat + settings.perShardCapacity := by
          rw [UInt64.toNat_add, UInt64.toNat_ofNat']
          refine (Nat.mod_le _ _).trans (Nat.add_le_add_left ?_ _)
          exact (Nat.mod_le _ _).trans bounded
        have rest := ih (start + UInt64.ofNat (store.shards index).size)
        rw [List.foldl_cons, List.length_cons, Nat.succ_mul]
        omega
  have all := total (List.finRange settings.shardCount.size) 0
  rw [List.length_finRange, UInt64.toNat_zero, Nat.zero_add] at all
  rw [UInt64.le_iff_toNat_le]
  refine all.trans ?_
  rw [Settings.perShardCapacity, UInt64.toNat_div, Nat.mul_comm]
  exact Nat.div_mul_le_self ..

/-- `check` answers what `reserve` would. -/
theorem InOrder.check_eq (id : ItemId) (now : Timestamp) :
    store.check D id now = (store.reserve D id now).1 := by
  cases tracked : store.entryOf id with
  | some entry => rw [check_tracked D tracked, (reserve_tracked D tracked now).1]
  | none =>
      rw [check_untracked D tracked]
      by_cases room : store.HasRoom id
      · rw [if_neg fun full => full.1 room, (reserve_fresh D tracked room now).1, judge_freshEntry]
      · cases mode : settings.config.failOpenWhenFull with
        | false => rw [if_pos ⟨room, rfl⟩, reserve_full D mode tracked room]
        | true =>
            have reserved := (reserve_reserved D store id now).1
            rw [if_neg (by simp)]
            exact (reserved.allowed_of_untracked tracked
              (reserved.ne_storeFull (inOrder _) mode)).symm

end Between

/-! ## Fail-closed stores -/

/-- What a call makes of an item's counters while the item stays tracked. -/
def counted (config : PolicyConfig) (id : ItemId) (entry : Entry) : StoreCall → Entry
  | .reserve other now => if other = id then (judge D config entry (toMillis now)).2 else entry
  | _ => entry

/-- A fail-closed store drops an item only when told to. -/
theorem counted_step (closed : settings.config.failOpenWhenFull = false)
    {store : ExposureStore settings} {id : ItemId} {entry : Entry}
    (tracked : store.entryOf id = some entry) {call : StoreCall} (notForgotten : call ≠ .forget id)
    (notCleared : call ≠ .clear) :
    (store.afterCall D call).entryOf id = some (counted D settings.config id entry call) := by
  cases call with
  | reserve other now =>
      by_cases same : other = id
      · subst same
        rw [counted, if_pos rfl]
        exact (reserve_tracked D tracked now).2.self
      · rw [counted, if_neg same, afterCall, reserve_others D closed store (Ne.symm same), tracked]
  | check other now => exact tracked
  | forget other =>
      have different : id ≠ other := fun same => notForgotten (by rw [same])
      obtain ⟨shard, entries, _, shards⟩ := forget_shards store other
      change (store.forget other).entryOf id = some entry
      rw [entryOf, shardFor, shards, ← tracked, entryOf, shardFor]
      by_cases together : shardIndex settings id = shardIndex settings other
      · rw [together, Function.update_self, entries, AList.lookup_erase_ne different]
        rfl
      · rw [Function.update_of_ne together]
  | clear => exact absurd rfl notCleared

/-- The lifetime count of a tracked item counts its shows, over any run that keeps its counters.
-/
theorem counted_run (closed : settings.config.failOpenWhenFull = false)
    {store : ExposureStore settings} {id : ItemId} {entry : Entry}
    (tracked : store.entryOf id = some entry) {calls : List StoreCall}
    (kept : ∀ call ∈ calls, call ≠ .forget id ∧ call ≠ .clear) :
    ((machine D settings).run store calls).2.entryOf id =
      some (calls.foldl (counted D settings.config id) entry) := by
  induction calls using List.reverseRecOn with
  | nil => exact tracked
  | append_singleton calls call ih =>
      have before := ih fun earlier member => kept earlier (List.mem_append_left _ member)
      obtain ⟨notForgotten, notCleared⟩ :=
        kept call (List.mem_append_right _ (List.mem_singleton_self call))
      rw [Machine.run_snoc, List.foldl_append]
      exact counted_step D closed before notForgotten notCleared

/-! ## Every run -/

/-- The representation invariant. After every run of calls each item is tracked in its own
shard only and no shard tracks more than its part of the items. Under fail-open a shard's
recency list holds exactly its tracked items, once each and in the order of their last
shows, and agrees with its index; a reservation always finds room, and makes it by
discarding the item that has gone unshown for longest. Under fail-closed nothing is kept
about recency, and an item keeps its counters until it is forgotten or all are cleared. -/
theorem representation_invariant (settings : Settings) (calls : List StoreCall) :
    let transcript := ((machine D settings).run (create settings) calls).1
    let store := ((machine D settings).run (create settings) calls).2
    (∀ index, ∀ id ∈ (store.shards index).entries, shardIndex settings id = index) ∧
      (∀ index, (store.shards index).size ≤
        settings.config.maxTrackedItems.toNat / settings.shardCount.size) ∧
      store.tracked ≤ settings.config.maxTrackedItems ∧
      (settings.config.failOpenWhenFull = true →
        (∀ index, let shard := store.shards index
          shard.recency.toList.Nodup ∧
            (∀ id, id ∈ shard.recency.toList ↔ id ∈ shard.entries) ∧
            StableList.Indexes id shard.recency shard.recencyIndex ∧
            OrderedByUse (shown transcript) shard.recency.toList ∧
            ∀ id ∈ shard.recency.toList, id ∈ shown transcript) ∧
        ∀ id now,
          (store.reserve D id now).1 ≠ .storeFull ∧
            (store.entryOf id ≠ none ∨ store.HasRoom id → ∀ other, other ≠ id →
              (store.reserve D id now).2.entryOf other = store.entryOf other) ∧
            (store.entryOf id = none → ¬ store.HasRoom id →
              ∃ victim ∈ (store.shardFor id).entries,
                (∀ other ∈ (store.shardFor id).entries, other ≠ victim →
                  lastUse (shown transcript) victim < lastUse (shown transcript) other) ∧
                (store.reserve D id now).2.entryOf victim = none ∧
                ∀ other, other ≠ id → other ≠ victim →
                  (store.reserve D id now).2.entryOf other = store.entryOf other)) ∧
      (settings.config.failOpenWhenFull = false →
        (∀ index, (store.shards index).recency.toList = []) ∧
        ∀ id entry, store.entryOf id = some entry → ∀ later : List StoreCall,
          (∀ call ∈ later, call ≠ .forget id ∧ call ≠ .clear) →
          ((machine D settings).run store later).2.entryOf id =
            some (later.foldl (counted D settings.config id) entry)) := by
  intro transcript store
  have inOrder : store.InOrder (shown transcript) := inOrder_run D settings calls
  refine ⟨fun index => (inOrder index).own, ?_, inOrder.tracked_le, ?_, ?_⟩
  · intro index
    have bounded := (inOrder index).bounded
    rwa [Settings.perShardCapacity, UInt64.toNat_div] at bounded
  · intro failOpen
    refine ⟨?_, fun id now => ⟨?_, ?_, ?_⟩⟩
    · intro index shard
      have nodup := shard.agree.nodup_keys
      rw [List.map_id] at nodup
      have exactly : ∀ id, id ∈ shard.recency.toList ↔ id ∈ shard.entries := by
        intro id
        rw [(inOrder index).recent id]
        exact and_iff_right failOpen
      refine ⟨nodup, exactly, shard.agree, (inOrder index).ordered, ?_⟩
      intro id member
      exact (inOrder index).known id ((exactly id).mp member)
    · exact (reserve_reserved D store id now).1.ne_storeFull (inOrder _) failOpen
    · intro tracked other different
      cases found : store.entryOf id with
      | some entry => exact (reserve_tracked D found now).2.others other different
      | none =>
          have room := tracked.resolve_left fun present => present found
          exact (reserve_fresh D found room now).2.others other different
    · intro untracked full
      exact inOrder.discards_oldest D failOpen untracked full now
  · intro closed
    refine ⟨?_, fun id entry tracked later kept => counted_run D closed tracked kept⟩
    intro index
    refine List.eq_nil_iff_forall_not_mem.mpr fun id member => ?_
    have failOpen := ((inOrder index).recent id).mp member
    rw [closed] at failOpen
    cases failOpen.1

/-- `check` predicts `reserve`. After every run of calls it answers for every item and time
what `reserve` would answer there, and leaves the store as it is. -/
theorem check_predicts_reserve (settings : Settings) (calls : List StoreCall) (id : ItemId)
    (now : Timestamp) :
    let store := ((machine D settings).run (create settings) calls).2
    store.check D id now = (store.reserve D id now).1 ∧
      (machine D settings).step store (.check id now) = (some (store.check D id now), store) :=
  ⟨(inOrder_run D settings calls).check_eq D id now, rfl⟩

end ExposureStore

end Lrd.Policy
