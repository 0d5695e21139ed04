import Lrd.Policy.Tracking
import Mathlib.Data.Finset.Card

/-!
# How many items a store tracks

Every item that is shown is tracked, until fail-open discards it to make room for another. So
a shard tracks one item for each that was shown, up to the number it has room for
(`ExposureStore.Filled.size_eq`), whatever the order of the shows and whatever was refused.
-/

namespace Lrd.Policy

open Foundation Common Rank

/-- The items of a shard among those shown. -/
def shownIn (settings : Settings) (shown : List ItemId) (index : Fin settings.shardCount.size) :
    Finset ItemId :=
  shown.toFinset.filter fun id => ExposureStore.shardIndex settings id = index

/-- One item for each that was shown, as far as there is room. -/
def filling (settings : Settings) (shown : List ItemId) (index : Fin settings.shardCount.size) :
    Nat :=
  min settings.perShardCapacity (shownIn settings shown index).card

section Showing

variable {settings : Settings} {shown : List ItemId} {index : Fin settings.shardCount.size}
  {id : ItemId}

/-- What was shown in a shard was shown, and belongs there. -/
theorem mem_shownIn :
    id ∈ shownIn settings shown index ↔
      id ∈ shown ∧ ExposureStore.shardIndex settings id = index := by
  rw [shownIn, Finset.mem_filter, List.mem_toFinset]

/-- A show adds to the items of its own shard. -/
theorem shownIn_snoc (id : ItemId) :
    shownIn settings (shown ++ [id]) index =
      if ExposureStore.shardIndex settings id = index then insert id (shownIn settings shown index)
      else shownIn settings shown index := by
  ext other
  split
  · rename_i own
    rw [Finset.mem_insert, mem_shownIn, mem_shownIn, List.mem_append, List.mem_singleton]
    constructor
    · rintro ⟨earlier | same, place⟩
      · exact Or.inr ⟨earlier, place⟩
      · exact Or.inl same
    · rintro (rfl | ⟨earlier, place⟩)
      · exact ⟨Or.inr rfl, own⟩
      · exact ⟨Or.inl earlier, place⟩
  · rename_i elsewhere
    rw [mem_shownIn, mem_shownIn, List.mem_append, List.mem_singleton]
    constructor
    · rintro ⟨earlier | rfl, place⟩
      · exact ⟨earlier, place⟩
      · exact absurd place elsewhere
    · rintro ⟨earlier, place⟩
      exact ⟨Or.inl earlier, place⟩

/-- A show of another shard's item fills nothing here. -/
theorem filling_elsewhere (other : ExposureStore.shardIndex settings id ≠ index) :
    filling settings (shown ++ [id]) index = filling settings shown index := by
  rw [filling, shownIn_snoc, if_neg other, filling]

/-- Another show of an item fills nothing. -/
theorem filling_again (again : id ∈ shown) :
    filling settings (shown ++ [id]) index = filling settings shown index := by
  rw [filling, shownIn_snoc, filling]
  split
  · rename_i own
    rw [Finset.insert_eq_of_mem (mem_shownIn.mpr ⟨again, own⟩)]
  · rfl

/-- A full shard stays full. -/
theorem filling_full (id : ItemId)
    (full : filling settings shown index = settings.perShardCapacity) :
    filling settings (shown ++ [id]) index = settings.perShardCapacity := by
  rw [filling, min_eq_left_iff] at full ⊢
  refine full.trans (Finset.card_le_card ?_)
  rw [shownIn_snoc]
  split
  · exact Finset.subset_insert ..
  · exact Finset.Subset.refl _

end Showing

namespace Shard

variable {settings : Settings} {shown : List ItemId} {index : Fin settings.shardCount.size}
  {shard : Shard}

/-- A shard with room left tracks every item of its own that was shown. -/
theorem InOrder.tracked_of_shown (inOrder : shard.InOrder settings shown index)
    (filled : shard.size = filling settings shown index)
    (room : shard.size < settings.perShardCapacity) {id : ItemId}
    (own : ExposureStore.shardIndex settings id = index) (earlier : id ∈ shown) :
    id ∈ shard.entries := by
  have subset : shard.entries.keys.toFinset ⊆ shownIn settings shown index := by
    intro held member
    have tracked := AList.mem_keys.mpr (List.mem_toFinset.mp member)
    exact mem_shownIn.mpr ⟨inOrder.known held tracked, inOrder.own held tracked⟩
  have distinct : shard.entries.keys.toFinset.card = shard.size :=
    List.toFinset_card_of_nodup shard.entries.keys_nodup
  have counted : (shownIn settings shown index).card ≤ shard.entries.keys.toFinset.card := by
    rw [distinct, filled]
    rw [filled, filling, min_lt_iff] at room
    rw [filling, min_eq_right (room.resolve_left (Nat.lt_irrefl _)).le]
  have same := Finset.eq_of_subset_of_card_le subset counted
  have member := mem_shownIn.mpr ⟨earlier, own⟩
  rw [← same, List.mem_toFinset] at member
  exact AList.mem_keys.mpr member

/-- An eviction removes one entry. -/
theorem InOrder.size_evicted (inOrder : shard.InOrder settings shown index) {fewer : Shard}
    (evicted : shard.evictOne = some fewer) :
    fewer.size + 1 = shard.size ∧ ∀ id, id ∉ shard.entries → id ∉ fewer.entries := by
  obtain ⟨victim, tracked, _, entries, _, _⟩ := inOrder.evicts evicted
  have present := AList.mem_keys.mp tracked
  refine ⟨?_, fun id absent member => ?_⟩
  · rw [size, size, entries, AList.keys_erase, List.length_erase_of_mem present]
    exact Nat.sub_add_cancel (List.length_pos_of_mem present)
  · rw [entries, AList.mem_erase] at member
    exact absent member.2

/-- Writing for a tracked item takes no room. -/
theorem size_write_tracked (shard : Shard) (config : PolicyConfig) {id : ItemId}
    (tracked : id ∈ shard.entries) (judged : Decision × Entry) :
    (shard.write config id judged).size = shard.size := by
  rw [size, write_entries, ExposureStore.size_insert_mem _ tracked, size]

/-- Writing for another item takes one place. -/
theorem size_write_untracked (shard : Shard) (config : PolicyConfig) {id : ItemId}
    (untracked : id ∉ shard.entries) (judged : Decision × Entry) :
    (shard.write config id judged).size = shard.size + 1 := by
  rw [size, write_entries, ExposureStore.size_insert_absent _ untracked, size]

/-- A reservation fills the item's shard by what it shows. -/
theorem Reserved.filled {D : Type} [FloatScalar D] {after : Shard} {id : ItemId} {nowMs : UInt64}
    {decision : Decision} (reserved : Shard.Reserved D settings shard id nowMs decision after)
    (inOrder : shard.InOrder settings shown index)
    (filled : shard.size = filling settings shown index)
    (own : ExposureStore.shardIndex settings id = index) :
    after.size = filling settings (shown ++ decision.shows id) index := by
  cases reserved with
  | @judged entry tracked =>
      have member : id ∈ shard.entries := AList.lookup_isSome.mp (tracked ▸ rfl)
      rw [size_write_tracked _ _ member, filled]
      by_cases allowed : (judge D settings.config entry nowMs).1 = .allowed
      · rw [allowed]
        exact (filling_again (inOrder.known id member)).symm
      · rw [Decision.shows_refused id allowed, List.append_nil]
  | admitted untracked room =>
      have unseen : id ∉ shownIn settings shown index := fun seen =>
        untracked (inOrder.tracked_of_shown filled room own (mem_shownIn.mp seen).1)
      rw [size_write_untracked _ _ untracked, Decision.shows, filling, shownIn_snoc, if_pos own,
        Finset.card_insert_of_notMem unseen]
      rw [filling] at filled
      omega
  | @replaced fewer untracked full failOpen evicted =>
      obtain ⟨removed, absent⟩ := inOrder.size_evicted evicted
      have crowded : shard.size = settings.perShardCapacity := Nat.le_antisymm inOrder.bounded full
      rw [size_write_untracked _ _ (absent id untracked), removed, crowded]
      exact (filling_full id (filled.symm.trans crowded)).symm
  | full untracked full stuck =>
      rw [Decision.shows_refused id (by simp), List.append_nil, filled]

end Shard

namespace ExposureStore

variable {settings : Settings} {shown : List ItemId} {store : ExposureStore settings}

/-- The shards are in order and tracked as many of the shown items as they had room for. -/
structure Filled (shown : List ItemId) (store : ExposureStore settings) : Prop where
  inOrder : store.InOrder shown
  size_eq : ∀ index, (store.shards index).size = filling settings shown index

theorem Filled.create (settings : Settings) : (create settings).Filled [] where
  inOrder := fun index => Shard.InOrder.empty [] index
  size_eq := fun _ => (Nat.min_zero _).symm

/-- A reservation keeps the store filled with what is shown. -/
theorem Filled.reserve {D : Type} [FloatScalar D] (filled : store.Filled shown) (id : ItemId)
    (now : Timestamp) :
    (store.reserve D id now).2.Filled (shown ++ (store.reserve D id now).1.shows id) where
  inOrder := filled.inOrder.reserve D id now
  size_eq := by
    obtain ⟨reserved, others⟩ := reserve_reserved D store id now
    intro index
    by_cases own : index = shardIndex settings id
    · subst own
      exact reserved.filled (filled.inOrder _) (filled.size_eq _) rfl
    · rw [others index own, filled.size_eq index]
      by_cases allowed : (store.reserve D id now).1 = .allowed
      · rw [allowed]
        exact (filling_elsewhere (Ne.symm own)).symm
      · rw [Decision.shows_refused id allowed, List.append_nil]

end ExposureStore

/-- The items a store has room for are fewer than the words of 64 bits. -/
theorem sum_filling_lt (settings : Settings) (shown : List ItemId) :
    ((List.finRange settings.shardCount.size).map (filling settings shown)).sum < 2 ^ 64 := by
  have share : ∀ index, filling settings shown index ≤
      (settings.config.maxTrackedItems / settings.shardCount.count).toNat :=
    fun _ => Nat.min_le_left ..
  exact (settings.shardCount.sum_le share).trans_lt settings.config.maxTrackedItems.toNat_lt

end Lrd.Policy
