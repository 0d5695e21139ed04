import Lrd.Daemon.Promotion
import Lrd.Rank.Withdrawal

/-!
# Deleting an item that is not shown

A recommendation that does not show an item is the same once the item is deleted
(`withdrawal_unnoticed`), for previews, and for live requests as long as the policy store does
not discard counters. What a slate owes to an item that it leaves out is only a place on the
shortlist, so the item must have been off the shortlist, or the shortlist long enough for all
candidates. That the policy store refused the item leaves no trace for the others: a refusal
takes no room in a store that keeps its counters (`oblivious_reserveGate`).
-/

namespace Lrd.Daemon

open Foundation Common Rank Policy Cache Proto CandidateSelector

/-! ## The cache -/

section Cached

variable {K V : Type} [DecidableEq K] {hash : K → UInt64} {settings : CacheSettings}

/-- An erased key is gone, and everything else is kept. -/
theorem held_erase (cache : ShardedCache K V hash settings) {key : K} {value : V}
    {rest : List (K × V)} (held : cache.held.Perm ((key, value) :: rest)) :
    (cache.erase key).2.held.Perm rest := by
  have keys : (((key, value) :: rest).map Prod.fst).Nodup :=
    (held.map Prod.fst).nodup_iff.mp cache.nodup_keys
  have absent : key ∉ rest.map Prod.fst := (List.nodup_cons.mp keys).1
  have restKeys : (rest.map Prod.fst).Nodup := (List.nodup_cons.mp keys).2
  rw [List.perm_ext_iff_of_nodup ((cache.erase key).2.nodup_keys.of_map) restKeys.of_map]
  rintro ⟨other, item⟩
  rw [ShardedCache.mem_held_iff, ShardedCache.peek_erase]
  by_cases same : other = key
  · subst same
    rw [if_pos rfl]
    refine iff_of_false (by simp) fun inside => ?_
    exact absent (List.mem_map_of_mem inside)
  · rw [if_neg same, ← ShardedCache.mem_held_iff, held.mem_iff]
    simp [same]

end Cached

/-! ## The policy store -/

section Alike

variable {settings : Policy.Settings}

/-- Two stores that have the same counters and the same room for all items but one. -/
structure AlikeApart (id : ItemId) (first second : ExposureStore settings) : Prop where
  entries : ∀ other, other ≠ id → first.entryOf other = second.entryOf other
  sizes : ∀ index, (first.shards index).size = (second.shards index).size

variable {id other : ItemId} {first second firstAfter secondAfter : ExposureStore settings}

/-- What is written for another item is written in both. -/
theorem AlikeApart.touches (alike : AlikeApart id first second) {entry : Entry} {grown : Nat}
    (one : ExposureStore.Touches first firstAfter other entry grown)
    (two : ExposureStore.Touches second secondAfter other entry grown) :
    AlikeApart id firstAfter secondAfter where
  entries asked different := by
    by_cases same : asked = other
    · rw [same, one.self, two.self]
    · rw [one.others asked same, two.others asked same, alike.entries asked different]
  sizes index := by
    by_cases same : index = ExposureStore.shardIndex settings other
    · rw [same]
      exact one.sizeSelf.trans
        ((congrArg (· + grown) (alike.sizes _)).trans two.sizeSelf.symm)
    · rw [one.sizeOthers index same, two.sizeOthers index same, alike.sizes index]

/-- What is written for the item itself does not count, unless it takes room. -/
theorem AlikeApart.of_touches {entry : Entry}
    (touches : ExposureStore.Touches first firstAfter id entry 0) :
    AlikeApart id firstAfter first where
  entries := touches.others
  sizes index := by
    by_cases same : index = ExposureStore.shardIndex settings id
    · rw [same]
      exact touches.sizeSelf
    · exact touches.sizeOthers index same

/-- Only the shards matter, not what is counted for the statistics. -/
theorem AlikeApart.of_shards (alike : AlikeApart id first second)
    (one : firstAfter.shards = first.shards) (two : secondAfter.shards = second.shards) :
    AlikeApart id firstAfter secondAfter where
  entries asked different := by
    simp only [ExposureStore.entryOf, ExposureStore.shardFor, one, two]
    exact alike.entries asked different
  sizes index := by
    rw [one, two]
    exact alike.sizes index

variable (D : Type) [FloatScalar D]

/-- A refusal takes no room: an item that is tracked for the first time is accepted. -/
theorem alikeApart_of_refused (closed : settings.config.failOpenWhenFull = false)
    (store : ExposureStore settings) (now : Timestamp)
    (refused : (store.reserve D id now).1 ≠ .allowed) :
    AlikeApart id (store.reserve D id now).2 store := by
  cases tracked : store.entryOf id with
  | some entry => exact .of_touches (ExposureStore.reserve_tracked D tracked now).2
  | none =>
      by_cases room : store.HasRoom id
      · have decision := (ExposureStore.reserve_fresh D tracked room now).1
        rw [judge_freshEntry] at decision
        exact absurd decision refused
      · rw [ExposureStore.reserve_full D closed tracked room]
        have same : AlikeApart id store store := ⟨fun _ _ => rfl, fun _ => rfl⟩
        exact same.of_shards (store.record_shards .storeFull) rfl

/-- Stores that are alike decide alike about the other items, and stay alike. -/
theorem AlikeApart.reserve (closed : settings.config.failOpenWhenFull = false)
    (alike : AlikeApart id first second) (different : other ≠ id) (now : Timestamp) :
    (first.reserve D other now).1 = (second.reserve D other now).1 ∧
      AlikeApart id (first.reserve D other now).2 (second.reserve D other now).2 := by
  have entries := alike.entries other different
  cases tracked : first.entryOf other with
  | some entry =>
      obtain ⟨decision, touches⟩ := ExposureStore.reserve_tracked D tracked now
      obtain ⟨alsoDecision, alsoTouches⟩ :=
        ExposureStore.reserve_tracked D (entries.symm.trans tracked) now
      exact ⟨decision.trans alsoDecision.symm, alike.touches touches alsoTouches⟩
  | none =>
      have untracked := entries.symm.trans tracked
      have sizes := alike.sizes (ExposureStore.shardIndex settings other)
      by_cases room : first.HasRoom other
      · have alsoRoom : second.HasRoom other := sizes.symm.trans_lt room
        obtain ⟨decision, touches⟩ := ExposureStore.reserve_fresh D tracked room now
        obtain ⟨alsoDecision, alsoTouches⟩ := ExposureStore.reserve_fresh D untracked alsoRoom now
        exact ⟨decision.trans alsoDecision.symm, alike.touches touches alsoTouches⟩
      · have alsoFull : ¬ second.HasRoom other := fun free => room (sizes.trans_lt free)
        rw [ExposureStore.reserve_full D closed tracked room,
          ExposureStore.reserve_full D closed untracked alsoFull]
        exact ⟨rfl, alike.of_shards (first.record_shards _) (second.record_shards _)⟩

/-- In a store that keeps its counters a refusal leaves no trace for the other items. -/
theorem oblivious_reserveGate (closed : settings.config.failOpenWhenFull = false)
    (now : Timestamp) (id : ItemId) :
    Oblivious (reserveGate (D := D) settings now) id (AlikeApart id) where
  refused {store} answer :=
    alikeApart_of_refused D closed store now (of_decide_eq_false answer)
  others {other first second} different alike := by
    obtain ⟨decision, still⟩ := alike.reserve D closed different now
    exact ⟨congrArg (fun made => decide (made = Decision.allowed)) decision, still⟩

end Alike

/-! ## The slate -/

section Slate

variable {D : Type} {config : Config D} [ExactScalar D]

/-- Nor does it in a preview. -/
theorem oblivious_gateOf {settings : Policy.Settings} {dryRun : Bool}
    (keeps : dryRun = true ∨ settings.config.failOpenWhenFull = false) (now : Timestamp)
    (id : ItemId) : ∃ alike, Oblivious (gateOf D settings now dryRun) id alike := by
  cases dryRun with
  | true =>
      refine ⟨Eq, fun _ => rfl, ?_⟩
      rintro other first _ _ rfl
      exact ⟨rfl, rfl⟩
  | false =>
      exact ⟨AlikeApart id,
        oblivious_reserveGate D (keeps.resolve_left Bool.false_ne_true) now id⟩

/-- A recommendation that does not show an item is the same after the item has been deleted, in
every preview, and in every live slate unless the policy store fails open; provided that the
item was not on the shortlist, or that all candidates were. -/
theorem withdrawal_unnoticed (state : State config) {item : Item D} (cached : item ∈ state.cached)
    {dryRun : Bool} (keeps : dryRun = true ∨ config.policy.config.failOpenWhenFull = false)
    (now deleted : Timestamp) (deleteId requestId : UInt64) (signal : UserSignal D)
    (count : UInt32)
    (free : (candidates (queryOf config now signal count) state.cached).length ≤
        (queryOf config now signal count).limit ∨
      item.id ∉ ((create (queryOf config now signal count)).considerAll config.heaps
        state.cached).shortlist.map Candidate.id)
    (unshown : item.id ∉
      (slateOf (respond state now ⟨requestId, .recommend ⟨signal, count, dryRun⟩⟩).1).map
        RankedItem.id) :
    slateOf (respond (respond state deleted ⟨deleteId, .deleteItem item.id⟩).2 now
        ⟨requestId, .recommend ⟨signal, count, dryRun⟩⟩).1 =
      slateOf (respond state now ⟨requestId, .recommend ⟨signal, count, dryRun⟩⟩).1 := by
  by_cases invalid : count = 0 ∨ kMaxRecommendCount < count
  · rw [slate_invalid _ now requestId signal count dryRun invalid,
      slate_invalid state now requestId signal count dryRun invalid]
  obtain ⟨positive, within⟩ := not_or.mp invalid
  rw [slate_gateOf state now requestId signal count dryRun positive within] at unshown ⊢
  rw [slate_gateOf _ now requestId signal count dryRun positive within, respond_policy rfl]
  obtain ⟨rest, held⟩ := state.cached_split cached
  have firstItems : state.cached.Perm (item :: rest.map Prod.snd) := held.map Prod.snd
  have secondItems : (respond state deleted ⟨deleteId, .deleteItem item.id⟩).2.cached.Perm
      (rest.map Prod.snd) := by
    simp only [State.cached, respond_cache, cacheAfter]
    exact (held_erase state.cache held).map Prod.snd
  obtain ⟨alike, oblivious⟩ := oblivious_gateOf (D := D) keeps now item.id
  exact (select_unshown config.heaps firstItems secondItems state.cached_ids_nodup oblivious free
    unshown).symm

end Slate

/-- The weakest of three items can be deleted without a change to a slate of two. -/
theorem withdrawal_unnoticed_third :
    slateOf (respond (respond threeItems ⟨0⟩ ⟨0, .deleteItem 3⟩).2 ⟨0⟩
        ⟨0, .recommend ⟨⟨[], []⟩, 2, false⟩⟩).1 =
      slateOf (respond threeItems ⟨0⟩ ⟨0, .recommend ⟨⟨[], []⟩, 2, false⟩⟩).1 ∧
    (slateOf (respond threeItems ⟨0⟩ ⟨0, .recommend ⟨⟨[], []⟩, 2, false⟩⟩).1).length = 2 := by
  have cached : (⟨3, [0], [3], 1, ⟨0⟩, ⟨0⟩⟩ : Item ℚ) ∈ threeItems.cached := by decide +kernel
  refine ⟨?_, by decide +kernel⟩
  exact withdrawal_unnoticed threeItems cached (Or.inr rfl) ⟨0⟩ ⟨0⟩ 0 0 ⟨[], []⟩ 2
    (Or.inl (by decide +kernel)) (by decide +kernel)

/-- The four strongest of five items, shown as often as allowed. -/
def fourShown : State (oneShard { exposureCap := 1 } Settings.enough_default) :=
  (served _ [publishing 1 5, publishing 2 4, publishing 3 3, publishing 4 2, publishing 5 1,
    asking 4]).state

-- The first item is refused, but it keeps the fifth off the shortlist.
example :
    (slateOf (respond fourShown ⟨0⟩ ⟨0, .recommend ⟨⟨[], []⟩, 1, false⟩⟩).1).map RankedItem.id = [] ∧
    (slateOf (respond (respond fourShown ⟨0⟩ ⟨0, .deleteItem 1⟩).2 ⟨0⟩
      ⟨0, .recommend ⟨⟨[], []⟩, 1, false⟩⟩).1).map RankedItem.id = [5] := by
  decide +kernel

end Lrd.Daemon
