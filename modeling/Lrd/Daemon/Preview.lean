import Lrd.Daemon.Recommend

/-!
# Previews and live slates

A live request reserves while it selects, so the store its gate asks moves ahead
of the store a preview asks. As long as every item that the preview would newly
track finds a free slot, the two gates agree and so do the slates
(`live_eq_preview`). Under fail-closed that is also necessary
(`fits_slate`).

The same comparison gives the length of a live slate: the allowed candidates of
the shortlist fill it, those left outside the shortlist do not.
-/

namespace Lrd.Daemon

open Foundation Common Rank Policy Cache Proto CandidateSelector ExposureStore

section Store

variable {settings : Policy.Settings}

/-- How many of the ids belong to a policy shard and are not tracked there yet. -/
def newIn (store : ExposureStore settings) (index : Fin settings.shardCount.size)
    (ids : List ItemId) : Nat :=
  ids.countP fun id => shardIndex settings id = index ∧ (store.entryOf id).isNone

/-- Every shard has a free slot for each of the ids it does not track yet. -/
def Fits (store : ExposureStore settings) (ids : List ItemId) : Prop :=
  ∀ index, newIn store index ids ≤ settings.perShardCapacity - (store.shards index).size

/-- New items of a shard, in two parts. -/
theorem newIn_append (store : ExposureStore settings) (index : Fin settings.shardCount.size)
    (first second : List ItemId) :
    newIn store index (first ++ second) = newIn store index first + newIn store index second :=
  List.countP_append

/-- Whether one item is new in a shard. -/
theorem newIn_singleton (store : ExposureStore settings) (index : Fin settings.shardCount.size)
    (id : ItemId) : newIn store index [id] =
      if shardIndex settings id = index ∧ (store.entryOf id).isNone then 1 else 0 := by
  simp only [newIn, List.countP_singleton, decide_eq_true_eq]

end Store

section Ahead

variable {D : Type} {settings : Policy.Settings}

/-- The store of a live request in the middle of its selection, against the store
it started from: untaken candidates are as they were, and each shard has grown by
the chosen items that were new to it. -/
structure Ahead (start store : ExposureStore settings) (selection : Selection D) : Prop where
  untouched : ∀ candidate ∈ untaken selection.slots,
    store.entryOf candidate.id = start.entryOf candidate.id
  grown : ∀ index, (store.shards index).size =
    (start.shards index).size + newIn start index (selection.chosen.map RankedItem.id)
  within : ∀ index, 0 < newIn start index (selection.chosen.map RankedItem.id) →
    (store.shards index).size ≤ settings.perShardCapacity

variable {start store : ExposureStore settings} {selection : Selection D} {best : Best D}

/-- At first nothing has been reserved. -/
theorem Ahead.refl (store : ExposureStore settings) (shortlist : List (Candidate D)) :
    Ahead store store (Selection.start shortlist) where
  untouched := fun _ _ => rfl
  grown := fun _ => rfl
  within := fun _ positive => absurd positive (Nat.lt_irrefl 0)

/-- Candidates that stay untaken have other ids than the one taken. -/
theorem ne_of_untaken (distinct : ((untaken selection.slots).map Candidate.id).Nodup)
    (perm : (best.candidate :: untaken (selection.take best).slots).Perm
      (untaken selection.slots)) :
    ∀ candidate ∈ untaken (selection.take best).slots, candidate.id ≠ best.candidate.id := by
  intro candidate member same
  have nodup := (perm.map Candidate.id).nodup_iff.mpr distinct
  rw [List.map_cons, List.nodup_cons] at nodup
  exact nodup.1 (same ▸ List.mem_map_of_mem member)

/-- What is left has different ids. -/
theorem distinct_answered
    (distinct : ((untaken selection.slots).map Candidate.id).Nodup)
    (perm : (best.candidate :: untaken (selection.take best).slots).Perm
      (untaken selection.slots)) (accepted : Bool) :
    ((untaken (selection.answered best accepted).slots).map Candidate.id).Nodup := by
  have nodup := (perm.map Candidate.id).nodup_iff.mpr distinct
  rw [List.map_cons, List.nodup_cons] at nodup
  rw [untaken_answered]
  exact nodup.2

/-- The counters of the next pick are untouched. -/
theorem Ahead.self (ahead : Ahead start store selection)
    (perm : (best.candidate :: untaken (selection.take best).slots).Perm
      (untaken selection.slots)) :
    store.entryOf best.candidate.id = start.entryOf best.candidate.id :=
  ahead.untouched best.candidate (perm.mem_iff.mp List.mem_cons_self)

variable {after : ExposureStore settings}

/-- Taking a candidate without changing any other item's counters or any shard's
size. -/
theorem Ahead.reject (ahead : Ahead start store selection)
    (distinct : ((untaken selection.slots).map Candidate.id).Nodup)
    (perm : (best.candidate :: untaken (selection.take best).slots).Perm (untaken selection.slots))
    (others : ∀ other, other ≠ best.candidate.id → after.entryOf other = store.entryOf other)
    (sizes : ∀ index, (after.shards index).size = (store.shards index).size) :
    Ahead start after (selection.take best) where
  untouched := by
    intro candidate member
    rw [others _ (ne_of_untaken distinct perm candidate member)]
    exact ahead.untouched candidate (perm.mem_iff.mp (List.mem_cons_of_mem _ member))
  grown := by
    intro index
    rw [sizes]
    exact ahead.grown index
  within := by
    intro index positive
    rw [sizes]
    exact ahead.within index positive

/-- A choice adds its id to the slate. -/
theorem chosen_choose (selection : Selection D) (best : Best D) :
    ((selection.take best).choose best).chosen.map RankedItem.id =
      selection.chosen.map RankedItem.id ++ [best.candidate.id] := by
  simp [Selection.choose, Selection.take]

/-- Choosing a candidate that was already tracked at the start. -/
theorem Ahead.chooseTracked (ahead : Ahead start store selection)
    (distinct : ((untaken selection.slots).map Candidate.id).Nodup)
    (perm : (best.candidate :: untaken (selection.take best).slots).Perm (untaken selection.slots))
    (others : ∀ other, other ≠ best.candidate.id → after.entryOf other = store.entryOf other)
    (sizes : ∀ index, (after.shards index).size = (store.shards index).size)
    (tracked : (start.entryOf best.candidate.id).isSome) :
    Ahead start after ((selection.take best).choose best) := by
  have taken := ahead.reject distinct perm others sizes
  have same : ∀ index, newIn start index
      (((selection.take best).choose best).chosen.map RankedItem.id) =
        newIn start index (selection.chosen.map RankedItem.id) := by
    intro index
    rw [chosen_choose, newIn_append, newIn_singleton, if_neg, Nat.add_zero]
    rintro ⟨_, untracked⟩
    rw [Option.isNone_iff_eq_none] at untracked
    rw [untracked] at tracked
    cases tracked
  refine ⟨taken.untouched, ?_, ?_⟩
  · intro index
    rw [same]
    exact taken.grown index
  · intro index positive
    rw [same] at positive
    exact taken.within index positive

/-- Choosing a candidate that is new to its shard, which has room for it. -/
theorem Ahead.chooseFresh (ahead : Ahead start store selection)
    (distinct : ((untaken selection.slots).map Candidate.id).Nodup)
    (perm : (best.candidate :: untaken (selection.take best).slots).Perm (untaken selection.slots))
    {entry : Entry} (touches : Touches store after best.candidate.id entry 1)
    (room : store.HasRoom best.candidate.id) (untracked : start.entryOf best.candidate.id = none) :
    Ahead start after ((selection.take best).choose best) := by
  have sizeOf : ∀ index, (after.shards index).size = (store.shards index).size +
      if shardIndex settings best.candidate.id = index then 1 else 0 := by
    intro index
    by_cases here : shardIndex settings best.candidate.id = index
    · subst here
      rw [if_pos rfl]
      exact touches.sizeSelf
    · rw [if_neg here]
      exact touches.sizeOthers index (Ne.symm here)
  have counted : ∀ index, newIn start index
      (((selection.take best).choose best).chosen.map RankedItem.id) =
        newIn start index (selection.chosen.map RankedItem.id) +
          if shardIndex settings best.candidate.id = index then 1 else 0 := by
    intro index
    rw [chosen_choose, newIn_append, newIn_singleton, untracked]
    simp only [Option.isNone_none, and_true]
  refine ⟨?_, ?_, ?_⟩
  · intro candidate member
    rw [touches.others _ (ne_of_untaken distinct perm candidate member)]
    exact ahead.untouched candidate (perm.mem_iff.mp (List.mem_cons_of_mem _ member))
  · intro index
    rw [sizeOf, counted, ahead.grown index]
    omega
  · intro index positive
    rw [sizeOf]
    rw [counted] at positive
    by_cases here : shardIndex settings best.candidate.id = index
    · subst here
      rw [if_pos rfl]
      exact room
    · rw [if_neg here] at positive ⊢
      exact ahead.within index positive

/-- Reserving the picked candidate keeps the relation, unless another item has to
give way to it. -/
theorem Ahead.reserve [FloatScalar D] (ahead : Ahead start store selection)
    (distinct : ((untaken selection.slots).map Candidate.id).Nodup)
    (perm : (best.candidate :: untaken (selection.take best).slots).Perm
      (untaken selection.slots)) (now : Timestamp)
    (safe : settings.config.failOpenWhenFull = false ∨ store.HasRoom best.candidate.id ∨
      (start.entryOf best.candidate.id).isSome) :
    Ahead start (store.reserve D best.candidate.id now).2 (selection.answered best
      (decide ((store.reserve D best.candidate.id now).1 = .allowed))) := by
  have self := ahead.self perm
  cases tracked : start.entryOf best.candidate.id with
  | some entry =>
      obtain ⟨_, touches⟩ := reserve_tracked D (self.trans tracked) now
      have sizes : ∀ index, ((store.reserve D best.candidate.id now).2.shards index).size =
          (store.shards index).size := by
        intro index
        by_cases here : index = shardIndex settings best.candidate.id
        · subst here
          exact touches.sizeSelf
        · exact touches.sizeOthers index here
      cases decide ((store.reserve D best.candidate.id now).1 = .allowed) with
      | true =>
          exact ahead.chooseTracked distinct perm touches.others sizes
            (Option.isSome_of_eq_some tracked)
      | false => exact ahead.reject distinct perm touches.others sizes
  | none =>
      by_cases room : store.HasRoom best.candidate.id
      · obtain ⟨decision, touches⟩ := reserve_fresh D (self.trans tracked) room now
        rw [judge_freshEntry] at decision
        rw [decision]
        exact ahead.chooseFresh distinct perm touches room tracked
      · have closed : settings.config.failOpenWhenFull = false := by
          rcases safe with closed | available | present
          · exact closed
          · exact absurd available room
          · rw [tracked] at present
            cases present
        rw [reserve_full D closed (self.trans tracked) room now]
        refine ahead.reject distinct perm (fun _ _ => ?_) (fun _ => ?_)
        · rw [entryOf, shardFor, record_shards]
          rfl
        · rw [record_shards]

/-- The gate of a live request answers as the preview's does, provided a candidate
that the preview would newly track still finds a slot. -/
theorem Ahead.verdict [FloatScalar D] (ahead : Ahead start store selection)
    (perm : (best.candidate :: untaken (selection.take best).slots).Perm
      (untaken selection.slots)) (now : Timestamp)
    (room : start.entryOf best.candidate.id = none →
      start.check D best.candidate.id now = .allowed → store.HasRoom best.candidate.id) :
    (store.reserve D best.candidate.id now).1 = .allowed ↔
      start.check D best.candidate.id now = .allowed := by
  have self := ahead.self perm
  cases tracked : start.entryOf best.candidate.id with
  | some entry =>
      rw [(reserve_tracked D (self.trans tracked) now).1, check_tracked D tracked now]
  | none =>
      by_cases allowed : start.check D best.candidate.id now = .allowed
      · refine iff_of_true ?_ allowed
        rw [(reserve_fresh D (self.trans tracked) (room tracked allowed) now).1]
        exact judge_freshEntry D _ _
      · refine iff_of_false ?_ allowed
        rw [check_untracked D tracked now] at allowed
        have refused : ¬ start.HasRoom best.candidate.id ∧
            settings.config.failOpenWhenFull = false := by
          by_contra otherwise
          exact allowed (if_neg otherwise)
        have stillFull : ¬ store.HasRoom best.candidate.id := by
          intro available
          have grown := ahead.grown (shardIndex settings best.candidate.id)
          rw [HasRoom, shardFor] at refused available
          omega
        rw [reserve_full D refused.2 (self.trans tracked) stillFull now]
        intro impossible
        cases impossible

/-- A candidate that is new to its shard has room if the slate it joins fits. -/
theorem Ahead.hasRoom (ahead : Ahead start store selection) {slate : List (RankedItem D)}
    (fits : Fits start (slate.map RankedItem.id))
    (joins : ((selection.take best).choose best).chosen <+: slate)
    (untracked : start.entryOf best.candidate.id = none) : store.HasRoom best.candidate.id := by
  obtain ⟨rest, split⟩ := joins
  have room := fits (shardIndex settings best.candidate.id)
  rw [← split, List.map_append, newIn_append, chosen_choose, newIn_append, newIn_singleton,
    untracked, if_pos ⟨rfl, rfl⟩] at room
  have grown := ahead.grown (shardIndex settings best.candidate.id)
  rw [HasRoom, shardFor]
  omega

/-- The shards can hold what has been chosen. -/
theorem Ahead.fits (ahead : Ahead start store selection) :
    Fits start (selection.chosen.map RankedItem.id) := by
  intro index
  by_cases none : newIn start index (selection.chosen.map RankedItem.id) = 0
  · rw [none]
    exact Nat.zero_le _
  · have within := ahead.within index (Nat.pos_of_ne_zero none)
    rw [ahead.grown index] at within
    omega

end Ahead

/-! ## Whole selections -/

section Loops

variable {D : Type} [FloatScalar D] {settings : Policy.Settings}

/-- One round of a live selection. -/
theorem selectLoop_reserveGate (now : Timestamp) (query : Query D) (fuel : Nat)
    (selection : Selection D) (store : ExposureStore settings) :
    selectLoop query (some (reserveGate (D := D) settings now)) (fuel + 1) selection store =
      if selection.chosen.length < query.count.toNat then
        match pick query selection with
        | none => (selection.chosen, store)
        | some best =>
            selectLoop query (some (reserveGate (D := D) settings now)) fuel
              (selection.answered best
                (decide ((store.reserve D best.candidate.id now).1 = .allowed)))
              (store.reserve D best.candidate.id now).2
      else (selection.chosen, store) := by
  rw [selectLoop_answered]
  split
  · cases pick query selection with
    | none => rfl
    | some best => rfl
  · rfl

variable {start store : ExposureStore settings} {selection : Selection D}

/-- If the preview's slate fits, the live selection makes the same choices. -/
theorem selectLoop_live_eq (query : Query D) (now : Timestamp) (fuel : Nat)
    (ahead : Ahead start store selection)
    (distinct : ((untaken selection.slots).map Candidate.id).Nodup)
    (fits : Fits start ((selectLoop (m := Id) query
      (some fun id => decide (start.check D id now = .allowed)) fuel selection).map
        RankedItem.id)) :
    (selectLoop query (some (reserveGate (D := D) settings now)) fuel selection store).1 =
      selectLoop (m := Id) query (some fun id => decide (start.check D id now = .allowed)) fuel
        selection := by
  induction fuel generalizing selection store with
  | zero => rfl
  | succ fuel ih =>
      rw [selectLoop_reserveGate]
      rw [selectLoop_answered] at fits ⊢
      by_cases room : selection.chosen.length < query.count.toNat
      · rw [if_pos room] at fits ⊢
        rw [if_pos room]
        rcases pick_cases query selection with ⟨picked, _⟩ | ⟨best, picked, _, perm⟩
        · rw [picked]
          rfl
        · rw [picked] at fits ⊢
          change Fits start ((selectLoop (m := Id) query _ fuel (selection.answered best
            (decide (start.check D best.candidate.id now = .allowed)))).map _) at fits
          have slot : start.entryOf best.candidate.id = none →
              start.check D best.candidate.id now = .allowed →
                store.HasRoom best.candidate.id := by
            intro untracked allowed
            rw [allowed] at fits
            exact ahead.hasRoom fits (chosen_prefix_selectLoop ..) untracked
          have verdict := ahead.verdict perm now slot
          have safe : settings.config.failOpenWhenFull = false ∨
              store.HasRoom best.candidate.id ∨ (start.entryOf best.candidate.id).isSome := by
            cases tracked : start.entryOf best.candidate.id with
            | some entry => exact Or.inr (Or.inr rfl)
            | none =>
                by_cases allowed : start.check D best.candidate.id now = .allowed
                · exact Or.inr (Or.inl (slot tracked allowed))
                · rw [check_untracked D tracked now] at allowed
                  left
                  by_contra opened
                  exact allowed (if_neg fun refused => opened refused.2)
          have next := ahead.reserve distinct perm now safe
          have same : decide ((store.reserve D best.candidate.id now).1 = .allowed) =
              decide (start.check D best.candidate.id now = .allowed) :=
            decide_eq_decide.mpr verdict
          rw [same] at next
          simp only [same]
          exact ih next (distinct_answered distinct perm _) fits
      · rw [if_neg room, if_neg room]
        rfl

/-- A fail-closed store only lets slates through that fit. -/
theorem selectLoop_live_fits (query : Query D) (now : Timestamp) (fuel : Nat)
    (closed : settings.config.failOpenWhenFull = false) (ahead : Ahead start store selection)
    (distinct : ((untaken selection.slots).map Candidate.id).Nodup) :
    Fits start ((selectLoop query (some (reserveGate (D := D) settings now)) fuel selection
      store).1.map RankedItem.id) := by
  induction fuel generalizing selection store with
  | zero => exact ahead.fits
  | succ fuel ih =>
      rw [selectLoop_reserveGate]
      split
      · rcases pick_cases query selection with ⟨picked, _⟩ | ⟨best, picked, _, perm⟩
        · rw [picked]
          exact ahead.fits
        · rw [picked]
          exact ih (ahead.reserve distinct perm now (Or.inl closed))
            (distinct_answered distinct perm _)
      · exact ahead.fits

end Loops

/-! ## Slates -/

section Slates

variable {D : Type} [FloatScalar D] {config : Config D}

/-- The slate of a recommendation handled alone. -/
def slate (state : State config) (now : Timestamp) (requestId : UInt64) (signal : UserSignal D)
    (count : UInt32) (dryRun : Bool) : List (RankedItem D) :=
  slateOf (respond state now ⟨requestId, .recommend ⟨signal, count, dryRun⟩⟩).1

/-- If the new items of the slate fit into their shards, the preview is the live slate. -/
theorem slate_of_fits (state : State config) (now : Timestamp) (requestId : UInt64)
    (signal : UserSignal D) (count : UInt32)
    (fits : Fits state.policy ((slate state now requestId signal count true).map RankedItem.id)) :
    slate state now requestId signal count false =
      slate state now requestId signal count true := by
  by_cases invalid : count = 0 ∨ kMaxRecommendCount < count
  · have live : slate state now requestId signal count false = [] :=
      slate_invalid state now requestId signal count false invalid
    have preview : slate state now requestId signal count true = [] :=
      slate_invalid state now requestId signal count true invalid
    rw [live, preview]
  · rw [not_or] at invalid
    have live : slate state now requestId signal count false = _ :=
      slate_live state now requestId signal count invalid.1 invalid.2
    have preview : slate state now requestId signal count true = _ :=
      slate_dry state now requestId signal count invalid.1 invalid.2
    rw [preview] at fits
    rw [live, preview]
    exact selectLoop_live_eq _ now _ (Ahead.refl state.policy _)
      (untaken_shortlistOf_nodup state _) fits

/-- What a live slate shows has fitted. -/
theorem fits_slate (state : State config) (now : Timestamp) (requestId : UInt64)
    (signal : UserSignal D) (count : UInt32)
    (closed : config.policy.config.failOpenWhenFull = false) :
    Fits state.policy ((slate state now requestId signal count false).map RankedItem.id) := by
  by_cases invalid : count = 0 ∨ kMaxRecommendCount < count
  · have live : slate state now requestId signal count false = [] :=
      slate_invalid state now requestId signal count false invalid
    rw [live]
    exact fun _ => Nat.zero_le _
  · rw [not_or] at invalid
    have live : slate state now requestId signal count false = _ :=
      slate_live state now requestId signal count invalid.1 invalid.2
    rw [live]
    exact selectLoop_live_fits _ now _ closed (Ahead.refl state.policy _)
      (untaken_shortlistOf_nodup state _)

/-- The live slate is the preview's if the items it would newly track fit in the
free slots of their shards. A fail-closed store serves the preview's slate only
then. -/
theorem live_eq_preview (state : State config) (now : Timestamp) (requestId : UInt64)
    (signal : UserSignal D) (count : UInt32) :
    (Fits state.policy ((slate state now requestId signal count true).map RankedItem.id) →
      slate state now requestId signal count false =
        slate state now requestId signal count true) ∧
    (config.policy.config.failOpenWhenFull = false →
      slate state now requestId signal count false =
        slate state now requestId signal count true →
      Fits state.policy ((slate state now requestId signal count true).map RankedItem.id)) := by
  refine ⟨slate_of_fits state now requestId signal count, ?_⟩
  intro closed same
  rw [← same]
  exact fits_slate state now requestId signal count closed

/-- With one slot in the store, two previewed items do not fit: a fail-closed store
refuses the second, and a fail-open one forgets an item that had reached its cap. -/
theorem live_ne_preview :
    let closed := served (oneShard { maxTrackedItems := 1 } (by decide))
      [publishing 1 2, publishing 2 1]
    let opened := served (oneShard ⟨1, 0, 0, 1, true⟩ (by decide))
      [publishing 1 1, asking 1, publishing 2 2]
    closed.Quiescent ∧
      (slate closed.state ⟨0⟩ 0 ⟨[], []⟩ 2 true).map RankedItem.id = [1, 2] ∧
      (slate closed.state ⟨0⟩ 0 ⟨[], []⟩ 2 false).map RankedItem.id = [1] ∧
    opened.Quiescent ∧
      (slate opened.state ⟨0⟩ 0 ⟨[], []⟩ 2 true).map RankedItem.id = [2] ∧
      (slate opened.state ⟨0⟩ 0 ⟨[], []⟩ 2 false).map RankedItem.id = [2, 1] := by
  decide +kernel

end Slates

section Filling

variable {D : Type} [ExactScalar D] {config : Config D}

/-- No more items are new than there are. -/
theorem newIn_le_length {settings : Policy.Settings} (store : ExposureStore settings)
    (index : Fin settings.shardCount.size) (ids : List ItemId) :
    newIn store index ids ≤ ids.length :=
  List.countP_le_length

/-- With a free slot for every item asked for, a live slate is as long as the
shortlist has allowed candidates, up to the count. So it falls short of the allowed
items exactly when too many of them lie outside the shortlist. -/
theorem slate_fills_iff (state : State config) (now : Timestamp) (requestId : UInt64)
    (signal : UserSignal D) (count : UInt32) (positive : count ≠ 0)
    (within : ¬ kMaxRecommendCount < count)
    (free : ∀ index, count.toNat ≤
      config.policy.perShardCapacity - (state.policy.shards index).size) :
    let query := queryOf config now signal count
    let offered := candidates query state.cached
    let allowed := fun candidate : Candidate D =>
      decide (state.policy.check D candidate.id now = .allowed)
    (slate state now requestId signal count false).length =
        min count.toNat ((strongest query.limit offered).countP allowed) ∧
      ((slate state now requestId signal count false).length =
          min count.toNat (offered.countP allowed) ↔
        min count.toNat (offered.countP allowed) ≤
          (strongest query.limit offered).countP allowed) := by
  intro query offered allowed
  have asked : query.count.toNat = count.toNat := UInt32.toNat_toUInt64 count
  have preview : slate state now requestId signal count true = _ :=
    slate_dry state now requestId signal count positive within
  have shortlisted : (shortlistOf state query).countP allowed =
      (strongest query.limit offered).countP allowed :=
    (considerAll_strongest config.heaps state.cached_ids_nodup
      fun _ _ => ExactScalar.isNumber _).countP_eq _
  have previewLength : (slate state now requestId signal count true).length =
      min count.toNat ((strongest query.limit offered).countP allowed) := by
    rw [preview, length_selectLoop _ _ _ _ (by rw [untaken_start]) (Nat.zero_le _),
      untaken_start]
    change min query.count.toNat (0 + (shortlistOf state query).countP allowed) = _
    rw [asked, Nat.zero_add, shortlisted]
  have fits : Fits state.policy
      ((slate state now requestId signal count true).map RankedItem.id) := by
    intro index
    have short := newIn_le_length state.policy index
      ((slate state now requestId signal count true).map RankedItem.id)
    rw [List.length_map, previewLength] at short
    exact (short.trans (Nat.min_le_left _ _)).trans (free index)
  have length : (slate state now requestId signal count false).length =
      min count.toNat ((strongest query.limit offered).countP allowed) := by
    rw [slate_of_fits state now requestId signal count fits, previewLength]
  have fewer : (strongest query.limit offered).countP allowed ≤ offered.countP allowed :=
    List.filter_sublist.countP_le
  refine ⟨length, ?_⟩
  rw [length]
  omega

theorem slate_fills_iff_two :
    let state := (served (oneShard {} (by decide)) [publishing 1 2, publishing 2 1]).state
    (slate state ⟨0⟩ 0 ⟨[], []⟩ 2 false).length =
      min 2 ((candidates (queryOf (oneShard {} (by decide)) ⟨0⟩ ⟨[], []⟩ 2) state.cached).countP
        fun candidate => decide (state.policy.check ℚ candidate.id ⟨0⟩ = .allowed)) :=
  (slate_fills_iff (served (oneShard {} (by decide)) [publishing 1 2, publishing 2 1]).state
    ⟨0⟩ 0 ⟨[], []⟩ 2 (by decide) (by decide) (by decide +kernel)).2.mpr (by decide +kernel)

/-- Four capped items fill the shortlist of a request for one item and hide a fifth
that is allowed. -/
theorem slate_does_not_fill :
    let system := served (oneShard { exposureCap := 1 } (by decide))
      [publishing 1 5, publishing 2 4, publishing 3 3, publishing 4 2, publishing 5 1, asking 4]
    system.Quiescent ∧
      (∀ index, 1 ≤ Policy.Settings.perShardCapacity (oneShard { exposureCap := 1 }
        (by decide)).policy - (system.state.policy.shards index).size) ∧
      ((candidates (queryOf (oneShard { exposureCap := 1 } (by decide)) ⟨0⟩ ⟨[], []⟩ 1)
        system.state.cached).filter fun candidate =>
          system.state.policy.check ℚ candidate.id ⟨0⟩ = .allowed).map Candidate.id = [5] ∧
      slate system.state ⟨0⟩ 0 ⟨[], []⟩ 1 false = [] := by
  decide +kernel

end Filling

end Lrd.Daemon
