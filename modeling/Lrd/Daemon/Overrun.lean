import Lrd.Daemon.Charging
import Lrd.Policy.FailOpen

/-!
# Beyond the cap when the store fails open

With a policy store that fails open, the lifetime cap is not kept: an item whose counters
were discarded starts afresh. But no item is turned away for lack of room, an item is
forgotten only when the other items of its policy shard shown since its last show have taken
all places, and so its shows beyond the cap are paid for by shows of other items: one more
cap for as many of these as the shard has places (`overrun_bounded`).
-/

namespace Lrd.Daemon

open Foundation Common Rank Policy Cache Proto ExposureStore

variable {D : Type} [FloatScalar D] {config : Config D}

/-- Every reservation of a history found room. -/
def NeverFull (history : List (Event (steps config))) : Prop :=
  ∀ id now decision, (⟨.reserve id now, decision⟩ : Event (steps config)) ∈ history →
    decision ≠ Decision.storeFull

/-- The store remembers what the history charged, and the shows of an item are paid for. -/
structure Overseen (id : ItemId) (state : State config) (history : List (Event (steps config))) :
    Prop where
  neverFull : NeverFull history
  remembers : state.policy.Remembers (history.filterMap charged)
  spent : 0 < config.policy.config.exposureCap →
    state.policy.Spent id ((history.filterMap charged).count id)
      ((history.filterMap charged).countP (rival config.policy id))

/-- A step that reserves nothing changes nothing for an item. -/
theorem Overseen.quiet {id : ItemId} {state : State config}
    {history : List (Event (steps config))} (overseen : Overseen id state history)
    {now : Timestamp} {op : Op config} (quiet : Quiet op) :
    Overseen id (perform now op state).2 (history ++ [⟨op, (perform now op state).1⟩]) := by
  have same := (filterMap_snoc_quiet history ⟨op, (perform now op state).1⟩ quiet).1
  refine ⟨?_, ?_, ?_⟩
  · intro other instant decision member
    rcases List.mem_append.mp member with earlier | last
    · exact overseen.neverFull other instant decision earlier
    · cases List.mem_singleton.mp last
      exact quiet.elim
  · rw [same, perform_policy now quiet]
    exact overseen.remembers
  · rw [same, perform_policy now quiet]
    exact overseen.spent

/-- A reservation pays for what it shows and for what it loses. -/
theorem Overseen.reserve (failOpen : config.policy.config.failOpenWhenFull = true) {id : ItemId}
    {state : State config} {history : List (Event (steps config))}
    (overseen : Overseen id state history) (now : Timestamp) (other : ItemId)
    (instant : Timestamp) :
    Overseen id (perform now (.reserve other instant) state).2
      (history ++ [⟨.reserve other instant, (perform now (.reserve other instant) state).1⟩]) := by
  obtain ⟨neverFull, remembers, spent⟩ := overseen
  have shows : ∀ decision : Decision,
      (if decision = .allowed then [other] else []) = decision.shows other := by
    intro decision
    cases decision <;> rfl
  have charges := (filterMap_snoc_reserve history other instant
    (state.policy.reserve D other instant).1).1
  rw [shows] at charges
  change Overseen id { state with policy := (state.policy.reserve D other instant).2 }
    (history ++ [⟨.reserve other instant, (state.policy.reserve D other instant).1⟩])
  refine ⟨?_, ?_, fun capped => ?_⟩
  · intro item time decision member
    rcases List.mem_append.mp member with earlier | last
    · exact neverFull item time decision earlier
    · cases List.mem_singleton.mp last
      exact (reserve_reserved D state.policy other instant).1.ne_storeFull (remembers.inOrder _)
        failOpen
  · rw [charges]
    exact remembers.reserve failOpen other instant
  · rw [charges, List.count_append, List.countP_append]
    exact (spent capped).reserve failOpen remembers capped other instant

/-- What was shown of an item is paid for, in every run. -/
theorem run_overseen (failOpen : config.policy.config.failOpenWhenFull = true) (id : ItemId)
    (schedule : List (Label Timestamp (Request D))) :
    Overseen id (reached config schedule).state (reached config schedule).history := by
  refine System.run_history_invariant (Overseen id) ?_ ?_ schedule
  · exact ⟨fun _ _ _ member => absurd member List.not_mem_nil, remembers_create,
      fun _ => spent_create id⟩
  · intro now op state history overseen
    rcases quiet_or_reserve op with quiet | ⟨other, instant, rfl⟩
    · exact overseen.quiet quiet
    · exact overseen.reserve failOpen now other instant

/-- No item was returned more often than it was charged. -/
theorem returned_le_charged (id : ItemId) (schedule : List (Label Timestamp (Request D))) :
    ((reached config schedule).calls.map fun call =>
        ((returned call).map RankedItem.id).count id).sum ≤
      ((reached config schedule).history.filterMap charged).count id := by
  rw [count_charged]
  refine List.sum_le_sum fun call member => ?_
  cases result : call.result? with
  | none =>
      rw [returned_of_unfinished result]
      exact Nat.zero_le _
  | some response => rw [(charged_of_finished member (Option.isSome_of_eq_some result)).1]

/-- What failing open costs. In every interleaving of requests, no reservation is refused for
lack of room; an item that was shown still has its counters exactly if at no time since its
last show as many other items of its policy shard as the shard has places were shown; and
with a lifetime cap the item is returned at most so often as the cap says, and as often again
for each time that the other items of the shard were shown as often as it has places. -/
theorem overrun_bounded (config : Config D)
    (failOpen : config.policy.config.failOpenWhenFull = true)
    (schedule : List (Label Timestamp (Request D))) (id : ItemId) :
    let system := reached config schedule
    let shown := system.history.filterMap charged
    let room := config.policy.perShardCapacity
    let cap := config.policy.config.exposureCap
    NeverFull system.history ∧
      (∀ past since, shown = past ++ id :: since → id ∉ since →
        ((system.state.policy.entryOf id).isSome ↔
          Uncrowded room (usesIn config.policy (shardIndex config.policy id) since))) ∧
      (0 < cap →
        (system.calls.map fun call => ((returned call).map RankedItem.id).count id).sum ≤
          cap.toNat * (1 + shown.countP (rival config.policy id) / room)) := by
  intro system shown room cap
  obtain ⟨neverFull, remembers, spent⟩ := run_overseen failOpen id schedule
  refine ⟨neverFull, fun past since split unshown => ?_, fun capped => ?_⟩
  · rw [show system.history.filterMap charged = _ from split] at remembers
    exact remembers.tracked_iff failOpen unshown
  · exact Nat.le_trans (returned_le_charged id schedule) (spent capped).le

/-- A policy store with a single place that fails open, and a cap of one show. -/
def forgetful : Config ℚ :=
  oneShard { exposureCap := 1, maxTrackedItems := 1, failOpenWhenFull := true } (by decide)

/-- Item 1 is shown again once item 2 has taken its place, and no more. -/
theorem overrun_bounded_twice :
    let system := served forgetful
      [publishing 1 2, asking 1, publishing 2 1, asking 1, asking 1]
    let times := (system.calls.map fun call => ((returned call).map RankedItem.id).count 1).sum
    times = 2 ∧ times ≤ 2 := by
  intro system times
  -- The cap, the shows of item 2 and the places of the shard are all one.
  have numbers : ∀ {count cap rivals room : Nat}, count ≤ cap * (1 + rivals / room) →
      cap = 1 → rivals = 1 → room = 1 → count ≤ 2 := by
    intro count cap rivals room bound rfl rfl rfl
    exact bound
  refine ⟨by decide +kernel, numbers ((overrun_bounded forgetful rfl (Label.inTurn 16
    [publishing 1 2, asking 1, publishing 2 1, asking 1, asking 1]) 1).2.2 (by decide)) ?_ ?_ ?_⟩
  · decide +kernel
  · decide +kernel
  · decide +kernel

end Lrd.Daemon
