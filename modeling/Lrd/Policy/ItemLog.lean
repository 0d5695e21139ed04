import Lrd.Policy.ItemView

/-!
# What an item's counters remember

`ItemLog` relates the reservations made of one item, in order, to the counters
the store keeps for it. It abstracts from everything else that happens to the
store: a run of store calls that never drops the item's counters gives such a log
(`itemLog_run`), whatever the calls on other items. The lifetime counter is the
number of allowed reservations (`ItemLog.lifetimeShows`).
-/

namespace Lrd.Policy

open Foundation Common Rank

/-- The reservations made of an item, with their decisions, and the counters they
leave. Each one that finds the item tracked meets the given condition. -/
inductive ItemLog (D : Type) [Scalar D] (config : PolicyConfig)
    (condition : Entry → UInt64 → Prop) : List (UInt64 × Decision) → Option Entry → Prop where
  | start : ItemLog D config condition [] none
  | refused {log : List (UInt64 × Decision)} (nowMs : UInt64) :
      ItemLog D config condition log none →
      ItemLog D config condition (log ++ [(nowMs, .storeFull)]) none
  | first {log : List (UInt64 × Decision)} (nowMs : UInt64) :
      ItemLog D config condition log none →
      ItemLog D config condition
        (log ++ [(nowMs, (judge D config (ExposureStore.freshEntry config nowMs) nowMs).1)])
        (some (judge D config (ExposureStore.freshEntry config nowMs) nowMs).2)
  | again {log : List (UInt64 × Decision)} {entry : Entry} (nowMs : UInt64) :
      ItemLog D config condition log (some entry) → condition entry nowMs →
      ItemLog D config condition (log ++ [(nowMs, (judge D config entry nowMs).1)])
        (some (judge D config entry nowMs).2)

/-- How many reservations of a log were allowed. -/
def allowedIn (log : List (UInt64 × Decision)) : Nat := log.countP fun event => event.2 = .allowed

/-- Whether the last reservation was allowed decides about one more show. -/
theorem allowedIn_snoc (log : List (UInt64 × Decision)) (nowMs : UInt64) (decision : Decision) :
    allowedIn (log ++ [(nowMs, decision)]) =
      allowedIn log + if decision = .allowed then 1 else 0 := by
  simp only [allowedIn, List.countP_append, List.countP_singleton, decide_eq_true_eq]

variable {log : List (UInt64 × Decision)} {id : ItemId}

section Lifetime

variable {D : Type} [Scalar D] {config : PolicyConfig} {condition : Entry → UInt64 → Prop}

/-- An untracked item has not been shown. -/
theorem ItemLog.untracked (logged : ItemLog D config condition log none) : allowedIn log = 0 := by
  generalize isNone : (none : Option Entry) = entry at logged
  induction logged with
  | start => rfl
  | refused nowMs _ ih => rw [allowedIn_snoc, ih isNone]; rfl
  | first nowMs _ _ => cases isNone
  | again nowMs _ _ _ => cases isNone

/-- Induction on the log of a tracked item, from the reservation that it is tracked since. -/
@[elab_as_elim]
theorem ItemLog.trackedInduction
    {motive : ∀ log entry, ItemLog D config condition log (some entry) → Prop}
    (first : ∀ {log} (nowMs : UInt64) (before : ItemLog D config condition log none),
      motive _ _ (before.first nowMs))
    (again : ∀ {log entry} (nowMs : UInt64) (before : ItemLog D config condition log (some entry))
      (meets : condition entry nowMs), motive log entry before →
      motive _ _ (before.again nowMs meets)) {entry : Entry}
    (logged : ItemLog D config condition log (some entry)) :
    motive log entry logged := by
  have tracked : ∀ {log state} (recorded : ItemLog D config condition log state) {entry}
      (isSome : state = some entry), motive log entry (isSome ▸ recorded) := by
    intro log state recorded
    induction recorded with
    | start => intro entry isSome; cases isSome
    | refused nowMs _ _ => intro entry isSome; cases isSome
    | first nowMs before _ =>
        intro entry isSome
        cases isSome
        exact first nowMs before
    | again nowMs before meets ih =>
        intro entry isSome
        cases isSome
        exact again nowMs before meets (ih rfl)
  exact tracked logged rfl

/-- A counter in 64 bits counts up with the number it stands for. -/
theorem ofNat_add_ite (n : Nat) (condition : Prop) [Decidable condition] :
    UInt64.ofNat (n + if condition then 1 else 0) =
      UInt64.ofNat n + if condition then 1 else 0 := by
  split
  · exact UInt64.ofNat_add n 1
  · simp

/-- The lifetime counter is the number of allowed reservations, in 64 bits. -/
theorem ItemLog.lifetimeShows {entry : Entry}
    (logged : ItemLog D config condition log (some entry)) :
    entry.lifetimeShows = UInt64.ofNat (allowedIn log) := by
  induction logged using ItemLog.trackedInduction with
  | first nowMs before =>
      rw [judge_lifetimeShows, allowedIn_snoc, before.untracked, ofNat_add_ite]
      rfl
  | again nowMs _ _ ih => rw [judge_lifetimeShows, allowedIn_snoc, ofNat_add_ite, ih]

/-- With a lifetime cap no more reservations are allowed than it says. -/
theorem ItemLog.allowedIn_le_cap {state : Option Entry}
    (logged : ItemLog D config condition log state) (capped : 0 < config.exposureCap) :
    allowedIn log ≤ config.exposureCap.toNat := by
  have positive : 0 < config.exposureCap.toNat := UInt64.lt_iff_toNat_lt.mp capped
  induction logged with
  | start => exact Nat.zero_le _
  | refused nowMs _ ih => rw [allowedIn_snoc]; simpa using ih
  | first nowMs before _ =>
      rw [allowedIn_snoc, before.untracked]
      split <;> omega
  | again nowMs before _ ih =>
      rw [allowedIn_snoc]
      split
      · rename_i allowed
        have below := judge_allowed_below D config _ nowMs allowed capped
        rw [before.lifetimeShows, UInt64.lt_iff_toNat_lt, UInt64.toNat_ofNat'] at below
        have fits : allowedIn _ < 2 ^ 64 := ih.trans_lt (UInt64.toNat_lt _)
        rw [Nat.mod_eq_of_lt fits] at below
        omega
      · exact ih

end Lifetime

/-! ## Runs of the store -/

/-- The calls a store answers. -/
inductive StoreCall where
  | reserve (id : ItemId) (now : Timestamp)
  | check (id : ItemId) (now : Timestamp)
  | forget (id : ItemId)
  | clear

namespace ExposureStore

variable {settings : Settings} (D : Type) [Scalar D]

/-- The store after one call. -/
def afterCall (store : ExposureStore settings) : StoreCall → ExposureStore settings
  | .reserve id now => (store.reserve D id now).2
  | .check _ _ => store
  | .forget id => store.forget id
  | .clear => store.clear

/-- The reservations of one item during a run of calls, with their decisions. -/
def itemLog (id : ItemId) : ExposureStore settings → List StoreCall → List (Timestamp × Decision)
  | _, [] => []
  | store, call :: calls =>
      let rest := itemLog id (store.afterCall D call) calls
      match call with
      | .reserve other now =>
          if other = id then (now, (store.reserve D id now).1) :: rest else rest
      | _ => rest

/-- No call of the run drops the item's counters: it is neither evicted nor
forgotten nor cleared. -/
def Keeps (id : ItemId) : ExposureStore settings → List StoreCall → Prop
  | _, [] => True
  | store, call :: calls =>
      ((store.entryOf id).isSome → ((store.afterCall D call).entryOf id).isSome) ∧
        Keeps id (store.afterCall D call) calls

/-- A reservation judges the item's counters, or fresh ones, or finds the store
full. -/
theorem reserve_self (store : ExposureStore settings) (id : ItemId) (now : Timestamp) :
    (∃ entry, store.entryOf id = some entry ∧
      (store.reserve D id now).1 = (judge D settings.config entry (toMillis now)).1 ∧
      (store.reserve D id now).2.entryOf id =
        some (judge D settings.config entry (toMillis now)).2) ∨
    (store.entryOf id = none ∧
      (store.reserve D id now).1 =
        (judge D settings.config (freshEntry settings.config (toMillis now)) (toMillis now)).1 ∧
      (store.reserve D id now).2.entryOf id = some
        (judge D settings.config (freshEntry settings.config (toMillis now)) (toMillis now)).2) ∨
    (store.entryOf id = none ∧ (store.reserve D id now).1 = .storeFull ∧
      (store.reserve D id now).2.entryOf id = none) := by
  cases tracked : store.entryOf id with
  | some entry =>
      obtain ⟨decision, touches⟩ := reserve_tracked D tracked now
      exact Or.inl ⟨entry, rfl, decision, touches.self⟩
  | none =>
      apply Or.inr
      have finds := finds_findOrEmplace settings (store.shardFor id) id (toMillis now)
      cases found : findOrEmplace settings (store.shardFor id) id (toMillis now) with
      | none =>
          rw [reserve_none D store id now found]
          exact Or.inr ⟨rfl, rfl, tracked⟩
      | some result =>
          have fresh : result.entry = freshEntry settings.config (toMillis now) := by
            rw [found] at finds
            cases finds with
            | tracked present => cases present.symm.trans tracked
            | admitted => rfl
            | replaced => rfl
          obtain ⟨_, _, reserved⟩ := reserve_some D store id now found
          obtain ⟨shard, written, shards⟩ := reserve_shards D store id now found
          refine Or.inl ⟨rfl, ?_, ?_⟩
          · rw [reserved, fresh]
          · rw [entryOf, shardFor, shards, Function.update_self, written, AList.lookup_insert, fresh]

/-- An eviction takes one item's counters away. -/
theorem evictOne_entries {shard after : Shard} (evicted : shard.evictOne = some after) :
    ∃ victim, after.entries = shard.entries.erase victim := by
  unfold Shard.evictOne at evicted
  split at evicted
  · cases evicted
  · cases evicted
    exact ⟨_, rfl⟩

/-- Where one item's counters are taken away, any item's are kept or gone. -/
theorem lookup_erase_cases (entries : AList fun _ : ItemId => Entry) (victim id : ItemId) :
    (entries.erase victim).lookup id = entries.lookup id ∨
      (entries.erase victim).lookup id = none := by
  by_cases same : id = victim
  · subst same
    exact Or.inr (AList.lookup_erase ..)
  · exact Or.inl (AList.lookup_erase_ne same)

/-- Making room keeps an item's counters or takes them away. -/
theorem findOrEmplace_entries {shard : Shard} {nowMs : UInt64} {found : Found}
    (present : findOrEmplace settings shard id nowMs = some found) (other : ItemId) :
    found.shard.entries.lookup other = shard.entries.lookup other ∨
      found.shard.entries.lookup other = none := by
  have finds := finds_findOrEmplace settings shard id nowMs
  rw [present] at finds
  cases finds with
  | tracked => exact Or.inl rfl
  | admitted => exact Or.inl rfl
  | replaced _ _ _ evicted =>
      obtain ⟨victim, erased⟩ := evictOne_entries evicted
      rw [erased]
      exact lookup_erase_cases shard.entries victim other

/-- Reserving another item leaves an item's counters alone or drops them. -/
theorem reserve_other (store : ExposureStore settings) {id another : ItemId}
    (different : id ≠ another) (now : Timestamp) :
    (store.reserve D another now).2.entryOf id = store.entryOf id ∨
      (store.reserve D another now).2.entryOf id = none := by
  cases found : findOrEmplace settings (store.shardFor another) another (toMillis now) with
  | none =>
      left
      rw [reserve_none D store another now found]
      rfl
  | some result =>
      obtain ⟨shard, written, shards⟩ := reserve_shards D store another now found
      rw [entryOf, shardFor, shards]
      by_cases together : shardIndex settings id = shardIndex settings another
      · rw [together, Function.update_self, written, AList.lookup_insert_ne different, entryOf,
          shardFor, together]
        exact findOrEmplace_entries found id
      · rw [Function.update_of_ne together]
        exact Or.inl rfl

/-- A call that does not reserve the item leaves its counters alone or drops
them. -/
theorem afterCall_other (store : ExposureStore settings) (id : ItemId) (call : StoreCall)
    (other : ∀ now, call ≠ .reserve id now) :
    (store.afterCall D call).entryOf id = store.entryOf id ∨
      (store.afterCall D call).entryOf id = none := by
  cases call with
  | reserve another now =>
      exact reserve_other D store (fun same => other now (by rw [same])) now
  | check another now => exact Or.inl rfl
  | forget another =>
      obtain ⟨shard, erased, _, shards⟩ := forget_shards store another
      change (store.forget another).entryOf id = _ ∨ (store.forget another).entryOf id = _
      rw [entryOf, shardFor, shards]
      by_cases together : shardIndex settings id = shardIndex settings another
      · have sameShard : store.shardFor id = store.shardFor another := by
          rw [shardFor, shardFor, together]
        rw [together, Function.update_self, erased, entryOf, sameShard]
        exact lookup_erase_cases _ another id
      · rw [Function.update_of_ne together]
        exact Or.inl rfl
  | clear => exact Or.inr (AList.lookup_empty id)

variable {D}

/-- One reservation of the item extends its log. -/
theorem itemLog_reserve {condition : Entry → UInt64 → Prop} {store : ExposureStore settings}
    (logged : ItemLog D settings.config condition log (store.entryOf id)) (now : Timestamp)
    (meets : ∀ entry, store.entryOf id = some entry → condition entry (toMillis now)) :
    ItemLog D settings.config condition (log ++ [(toMillis now, (store.reserve D id now).1)])
      ((store.reserve D id now).2.entryOf id) := by
  rcases reserve_self D store id now with
    ⟨entry, tracked, decision, after⟩ | ⟨untracked, decision, after⟩ | ⟨untracked, decision, after⟩
  · rw [tracked] at logged
    rw [decision, after]
    exact logged.again (toMillis now) (meets entry tracked)
  · rw [untracked] at logged
    rw [decision, after]
    exact logged.first (toMillis now)
  · rw [untracked] at logged
    rw [decision, after]
    exact logged.refused (toMillis now)

/-- A run that keeps the item's counters extends its log. -/
theorem itemLog_run {store : ExposureStore settings} {calls : List StoreCall}
    (logged : ItemLog D settings.config (fun _ _ => True) log (store.entryOf id))
    (keeps : Keeps D id store calls) :
    ItemLog D settings.config (fun _ _ => True)
      (log ++ (itemLog D id store calls).map fun event => (toMillis event.1, event.2))
      ((calls.foldl (afterCall D) store).entryOf id) := by
  induction calls generalizing store log with
  | nil => simpa [itemLog] using logged
  | cons call calls ih =>
      obtain ⟨kept, rest⟩ := keeps
      have skip : (∀ now, call ≠ .reserve id now) →
          ItemLog D settings.config (fun _ _ => True) log
            ((store.afterCall D call).entryOf id) := by
        intro other
        rcases afterCall_other D store id call other with same | dropped
        · rwa [same]
        · cases tracked : store.entryOf id with
          | none => rwa [dropped, ← tracked]
          | some entry =>
              rw [tracked, dropped] at kept
              cases kept rfl
      cases call with
      | reserve another now =>
          by_cases same : another = id
          · subst same
            have extended := itemLog_reserve logged now fun _ _ => trivial
            simpa [itemLog, afterCall] using ih extended rest
          · have other : ∀ instant, StoreCall.reserve another now ≠ .reserve id instant := by
              intro instant equal
              cases equal
              exact same rfl
            simpa [itemLog, same] using ih (skip other) rest
      | check another now => exact ih (skip fun _ impossible => by cases impossible) rest
      | forget another => exact ih (skip fun _ impossible => by cases impossible) rest
      | clear => exact ih (skip fun _ impossible => by cases impossible) rest

end ExposureStore

end Lrd.Policy
