import Lrd.Cache.ShardProduct
import Lrd.Daemon.Answers
import Lrd.Foundation.Records

/-!
# Item versions

The puts and deletes of the workers take effect one after another, in the order of the
history. At every moment the cache holds under an id the version that was last stored
there and not deleted since, or nothing (`held_latest`). So a lookup never returns a
stale or a torn item, and the entries of a slate are copies of versions that were
stored when their shards were copied out (`items_current`).
-/

namespace Lrd.Daemon

open Foundation Common Rank Policy Cache Proto

variable {D : Type} {config : Config D}

/-- What a step writes under which id: a put stores its item, a delete nothing. -/
def itemWrite : Event (steps config) → Option (ItemId × Option (Item D))
  | ⟨.cachePut item, _⟩ => some (item.id, some item)
  | ⟨.cacheErase id, _⟩ => some (id, none)
  | _ => none

/-- The writes of a history, in order. -/
def itemWrites (history : List (Event (steps config))) : List (ItemId × Option (Item D)) :=
  history.filterMap itemWrite

theorem itemWrites_snoc (history : List (Event (steps config))) (event : Event (steps config)) :
    itemWrites (history ++ [event]) = itemWrites history ++ (itemWrite event).toList :=
  filterMap_snoc itemWrite history event

/-- What the cache holds is what was written last. -/
def HoldsLatest (state : State config) (history : List (Event (steps config))) : Prop :=
  ∀ id item, state.cache.peek id = some item → latest (itemWrites history) id = some (some item)

variable [Scalar D]

/-- Every step keeps what the cache holds the latest. -/
theorem HoldsLatest.perform {state : State config} {history : List (Event (steps config))}
    (holds : HoldsLatest state history) (now : Timestamp) (op : Op config) :
    HoldsLatest (Daemon.perform now op state).2
      (history ++ [⟨op, (Daemon.perform now op state).1⟩]) := by
  intro id item looked
  rw [itemWrites_snoc]
  cases op with
  | cacheGet used =>
      simp only [itemWrite, Option.toList_none, List.append_nil]
      exact holds id item ((state.cache.peek_get used id).symm.trans looked)
  | cachePut stored =>
      simp only [itemWrite, Option.toList_some]
      rcases state.cache.peek_put looked with ⟨rfl, rfl⟩ | ⟨other, before⟩
      · exact latest_snoc_self ..
      · rw [latest_snoc_of_ne _ _ other]
        exact holds id item before
  | cacheErase erased =>
      simp only [itemWrite, Option.toList_some]
      have kept := (state.cache.peek_erase erased id).symm.trans looked
      split at kept
      · cases kept
      · rename_i other
        rw [latest_snoc_of_ne _ _ other]
        exact holds id item kept
  | _ =>
      simp only [itemWrite, Option.toList_none, List.append_nil]
      exact holds id item looked

/-- The cache holds the latest versions, in every run. -/
theorem held_latest (schedule : List (Label Timestamp (Request D))) :
    HoldsLatest (reached config schedule).state (reached config schedule).history := by
  refine System.run_history_invariant HoldsLatest ?_ ?_ schedule
  · intro id item looked
    cases looked
  · intro now op state history holds
    exact holds.perform now op

/-! ## Where answers come from -/

variable {item : Item D} {batches : List (Batch config)}

section Calls

variable (schedule : List (Label Timestamp (Request D)))
  {index : Nat} {call : Call (steps config) (Request D) (Response D)}

/-- A call performs a step after an earlier part of the schedule. -/
def PerformedAfter (config : Config D) (schedule earlier : List (Label Timestamp (Request D)))
    (index : Nat) (op : Op config) : Prop :=
  ∃ now later, schedule = earlier ++ .advance index now :: later ∧
    (reached config earlier).Performs index op

/-- An item that a lookup answered is the latest written when the lookup was made. -/
theorem latest_of_looked (made : (reached config schedule).calls[index]? = some call) {id : ItemId}
    (looked : (⟨.cacheGet id, some item⟩ : Event (steps config)) ∈ call.trace) :
    ∃ earlier, PerformedAfter config schedule earlier index (.cacheGet id) ∧
      latest (itemWrites (reached config earlier).history) id = some (some item) := by
  obtain ⟨earlier, now, later, split, performs, answered⟩ :=
    System.run_performed _ schedule index call made _ looked
  refine ⟨earlier, ⟨now, later, split, performs⟩, held_latest earlier id item ?_⟩
  rw [← ShardedCache.get_fst]
  exact answered

/-- What a copy of a shard holds was stored when the shard was copied. -/
theorem stored_of_copied (made : (reached config schedule).calls[index]? = some call)
    {batch : Batch config} (traced : copied batch ∈ call.trace) {id : ItemId}
    (member : (id, item) ∈ batch.2) :
    ∃ earlier, PerformedAfter config schedule earlier index
        (.snapshotShard (ShardedCache.shardIndex (fun id => id) config.cache id)) ∧
      (reached config earlier).state.cache.peek id = some item := by
  obtain ⟨earlier, now, later, split, performs, answered⟩ :=
    System.run_performed _ schedule index call made _ traced
  have inside : (id, item) ∈ (reached config earlier).state.cache.snapshotShard batch.1 := by
    rw [show (reached config earlier).state.cache.snapshotShard batch.1 = batch.2 from answered]
    exact member
  obtain ⟨place, looked⟩ := ShardedCache.mem_snapshotShard _ |>.mp inside
  rw [place]
  exact ⟨earlier, ⟨now, later, split, performs⟩, looked⟩

/-- Every write stems from a request to write. -/
theorem write_requested {event : Event (steps config)}
    (performed : event ∈ (reached config schedule).history) {write : ItemId × Option (Item D)}
    (written : itemWrite event = some write) :
    ∃ call ∈ (reached config schedule).calls, event ∈ call.trace ∧
      ((∃ item, call.request.body = .putItem item ∧ Acceptable item ∧
          write = (item.id, some item)) ∨
        ∃ id, call.request.body = .deleteItem id ∧ write = (id, none)) := by
  obtain ⟨call, made, traced⟩ := System.run_history_traced _ schedule event performed
  have permitted :=
    System.run_uses (State.initial config) schedule made (uses_permitted call.request) event traced
  refine ⟨call, made, traced, ?_⟩
  obtain ⟨op, answer⟩ := event
  cases op with
  | cachePut item =>
      cases written
      exact Or.inl ⟨item, permitted.1, permitted.2, rfl⟩
  | cacheErase id =>
      cases written
      exact Or.inr ⟨id, permitted, rfl⟩
  | _ => cases written

end Calls

/-- The step leaves the items and the exposures alone. -/
def KeepsItems (op : Op config) : Prop :=
  ∀ now (state : State config), (perform now op state).2.cache = state.cache ∧
    (perform now op state).2.policy = state.policy

theorem keepsItems_bump (counter : Counter) : KeepsItems (.bump counter : Op config) :=
  fun _ _ => ⟨rfl, rfl⟩

/-- What a finished request has to do with the versions of items: a lookup answers the
version that was the latest when it was made; an accepted put stores its item once, and
a refused one changes nothing; a delete removes once; and every entry of a slate copies
a version that was stored, as the latest, when its shard was copied out for the request. -/
def Current (schedule : List (Label Timestamp (Request D))) (index : Nat)
    (call : Call (steps config) (Request D) (Response D)) (response : Response D) : Prop :=
  match call.request.body with
  | .getItem id =>
      response.body = .getItemResult .notFound (Item.empty (Scalar.ofNat 0)) ∨
        ∃ item earlier, response.body = .getItemResult .ok item ∧
          PerformedAfter config schedule earlier index (.cacheGet id) ∧
          latest (itemWrites (reached config earlier).history) id = some (some item)
  | .putItem item =>
      (response.body = .putItemResult .ok ∧ itemWrites call.trace = [(item.id, some item)]) ∨
        ∃ message, response.body = .failure .invalidRequest message ∧
          ∀ event ∈ call.trace, KeepsItems event.op
  | .deleteItem id => itemWrites call.trace = [(id, none)]
  | .getStats => True
  | .recommend _ =>
      ((slateOf response).map RankedItem.id).Nodup ∧
        ∀ entry ∈ slateOf response, ∃ item earlier,
          PerformedAfter config schedule earlier index
            (.snapshotShard (ShardedCache.shardIndex (fun id => id) config.cache entry.id)) ∧
          (reached config earlier).state.cache.peek entry.id = some item ∧
          latest (itemWrites (reached config earlier).history) entry.id = some (some item) ∧
          entry.label = item.label

/-- The copies of a call hold each item under its id. -/
theorem consistent_copies (schedule : List (Label Timestamp (Request D))) {index : Nat}
    {call : Call (steps config) (Request D) (Response D)}
    (made : (reached config schedule).calls[index]? = some call)
    (traced : ∀ batch ∈ batches, copied batch ∈ call.trace) :
    ∀ batch ∈ batches, Consistent (copied batch) := by
  intro batch member
  exact System.run_trace_forall consistent_perform schedule call (List.mem_of_getElem? made) _
    (traced batch member)

/-- An item that a scan met was stored when its shard was copied. -/
theorem stored_of_met (schedule : List (Label Timestamp (Request D))) {index : Nat}
    {call : Call (steps config) (Request D) (Response D)}
    (made : (reached config schedule).calls[index]? = some call)
    (traced : ∀ batch ∈ batches, copied batch ∈ call.trace)
    (met : item ∈ (batches.flatMap Prod.snd).map Prod.snd) :
    ∃ earlier, PerformedAfter config schedule earlier index
        (.snapshotShard (ShardedCache.shardIndex (fun id => id) config.cache item.id)) ∧
      (reached config earlier).state.cache.peek item.id = some item := by
  obtain ⟨stored, inBatches, rfl⟩ := List.mem_map.mp met
  obtain ⟨batch, member, inside⟩ := List.mem_flatMap.mp inBatches
  have own := ((consistent_copies schedule made traced batch member).2 stored inside).1
  rw [own]
  exact stored_of_copied schedule made (traced batch member) inside

/-- The slate of a request whose trace holds its copies of the shards. -/
theorem current_slate (schedule : List (Label Timestamp (Request D))) {index : Nat}
    {call : Call (steps config) (Request D) (Response D)}
    (made : (reached config schedule).calls[index]? = some call)
    (traced : ∀ batch ∈ batches, copied batch ∈ call.trace)
    (scanned : batches.map Prod.fst = List.finRange _) {count : UInt32}
    {slate : List (RankedItem D)}
    (drawn : Drawn ((batches.flatMap Prod.snd).map Prod.snd) count slate) :
    (slate.map RankedItem.id).Nodup ∧
      ∀ entry ∈ slate, ∃ item earlier,
        PerformedAfter config schedule earlier index
          (.snapshotShard (ShardedCache.shardIndex (fun id => id) config.cache entry.id)) ∧
        (reached config earlier).state.cache.peek entry.id = some item ∧
        latest (itemWrites (reached config earlier).history) entry.id = some (some item) ∧
        entry.label = item.label := by
  refine ⟨drawn.once (batches_nodup ?_ (consistent_copies schedule made traced)), ?_⟩
  · rw [scanned]
    exact List.nodup_finRange _
  · intro entry member
    obtain ⟨item, met, label⟩ := drawn.copies entry member
    obtain ⟨earlier, performed, looked⟩ := stored_of_met schedule made traced met
    have own : entry.id = item.id := congrArg Prod.fst label
    rw [own]
    exact ⟨item, earlier, performed, looked, held_latest earlier _ _ looked, label⟩

/-- The answer of a finished call is the version of its own step. -/
theorem current_of_finished (schedule : List (Label Timestamp (Request D))) {index : Nat}
    {call : Call (steps config) (Request D) (Response D)}
    (made : (reached config schedule).calls[index]? = some call) {response : Response D}
    (finished : call.result? = some response) : Current schedule index call response := by
  obtain ⟨_, rest, traced, answered⟩ :=
    answered_of_finished schedule (List.mem_of_getElem? made) finished
  have within : ∀ event ∈ rest, event ∈ call.trace := by
    intro event member
    rw [traced]
    exact List.mem_cons_of_mem _ member
  unfold Current
  generalize call.request.body = body at answered ⊢
  generalize responded : response.body = reply at answered ⊢
  cases answered with
  | found id item =>
      obtain ⟨earlier, performed, last⟩ :=
        latest_of_looked schedule made (within ⟨.cacheGet id, some item⟩ (by simp))
      exact Or.inr ⟨item, earlier, rfl, performed, last⟩
  | missed id => exact Or.inl rfl
  | stored item acceptable =>
      refine Or.inl ⟨rfl, ?_⟩
      rw [traced]
      rfl
  | refused item message named =>
      refine Or.inr ⟨message, rfl, ?_⟩
      rw [traced]
      intro event member
      rcases List.mem_cons.mp member with rfl | later
      · exact keepsItems_bump _
      · rw [List.mem_singleton.mp later]
        exact keepsItems_bump _
  | deleted id erased =>
      rw [traced]
      rfl
  | stats trace stats => trivial
  | recommended recommend now batches later slate bounded scanned drawn =>
      have copies : ∀ batch ∈ batches, copied batch ∈ call.trace := fun batch member =>
        within _ (List.mem_cons_of_mem _ (List.mem_cons_of_mem _
          (List.mem_append_left _ (List.mem_map_of_mem member))))
      simp only [slateOf, responded]
      exact current_slate schedule made copies scanned drawn
  | rejected recommend message named =>
      simp only [slateOf, responded]
      exact ⟨List.nodup_nil, fun item member => absurd member List.not_mem_nil⟩

/-- No stale, torn or duplicated item. In every interleaving of the workers, the writes
that took effect are those of accepted puts and of deletes, and every finished request
is current. -/
theorem items_current (schedule : List (Label Timestamp (Request D))) :
    (∀ event ∈ (reached config schedule).history, ∀ write, itemWrite event = some write →
      ∃ call ∈ (reached config schedule).calls, event ∈ call.trace ∧
        ((∃ item, call.request.body = .putItem item ∧ Acceptable item ∧
            write = (item.id, some item)) ∨
          ∃ id, call.request.body = .deleteItem id ∧ write = (id, none))) ∧
      ∀ index call response, (reached config schedule).calls[index]? = some call →
        call.result? = some response → Current schedule index call response := by
  refine ⟨?_, ?_⟩
  · intro event performed write written
    exact write_requested schedule performed written
  · intro index call response made finished
    exact current_of_finished schedule made finished

end Lrd.Daemon
