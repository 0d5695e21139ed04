import Lrd.Daemon.Reservations
import Lrd.Policy.ItemLog
import Mathlib.Algebra.Order.BigOperators.Group.List

/-!
# What is charged and what is returned

Any number of workers handle requests at once. A reservation is one step, so the
exposure store sees the reservations of all workers in one order, the history.
The store's counters are functions of the history, the history is made of the
traces of the calls, and the trace of a finished live recommendation charges the
slate it returned. Together: what is charged is what is returned
(`charged_exactly`), and no item is returned more often than its cap
(`returned_le_cap`).
-/

namespace Lrd.Daemon

open Foundation Common Rank Policy Cache Proto CandidateSelector ExposureStore

variable {D : Type} {config : Config D}

/-- A call of a worker. -/
abbrev WorkerCall (config : Config D) : Type := Call (steps config) (Request D) (Response D)

/-- The slate that a live recommendation has returned; nothing for any other call
and for one in flight. -/
def returned (call : WorkerCall config) : List (RankedItem D) :=
  match call.result? with
  | some response => if isLive call.request then slateOf response else []
  | none => []

/-- The reservations of one item in a history. -/
def reservationsOf (id : ItemId) (history : List (Event (steps config))) :
    List (UInt64 × Decision) :=
  history.filterMap fun event =>
    match event with
    | ⟨.reserve other now, decision⟩ =>
        if other = id then some (toMillis now, decision) else none
    | _ => none

/-- Steps that reserve nothing are not in an item's log. -/
theorem reservationsOf_quiet (id : ItemId) (history : List (Event (steps config)))
    {event : Event (steps config)} (quiet : Quiet event.op) :
    reservationsOf id (history ++ [event]) = reservationsOf id history := by
  obtain ⟨op, answer⟩ := event
  rw [reservationsOf, List.filterMap_append]
  cases op with
  | reserve other now => exact quiet.elim
  | _ => exact List.append_nil _

/-- Nor do they charge or offer anything. -/
theorem filterMap_snoc_quiet (history : List (Event (steps config)))
    (event : Event (steps config)) (quiet : Quiet event.op) :
    (history ++ [event]).filterMap charged = history.filterMap charged ∧
      (history ++ [event]).filterMap offered = history.filterMap offered := by
  simp only [List.filterMap_append, List.filterMap_cons, List.filterMap_nil, charged_quiet quiet,
    offered_quiet quiet, List.append_nil, and_self]

/-- What a reservation charges and offers. -/
theorem filterMap_snoc_reserve (history : List (Event (steps config))) (id : ItemId)
    (now : Timestamp) (decision : Decision) :
    (history ++ [(⟨.reserve id now, decision⟩ : Event (steps config))]).filterMap charged =
        history.filterMap charged ++ (if decision = .allowed then [id] else []) ∧
      (history ++ [(⟨.reserve id now, decision⟩ : Event (steps config))]).filterMap offered =
        history.filterMap offered ++ [id] := by
  refine ⟨?_, List.filterMap_append⟩
  rw [List.filterMap_append]
  by_cases allowed : decision = .allowed
  · rw [if_pos allowed, allowed]
    rfl
  · have spared : charged (⟨.reserve id now, decision⟩ : Event (steps config)) = none :=
      if_neg allowed
    rw [if_neg allowed, List.filterMap_cons_none spared, List.filterMap_nil]

/-- A reservation is in the log of its own item. -/
theorem reservationsOf_reserve (id other : ItemId) (history : List (Event (steps config)))
    (now : Timestamp) (decision : Decision) :
    reservationsOf id (history ++ [(⟨.reserve other now, decision⟩ : Event (steps config))]) =
      if other = id then reservationsOf id history ++ [(toMillis now, decision)]
      else reservationsOf id history := by
  rw [reservationsOf, List.filterMap_append]
  by_cases same : other = id
  · simp only [same, ↓reduceIte, List.filterMap_cons, List.filterMap_nil]
    rfl
  · simp only [same, ↓reduceIte, List.filterMap_cons, List.filterMap_nil, List.append_nil]
    rfl

/-- The allowed reservations of an item are its charges. -/
theorem allowedIn_reservationsOf (id : ItemId) (history : List (Event (steps config))) :
    allowedIn (reservationsOf id history) = (history.filterMap charged).count id := by
  induction history using List.reverseRecOn with
  | nil => rfl
  | append_singleton history event ih =>
      obtain ⟨op, answer⟩ := event
      rcases quiet_or_reserve op with quiet | ⟨other, now, rfl⟩
      · rw [reservationsOf_quiet id history quiet, (filterMap_snoc_quiet history _ quiet).1, ih]
      · rw [(filterMap_snoc_reserve history other now answer).1, List.count_append, ← ih,
          reservationsOf_reserve]
        by_cases same : other = id
        · rw [if_pos same, allowedIn_snoc, same]
          split
          · rw [List.count_singleton_self]
          · rfl
        · rw [if_neg same]
          split
          · rw [List.count_singleton, beq_false_of_ne same, if_neg Bool.false_ne_true, Nat.add_zero]
          · rfl

variable [Scalar D]

/-! ## The calls of a run -/

/-- Steps that reserve nothing leave the policy store. -/
theorem perform_policy (now : Timestamp) {op : Op config} (quiet : Quiet op)
    (state : State config) : (perform now op state).2.policy = state.policy := by
  cases op with
  | reserve id instant => exact quiet.elim
  | _ => rfl

section Calls

variable {schedule : List (Label Timestamp (Request D))} {call : WorkerCall config}

/-- A finished call has been charged for what it returned. -/
theorem charged_of_finished
    (member : call ∈ (reached config schedule).calls)
    (finished : call.result?.isSome) :
    call.trace.filterMap charged = (returned call).map RankedItem.id ∧
      (call.trace.filterMap offered).Nodup := by
  obtain ⟨response, result⟩ := Option.isSome_iff_exists.mp finished
  have consistent : ∀ event ∈ call.trace, Consistent event :=
    System.run_trace_forall consistent_perform schedule call member
  cases live : isLive call.request with
  | true =>
      have accounted := System.run_traced _ schedule member result (traces_handle live)
      refine ⟨?_, accounted.once consistent⟩
      rw [accounted.returned]
      simp only [returned, result, live, ↓reduceIte]
  | false =>
      obtain ⟨nothingCharged, nothingOffered⟩ :=
        filterMap_quiet (System.run_uses _ schedule member (uses_handle live))
      simp only [returned, result, live, Bool.false_eq_true, ↓reduceIte, nothingCharged,
        nothingOffered, List.map_nil, List.nodup_nil, and_self]

omit [Scalar D] in
/-- A call in flight has returned nothing. -/
theorem returned_of_unfinished (unfinished : call.result? = none) : returned call = [] := by
  simp only [returned, unfinished]

end Calls

/-! ## The store and the history -/

/-- The counters of a store that has seen the reservations of a history. -/
structure Tallied (state : State config) (history : List (Event (steps config))) : Prop where
  allowed : state.policy.allowed = UInt64.ofNat (history.filterMap charged).length
  decisions : state.policy.decisions = UInt64.ofNat (history.filterMap offered).length

/-- Every step keeps the tally. -/
theorem Tallied.perform {state : State config} {history : List (Event (steps config))}
    (tallied : Tallied state history) (now : Timestamp) (op : Op config) :
    Tallied (Daemon.perform now op state).2
      (history ++ [⟨op, (Daemon.perform now op state).1⟩]) := by
  rcases quiet_or_reserve op with quiet | ⟨id, instant, rfl⟩
  · obtain ⟨sameCharged, sameOffered⟩ := filterMap_snoc_quiet history
      ⟨op, (Daemon.perform now op state).1⟩ quiet
    refine ⟨?_, ?_⟩
    · rw [perform_policy now quiet, sameCharged, tallied.allowed]
    · rw [perform_policy now quiet, sameOffered, tallied.decisions]
  · obtain ⟨moreCharged, moreOffered⟩ := filterMap_snoc_reserve history id instant
      (state.policy.reserve D id instant).1
    refine ⟨?_, ?_⟩
    · change (state.policy.reserve D id instant).2.allowed =
        UInt64.ofNat (List.filterMap charged (history ++
          [⟨.reserve id instant, (state.policy.reserve D id instant).1⟩])).length
      rw [(reserve_counters D state.policy id instant).1, tallied.allowed, ← ofNat_add_ite,
        moreCharged, List.length_append, apply_ite List.length]
      rfl
    · change (state.policy.reserve D id instant).2.decisions =
        UInt64.ofNat (List.filterMap offered (history ++
          [⟨.reserve id instant, (state.policy.reserve D id instant).1⟩])).length
      rw [reserve_decisions D, tallied.decisions, moreOffered, List.length_append]
      exact (UInt64.ofNat_add _ 1).symm

/-- The decisions counted by the store are those of the history. -/
theorem run_tallied (schedule : List (Label Timestamp (Request D))) :
    Tallied (reached config schedule).state
      (reached config schedule).history :=
  System.run_history_invariant Tallied ⟨rfl, rfl⟩
    (fun now op _ _ tallied => tallied.perform now op) schedule

/-- The reservations of an item in a history are what the store's counters of the
item come from. -/
def Logged (condition : Entry → UInt64 → Prop) (id : ItemId) (state : State config)
    (history : List (Event (steps config))) : Prop :=
  ItemLog D config.policy.config condition (reservationsOf id history) (state.policy.entryOf id)

theorem Logged.initial (condition : Entry → UInt64 → Prop) (id : ItemId) :
    Logged condition id (State.initial config) [] := by
  unfold Logged
  exact ItemLog.start

/-- A step keeps the counters of an item. -/
def KeepsItem (id : ItemId) (state : State config) (now : Timestamp) (op : Op config) : Prop :=
  (state.policy.entryOf id).isSome → ((perform now op state).2.policy.entryOf id).isSome

/-- A step that keeps an item's counters keeps them in line with the history. -/
theorem Logged.perform {condition : Entry → UInt64 → Prop} {id : ItemId} {state : State config}
    {history : List (Event (steps config))} (logged : Logged condition id state history)
    {now : Timestamp} {op : Op config} (keeps : KeepsItem id state now op)
    (meets : ∀ instant entry, op = .reserve id instant → state.policy.entryOf id = some entry →
      condition entry (toMillis instant)) :
    Logged condition id (Daemon.perform now op state).2
      (history ++ [⟨op, (Daemon.perform now op state).1⟩]) := by
  unfold Logged at *
  rcases quiet_or_reserve op with quiet | ⟨other, instant, rfl⟩
  · rw [reservationsOf_quiet id history quiet, perform_policy now quiet]
    exact logged
  · change ItemLog _ _ _ (reservationsOf id (history ++ [⟨.reserve other instant, _⟩]))
      ((state.policy.reserve D other instant).2.entryOf id)
    rw [reservationsOf_reserve]
    by_cases same : other = id
    · subst same
      rw [if_pos rfl]
      exact itemLog_reserve logged instant fun entry tracked => meets instant entry rfl tracked
    · rw [if_neg same]
      rcases reserve_other D state.policy (Ne.symm same) instant with unchanged | dropped
      · rw [unchanged]
        exact logged
      · cases tracked : state.policy.entryOf id with
        | none => rwa [dropped, ← tracked]
        | some entry =>
            have kept : ((state.policy.reserve D other instant).2.entryOf id).isSome :=
              keeps (Option.isSome_of_eq_some tracked)
            rw [dropped] at kept
            cases kept

/-- A fail-closed store keeps the counters of every item. -/
theorem keeps_of_closed (closed : config.policy.config.failOpenWhenFull = false) (id : ItemId)
    (state : State config) (now : Timestamp) (op : Op config) : KeepsItem id state now op := by
  intro tracked
  rcases quiet_or_reserve op with quiet | ⟨other, instant, rfl⟩
  · rw [perform_policy now quiet]
    exact tracked
  · change ((state.policy.reserve D other instant).2.entryOf id).isSome
    by_cases same : other = id
    · subst same
      obtain ⟨entry, present⟩ := Option.isSome_iff_exists.mp tracked
      rw [(reserve_tracked D present instant).2.self]
      rfl
    · rw [reserve_others D closed state.policy (Ne.symm same) instant]
      exact tracked

/-- The log of an item in every run, where the store fails closed. -/
theorem run_logged (closed : config.policy.config.failOpenWhenFull = false) (id : ItemId)
    (schedule : List (Label Timestamp (Request D))) :
    Logged (fun _ _ => True) id (reached config schedule).state
      (reached config schedule).history :=
  System.run_history_invariant (Logged (fun _ _ => True) id) (Logged.initial _ id)
    (fun now op state _ logged =>
      logged.perform (keeps_of_closed closed id state now op) fun _ _ _ _ => trivial) schedule

/-! ## Totals -/

/-- The history charges an item as often as the calls do. -/
theorem count_charged (id : ItemId) (schedule : List (Label Timestamp (Request D))) :
    let system := reached config schedule
    (system.history.filterMap charged).count id =
      (system.calls.map fun call => (call.trace.filterMap charged).count id).sum := by
  simp only [List.count_filterMap]
  exact System.countP_history _ schedule _

/-- No item is returned more often than its lifetime cap, in any interleaving. -/
theorem returned_le_cap (closed : config.policy.config.failOpenWhenFull = false)
    (capped : 0 < config.policy.config.exposureCap) (id : ItemId)
    (schedule : List (Label Timestamp (Request D))) :
    let system := reached config schedule
    (system.calls.map fun call => ((returned call).map RankedItem.id).count id).sum ≤
      config.policy.config.exposureCap.toNat := by
  intro system
  have perCall : ∀ call ∈ system.calls, ((returned call).map RankedItem.id).count id ≤
      (call.trace.filterMap charged).count id := by
    intro call member
    cases result : call.result? with
    | none =>
        rw [returned_of_unfinished result]
        exact Nat.zero_le _
    | some response =>
        rw [(charged_of_finished member (Option.isSome_of_eq_some result)).1]
  calc (system.calls.map fun call => ((returned call).map RankedItem.id).count id).sum
      ≤ (system.calls.map fun call => (call.trace.filterMap charged).count id).sum :=
        List.sum_le_sum perCall
    _ = (system.history.filterMap charged).count id := (count_charged id schedule).symm
    _ = allowedIn (reservationsOf id system.history) := (allowedIn_reservationsOf id _).symm
    _ ≤ config.policy.config.exposureCap.toNat :=
        ItemLog.allowedIn_le_cap (run_logged closed id schedule) capped

theorem returned_le_cap_one :
    let system := served (oneShard { exposureCap := 1 } (by decide))
      [publishing 1 1, asking 1, asking 1]
    (system.calls.map fun call => ((returned call).map RankedItem.id).count 1).sum = 1 ∧
      (system.calls.map fun call => ((returned call).map RankedItem.id).count 1).sum ≤ 1 :=
  ⟨by decide +kernel, returned_le_cap (by decide) (by decide) 1 _⟩

omit [Scalar D] in
/-- Every charged item was offered. -/
theorem charged_sublist_offered (trace : List (Event (steps config))) :
    (trace.filterMap charged).Sublist (trace.filterMap offered) := by
  induction trace with
  | nil => exact List.Sublist.slnil
  | cons event trace ih =>
      obtain ⟨op, answer⟩ := event
      rcases quiet_or_reserve op with quiet | ⟨id, now, rfl⟩
      · rw [List.filterMap_cons_none (charged_quiet quiet),
          List.filterMap_cons_none (offered_quiet quiet)]
        exact ih
      · rw [List.filterMap_cons_some (show offered _ = some id from rfl), List.filterMap_cons]
        by_cases allowed : answer = Decision.allowed
        · simp only [charged, allowed, ↓reduceIte]
          exact ih.cons_cons id
        · simp only [charged, allowed, ↓reduceIte]
          exact ih.cons id

section Quiescent

variable {schedule : List (Label Timestamp (Request D))}

/-- What was charged was returned, once all calls have returned. -/
theorem length_charged (quiescent : (reached config schedule).Quiescent) :
    ((reached config schedule).history.filterMap charged).length =
      ((reached config schedule).calls.map fun call => (returned call).length).sum := by
  rw [List.length_filterMap_eq_countP, System.countP_history]
  refine congrArg List.sum (List.map_congr_left fun call member => ?_)
  rw [← List.length_filterMap_eq_countP, (charged_of_finished member (quiescent call member)).1,
    List.length_map]

/-- What was offered was offered by some call. -/
theorem length_offered :
    ((reached config schedule).history.filterMap offered).length =
      ((reached config schedule).calls.map fun call =>
        (call.trace.filterMap offered).length).sum := by
  simp only [List.length_filterMap_eq_countP]
  exact System.countP_history _ schedule _

/-- A sum of ones is a count. -/
theorem sum_indicator {α : Type} (values : List α) (holds : α → Bool) :
    (values.map fun value => if holds value then 1 else 0).sum = values.countP holds := by
  induction values with
  | nil => rfl
  | cons value values ih =>
      rw [List.map_cons, List.sum_cons, ih, List.countP_cons, Nat.add_comm]

/-- When nothing is in flight, an item has been charged once for every slate that
contains it. -/
theorem count_charged_quiescent (id : ItemId) (quiescent : (reached config schedule).Quiescent) :
    ((reached config schedule).history.filterMap charged).count id =
      (reached config schedule).calls.countP fun call =>
        id ∈ (returned call).map RankedItem.id := by
  have perCall : ∀ call ∈ (reached config schedule).calls,
      (call.trace.filterMap charged).count id =
        if decide (id ∈ (returned call).map RankedItem.id) then 1 else 0 := by
    intro call member
    obtain ⟨same, once⟩ := charged_of_finished member (quiescent call member)
    rw [(once.sublist (charged_sublist_offered call.trace)).count, same]
    simp only [decide_eq_true_eq]
  rw [count_charged id schedule, List.map_congr_left perCall, sum_indicator]

/-- The lifetime counter of an item, zero for one that is not tracked. -/
def lifetimeShows (state : State config) (id : ItemId) : UInt64 :=
  ((state.policy.entryOf id).map Entry.lifetimeShows).getD 0

/-- The lifetime count of an item counts its charges. -/
theorem lifetimeShows_eq (closed : config.policy.config.failOpenWhenFull = false) (id : ItemId) :
    lifetimeShows (reached config schedule).state id =
      UInt64.ofNat (((reached config schedule).history.filterMap charged).count id) := by
  have logged : ItemLog D config.policy.config _ _ _ := run_logged closed id schedule
  rw [← allowedIn_reservationsOf, lifetimeShows]
  cases tracked : (reached config schedule).state.policy.entryOf id with
  | none =>
      rw [tracked] at logged
      rw [logged.untracked]
      rfl
  | some entry =>
      rw [tracked] at logged
      rw [← logged.lifetimeShows]
      rfl

end Quiescent

/-- A step of a request that is not a live recommendation leaves the exposure store
alone. -/
theorem step_policy {schedule : List (Label Timestamp (Request D))} {index : Nat}
    {call : WorkerCall config} (found : (reached config schedule).calls[index]? = some call)
    (other : isLive call.request = false) (now : Timestamp) :
    ((reached config schedule).step (workers config) (.advance index now)).state.policy =
      (reached config schedule).state.policy := by
  have follows := System.run_follows _ schedule call (List.mem_of_getElem? found)
  have quiet := ((uses_handle other).of_follows follows).2
  obtain ⟨request, trace, rest⟩ := call
  cases rest with
  | done response => simp only [System.step, found]
  | perform op next =>
      simp only [System.step, found]
      exact perform_policy now quiet.1 _

/-- What is charged is exactly what is returned. The store's counters are 64-bit
machine words. -/
theorem charged_exactly (config : Config D) (schedule : List (Label Timestamp (Request D))) :
    let system := reached config schedule
    let policy := system.state.policy
    (system.Quiescent →
      policy.allowed = UInt64.ofNat (system.calls.map fun call => (returned call).length).sum ∧
      policy.allowed + policy.exposureBlocked + policy.frequencyBlocked +
          policy.storeFullBlocked =
        UInt64.ofNat (system.calls.map fun call => (call.trace.filterMap offered).length).sum ∧
      (∀ call ∈ system.calls, (call.trace.filterMap offered).Nodup) ∧
      (config.policy.config.failOpenWhenFull = false → ∀ id, lifetimeShows system.state id =
        UInt64.ofNat (system.calls.countP fun call =>
          id ∈ (returned call).map RankedItem.id))) ∧
    ∀ index call, system.calls[index]? = some call → isLive call.request = false →
      ∀ now, (system.step (workers config) (.advance index now)).state.policy = policy := by
  intro system policy
  refine ⟨fun quiescent => ⟨?_, ?_, ?_, ?_⟩, ?_⟩
  · rw [← length_charged quiescent]
    exact (run_tallied schedule).allowed
  · rw [← length_offered]
    exact (run_tallied schedule).decisions
  · exact fun call member => (charged_of_finished member (quiescent call member)).2
  · intro closed id
    rw [← count_charged_quiescent id quiescent]
    exact lifetimeShows_eq closed id
  · exact fun index call found other now => step_policy found other now

theorem charged_exactly_two :
    let system := served (oneShard { exposureCap := 1 } (by decide))
      [publishing 1 2, publishing 2 1, asking 1, asking 2]
    system.state.policy.allowed = 2 ∧ system.state.policy.exposureBlocked = 1 ∧
      system.state.policy.allowed =
        UInt64.ofNat (system.calls.map fun call => (returned call).length).sum :=
  ⟨by decide +kernel, by decide +kernel, ((charged_exactly (oneShard { exposureCap := 1 }
    (by decide)) _).1 (by decide +kernel)).1⟩

end Lrd.Daemon
