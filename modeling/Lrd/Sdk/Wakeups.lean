import Lrd.Foundation.Condition
import Lrd.Sdk.Pool

/-!
# Waiting for a connection

A device with the condition variable `available` of each client's pool. `invoke` looks for
an idle connection or for room under the mutex and, finding neither, goes to sleep in the
same step. It wakes when it is notified, for no reason, or because `acquire_timeout` has
passed, and then looks again, perhaps after others have taken what it was woken for.
`~PooledConnection` and a connection that could not be opened give something back and
notify one sleeper, still under the mutex.

Such a device does nothing that the device without the condition variable could not do
(`Waiting.refines`), and nobody sleeps while a connection could be had
(`no_caller_sleeps_on_a_connection`).
-/

namespace Lrd.Sdk

open Foundation Rank Proto Daemon Lrd.Client Lrd.Client.World

variable {D : Type} [Double D] {config : Config D}

/-- What the wait in `invoke` waits for. -/
def ready (client : ClientConfig) (pool : Pool) : Bool :=
  !pool.idle.isEmpty || pool.total < client.maxConnections

/-- Whether an invocation waits for a connection. -/
def Phase.isAcquiring : Phase D → Bool
  | .acquiring => true
  | _ => false

/-- Whether an invocation opens a connection. -/
def Phase.isOpening : Phase D → Bool
  | .opening => true
  | _ => false

/-- Whether an invocation gives a connection back. -/
def Phase.isReleasing : Phase D → Bool
  | .releasing _ _ => true
  | _ => false

/-- An invocation with its client. -/
def Device.find (device : Device config) (number invocation : Nat) :
    Option (Client D × Invocation D) := do
  let client ← device.clients[number]?
  let run ← client.invocations[invocation]?
  return (client, run)

/-- What `invoke` does under the mutex. -/
def Action.underMutex : Action → Bool
  | .acquire | .timeOut | .openFails _ | .release => true
  | _ => false

/-- Whether a step is taken under the mutex. -/
def DeviceLabel.underMutex : DeviceLabel D → Bool
  | .act _ _ action => action.underMutex
  | _ => false

/-- A device, and who waits for each of its clients' pools. -/
structure Waiting (config : Config D) where
  device : Device config
  available : Nat → Condition Nat

/-- What happens outside the mutexes, and what `invoke` does under them. The sleeper that a
notification wakes is the platform's choice. -/
inductive WaitingLabel (D : Type) where
  | outside (label : DeviceLabel D)
  | look (client invocation : Nat)
  | spurious (client invocation : Nat)
  | expire (client invocation : Nat)
  | openFails (client invocation : Nat) (failure : OpenFailure) (choice : Nat)
  | release (client invocation choice : Nat)

namespace Waiting

omit [Double D] in
/-- A first device, and nobody waits. -/
def initial (config : Config D) : Waiting config := ⟨Device.initial config, fun _ => .nobody⟩

/-- Something happens to those who wait for a client's pool. -/
def alter (state : Waiting config) (number : Nat) (change : Condition Nat → Condition Nat) :
    Waiting config :=
  { state with
    available := Function.update state.available number (change (state.available number)) }

/-- An invocation acts, and something happens to those who wait for its client's pool. -/
def act (state : Waiting config) (number invocation : Nat) (action : Action)
    (change : Condition Nat → Condition Nat) : Waiting config :=
  { state.alter number change with device := state.device.act number invocation action }

/-- One turn of the wait. -/
def look (state : Waiting config) (number invocation : Nat) : Waiting config :=
  match state.device.find number invocation with
  | none => state
  | some (client, run) =>
      if run.phase.isAcquiring = false ∨ invocation ∈ (state.available number).asleep then state
      else if ready client.config client.pool then
        state.act number invocation .acquire (·.leave invocation)
      else if (invocation, true) ∈ (state.available number).woken then
        state.act number invocation .timeOut (·.leave invocation)
      else state.alter number (·.sleep invocation)

/-- What a step does; whoever waits takes the mutex again before looking. -/
def step (state : Waiting config) : WaitingLabel D → Waiting config
  | .outside label =>
      if label.underMutex then state else { state with device := state.device.step label }
  | .look number invocation => state.look number invocation
  | .spurious number invocation => state.alter number (·.wake invocation false)
  | .expire number invocation => state.alter number (·.wake invocation true)
  | .openFails number invocation failure choice =>
      match state.device.find number invocation with
      | some (_, run) =>
          if run.phase.isOpening then
            state.act number invocation (.openFails failure) (·.notifyOne choice)
          else state
      | none => state
  | .release number invocation choice =>
      match state.device.find number invocation with
      | some (_, run) =>
          if run.phase.isReleasing then
            state.act number invocation .release (·.notifyOne choice)
          else state
      | none => state

/-- The state after some steps. -/
def run (config : Config D) (labels : List (WaitingLabel D)) : Waiting config :=
  labels.foldl step (initial config)

theorem run_snoc (labels : List (WaitingLabel D)) (label : WaitingLabel D) :
    run config (labels ++ [label]) = (run config labels).step label :=
  List.foldl_append ..

end Waiting

/-! ## Places -/

variable {device : Device config} {label : Option (WorldLabel D)} {changed : Invocation D}
  {action : Action} {pool : Pool} {number : Nat}

section Places

omit [Double D]

/-- How many invocations could be given a connection or a slot at once. -/
def Client.free (client : Client D) : Nat :=
  client.pool.idle.length + (client.config.maxConnections.toNat - client.pool.total.toNat)

/-- There is something to take exactly if something is free. -/
theorem ready_iff (client : Client D) : ready client.config client.pool = true ↔ 0 < client.free := by
  rw [ready, Client.free, Bool.or_eq_true, Bool.not_eq_true', decide_eq_true_eq,
    UInt64.lt_iff_toNat_lt, List.isEmpty_eq_false_iff, ← List.length_pos_iff]
  omega

/-- Where an invocation is found. -/
theorem Device.find_eq_some {number invocation : Nat} {client : Client D} {run : Invocation D} :
    device.find number invocation = some (client, run) ↔
      device.clients[number]? = some client ∧ client.invocations[invocation]? = some run := by
  simp only [Device.find, Option.bind_eq_bind, Option.bind_eq_some_iff, Option.pure_def,
    Option.some.injEq, Prod.mk.injEq]
  constructor
  · rintro ⟨_, found, _, made, rfl, rfl⟩
    exact ⟨found, made⟩
  · intro ⟨found, made⟩
    exact ⟨client, found, run, made, rfl, rfl⟩

/-- Who waits is in that phase. -/
theorem Phase.eq_acquiring {phase : Phase D} (acquiring : phase.isAcquiring = true) :
    phase = .acquiring := by
  cases phase with
  | acquiring => rfl
  | _ => cases acquiring

end Places

/-- What an action leaves of its client. -/
theorem Device.act_eq {number invocation : Nat} {client : Client D} {run : Invocation D}
    (found : device.find number invocation = some (client, run))
    (acted : Sdk.act device.world client.config client.pool run run.phase action =
      some (pool, changed, label)) :
    device.act number invocation action =
      device.replace (label.elim device.world device.world.step) number
        (client.replace pool invocation changed) := by
  obtain ⟨inDevice, inClient⟩ := Device.find_eq_some.mp found
  simp only [Device.act, inDevice, inClient, acted]

section Actions

variable {client : Client D} {invocation : Nat} {run : Invocation D} (world : World config)

/-- Looking takes a place if one is free. -/
theorem act_acquire (acquiring : run.phase = .acquiring)
    (free : ready client.config client.pool = true) (counted : client.Counted) :
    ∃ pool changed, act world client.config client.pool run run.phase .acquire =
        some (pool, changed, none) ∧
      (client.replace pool invocation changed).free + 1 = client.free := by
  have bounded := counted.bounded
  rw [acquiring, act]
  cases idle : client.pool.idle with
  | cons link rest =>
      refine ⟨_, _, rfl, ?_⟩
      simp only [Client.free, Client.replace, idle, List.length_cons]
      omega
  | nil =>
      rw [ready, idle] at free
      have room : client.pool.total < client.config.maxConnections := of_decide_eq_true free
      have total := toNat_succ_of_lt room
      have below := UInt64.lt_iff_toNat_lt.mp room
      refine ⟨_, _, if_pos room, ?_⟩
      simp only [Client.free, Client.replace, idle, List.length_nil, total]
      omega

/-- A wait that times out finds nothing to take. -/
theorem act_timeOut (acquiring : run.phase = .acquiring)
    (full : ready client.config client.pool = false) :
    ∃ changed, act world client.config client.pool run run.phase .timeOut =
      some (client.pool, changed, none) := by
  rw [ready, Bool.or_eq_false_iff, Bool.not_eq_false', List.isEmpty_iff, decide_eq_false_iff_not]
    at full
  rw [acquiring, act]
  exact ⟨_, if_pos full⟩

omit [Double D] in
/-- A slot that is given back is free. -/
theorem free_decrement (counted : client.Counted) (made : run ∈ client.invocations)
    (busy : run.phase.isBusy = true) (changed : Invocation D) :
    (client.replace { client.pool with total := client.pool.total - 1 } invocation changed).free =
      client.free + 1 := by
  have less := counted.decrement made busy
  have bounded := counted.bounded
  simp only [Client.free, Client.replace]
  omega

/-- A connection that cannot be opened frees its slot. -/
theorem act_openFails (opening : run.phase = .opening) (counted : client.Counted)
    (made : run ∈ client.invocations) (failure : OpenFailure) :
    ∃ pool changed, act world client.config client.pool run run.phase (.openFails failure) =
        some (pool, changed, none) ∧
      (client.replace pool invocation changed).free = client.free + 1 := by
  have busy : run.phase.isBusy = true := by rw [opening]; rfl
  refine ⟨_, _, by rw [opening, act], free_decrement counted made busy _⟩

/-- A connection that is given back is idle or frees its slot. -/
theorem act_release (releasing : run.phase.isReleasing = true) (counted : client.Counted)
    (made : run ∈ client.invocations) :
    ∃ pool changed label, act world client.config client.pool run run.phase .release =
        some (pool, changed, label) ∧
      (client.replace pool invocation changed).free = client.free + 1 := by
  cases phase : run.phase with
  | releasing link called =>
      have busy : run.phase.isBusy = true := by rw [phase]; rfl
      rw [act]
      split
      · refine ⟨_, _, _, rfl, ?_⟩
        simp only [Client.free, Client.replace, Pool.release, if_true, List.length_cons]
        omega
      · exact ⟨_, _, _, rfl, free_decrement counted made busy _⟩
  | _ =>
      rw [phase] at releasing
      cases releasing

/-- What is done outside the mutex leaves the pool alone and is no wait. -/
theorem act_outside (free : action.underMutex = false)
    (acted : act world client.config client.pool run run.phase action = some (pool, changed,
      label)) :
    pool = client.pool ∧ run.phase ≠ .acquiring := by
  unfold act at acted
  split at acted
  · cases free
  · cases free
  · rename_i opening
    cases acted
    exact ⟨rfl, fun acquiring => by rw [opening] at acquiring; cases acquiring⟩
  · cases free
  · rename_i link holding
    have other : run.phase ≠ .acquiring := fun acquiring => by
      rw [holding] at acquiring
      cases acquiring
    split at acted
    · cases acted
      exact ⟨rfl, other⟩
    · cases acted
      exact ⟨rfl, other⟩
  · rename_i link calling
    split at acted
    · cases acted
      exact ⟨rfl, fun acquiring => by rw [calling] at acquiring; cases acquiring⟩
    · cases acted
  · cases free
  · cases acted

end Actions

omit [Double D] in
/-- An invocation stays as it is when another one acts. -/
theorem find_replaced {number invocation : Nat} {client : Client D}
    (inDevice : device.clients[number]? = some client) {other waiter : Nat} {owner : Client D}
    {waiting : Invocation D} (inside : device.find other waiter = some (owner, waiting))
    (different : other = number → waiter ≠ invocation) (world : World config) (pool : Pool)
    (changed : Invocation D) :
    ∃ client', (device.replace world number (client.replace pool invocation changed)).find other
      waiter = some (client', waiting) := by
  obtain ⟨hasOwner, hasWaiting⟩ := Device.find_eq_some.mp inside
  by_cases same : number = other
  · subst same
    obtain rfl : client = owner := Option.some.inj (inDevice.symm.trans hasOwner)
    obtain ⟨bound, _⟩ := List.getElem?_eq_some_iff.mp inDevice
    refine ⟨client.replace pool invocation changed, Device.find_eq_some.mpr ⟨?_, ?_⟩⟩
    · exact List.getElem?_set_self bound
    · exact (List.getElem?_set_ne (Ne.symm (different rfl))).trans hasWaiting
  · exact ⟨owner, Device.find_eq_some.mpr ⟨(List.getElem?_set_ne same).trans hasOwner, hasWaiting⟩⟩

/-- A step after which every pool has as many free places as before and whoever waited for
a connection still does. Clients may be added. -/
structure Undisturbed (before after : Device config) : Prop where
  pools : ∀ (number : Nat) (client : Client D), after.clients[number]? = some client →
    before.clients[number]? = none ∨
      ∃ earlier : Client D, before.clients[number]? = some earlier ∧ client.free = earlier.free
  waits : ∀ number invocation client run, before.find number invocation = some (client, run) →
    run.phase = .acquiring → ∃ later, after.find number invocation = some (later, run)

omit [Double D] in
/-- Where the clients are the same nobody is disturbed. -/
theorem undisturbed_of_clients {before after : Device config}
    (same : after.clients = before.clients) : Undisturbed before after where
  pools number client found := Or.inr ⟨client, same ▸ found, rfl⟩
  waits number invocation client run found _ := by
    refine ⟨client, ?_⟩
    rw [Device.find_eq_some] at found ⊢
    rw [same]
    exact found

omit [Double D] in
/-- A client changes, but not in what its pool has free. -/
theorem undisturbed_replace {client changed : Client D}
    (found : device.clients[number]? = some client) (free : changed.free = client.free)
    (waits : ∀ (invocation : Nat) (run : Invocation D), client.invocations[invocation]? = some run →
      run.phase = .acquiring → changed.invocations[invocation]? = some run) (world : World config) :
    Undisturbed device (device.replace world number changed) where
  pools other owner hasOwner := by
    right
    by_cases same : number = other
    · subst same
      obtain ⟨bound, _⟩ := List.getElem?_eq_some_iff.mp found
      obtain rfl := Option.some.inj ((List.getElem?_set_self bound).symm.trans hasOwner)
      exact ⟨client, found, free⟩
    · exact ⟨owner, (List.getElem?_set_ne same).symm.trans hasOwner, rfl⟩
  waits other invocation owner run inside acquiring := by
    obtain ⟨hasOwner, made⟩ := Device.find_eq_some.mp inside
    by_cases same : number = other
    · subst same
      obtain rfl := Option.some.inj (found.symm.trans hasOwner)
      obtain ⟨bound, _⟩ := List.getElem?_eq_some_iff.mp found
      exact ⟨changed, Device.find_eq_some.mpr
        ⟨List.getElem?_set_self bound, waits invocation run made acquiring⟩⟩
    · exact ⟨owner, Device.find_eq_some.mpr
        ⟨(List.getElem?_set_ne same).trans hasOwner, made⟩⟩

/-- What happens outside the mutexes disturbs nobody who waits. -/
theorem undisturbed_step (device : Device config) {label : DeviceLabel D}
    (free : label.underMutex = false) : Undisturbed device (device.step label) := by
  cases label with
  | connect client =>
      simp only [Device.step]
      split
      · rename_i joined _
        refine ⟨fun number owner found => ?_, fun number invocation owner run inside _ => ?_⟩
        · rcases Nat.lt_or_ge number device.clients.length with old | new
          · exact Or.inr ⟨owner, (List.getElem?_append_left old).symm.trans found, rfl⟩
          · exact Or.inl (List.getElem?_eq_none new)
        · obtain ⟨hasOwner, made⟩ := Device.find_eq_some.mp inside
          exact ⟨owner, Device.find_eq_some.mpr ⟨found_append hasOwner _, made⟩⟩
      · exact undisturbed_of_clients rfl
  | start number operation =>
      simp only [Device.step]
      split
      · exact undisturbed_of_clients rfl
      · rename_i client found
        refine undisturbed_replace found ?_ (fun _ _ made _ => found_append made _) _
        rfl
  | act number invocation action =>
      simp only [Device.step, Device.act]
      split
      · exact undisturbed_of_clients rfl
      · rename_i client found
        split
        · exact undisturbed_of_clients rfl
        · rename_i run made
          split
          · exact undisturbed_of_clients rfl
          · rename_i pool changed own acted
            obtain ⟨same, other⟩ := act_outside device.world free acted
            refine undisturbed_replace found ?_ (fun waiter waiting has acquiring => ?_) _
            · rw [same]
              rfl
            · refine (List.getElem?_set_ne ?_).trans has
              rintro rfl
              obtain rfl := Option.some.inj (made.symm.trans has)
              exact other acquiring
  | dial => exact undisturbed_of_clients rfl
  | outside link label =>
      simp only [Device.step]
      split
      · exact undisturbed_of_clients rfl
      · exact undisturbed_of_clients rfl
  | traffic link label =>
      simp only [Device.step]
      split
      · exact undisturbed_of_clients rfl
      · exact undisturbed_of_clients rfl
  | advance ticket now => exact undisturbed_of_clients rfl
  | restart => exact undisturbed_of_clients rfl

/-! ## Nobody sleeps for nothing -/

namespace Waiting

variable {state : Waiting config}

/-- The device is one that its own steps reach, only invocations that wait for a connection
wait on the condition variable, and no notification of any pool was lost. -/
structure Watched (state : Waiting config) : Prop where
  reached : ∃ labels, state.device = Device.run config labels
  waits : ∀ number, ∀ invocation ∈ (state.available number).waiting, ∃ client run,
    state.device.find number invocation = some (client, run) ∧ run.phase = .acquiring
  attentive : ∀ (number : Nat) (client : Client D), state.device.clients[number]? = some client →
    Condition.Attentive client.free (state.available number)

theorem watched_initial : Watched (initial config) where
  reached := ⟨[], rfl⟩
  waits _ _ waiting := absurd waiting List.not_mem_nil
  attentive _ _ _ := Condition.Attentive.nobody _

/-- A client counts rightly. -/
theorem Watched.counted (watched : Watched state) {client : Client D}
    (found : state.device.clients[number]? = some client) : client.Counted := by
  obtain ⟨labels, same⟩ := watched.reached
  rw [same] at found
  exact (run_kept config labels).counted client (List.mem_of_getElem? found)

theorem reached_device (reached : ∃ labels, device = Device.run config labels)
    (label : DeviceLabel D) : ∃ labels, device.step label = Device.run config labels := by
  obtain ⟨labels, rfl⟩ := reached
  exact ⟨labels ++ [label], (Device.run_snoc labels label).symm⟩

/-- Something happens to those who wait for a pool while nothing is taken or given back. -/
theorem Watched.alter (watched : Watched state) {change : Condition Nat → Condition Nat}
    (waits : ∀ invocation ∈ (change (state.available number)).waiting, ∃ client run,
      state.device.find number invocation = some (client, run) ∧ run.phase = .acquiring)
    (attentive : ∀ client, state.device.clients[number]? = some client →
      Condition.Attentive client.free (change (state.available number))) :
    Watched (state.alter number change) where
  reached := watched.reached
  waits other := by
    by_cases same : other = number
    · subst same
      simpa only [Waiting.alter, Function.update_self] using waits
    · simpa only [Waiting.alter, Function.update_of_ne same] using watched.waits other
  attentive other := by
    by_cases same : other = number
    · subst same
      simpa only [Waiting.alter, Function.update_self] using attentive
    · simpa only [Waiting.alter, Function.update_of_ne same] using watched.attentive other

/-- An invocation acts under the mutex: those who wait for its pool afterwards are others
who did before, and what it took or gave back agrees with whom it woke. -/
theorem Watched.act (watched : Watched state) {number invocation : Nat} {client : Client D}
    {run : Invocation D} (found : state.device.find number invocation = some (client, run))
    (acted : Sdk.act state.device.world client.config client.pool run run.phase action =
      some (pool, changed, label)) {change : Condition Nat → Condition Nat}
    (others : ∀ other ∈ (change (state.available number)).waiting, other ≠ invocation ∧
      other ∈ (state.available number).waiting)
    (attentive : Condition.Attentive (client.replace pool invocation changed).free
      (change (state.available number))) :
    Watched (state.act number invocation action change) := by
  have after := Device.act_eq found acted
  obtain ⟨inDevice, inClient⟩ := Device.find_eq_some.mp found
  refine ⟨reached_device watched.reached (.act number invocation action), ?_, ?_⟩
  · intro other waiter waits
    -- Whoever waits is another invocation, and did so before.
    have before : (other = number → waiter ≠ invocation) ∧
        waiter ∈ (state.available other).waiting := by
      by_cases same : other = number
      · subst same
        simp only [Waiting.act, Waiting.alter, Function.update_self] at waits
        exact ⟨fun _ => (others waiter waits).1, (others waiter waits).2⟩
      · simp only [Waiting.act, Waiting.alter, Function.update_of_ne same] at waits
        exact ⟨fun here => absurd here same, waits⟩
    obtain ⟨owner, waiting, inside, acquiring⟩ := watched.waits other waiter before.2
    obtain ⟨changedOwner, still⟩ := find_replaced inDevice inside before.1
      (label.elim state.device.world state.device.world.step) pool changed
    refine ⟨changedOwner, waiting, ?_, acquiring⟩
    rw [Waiting.act, after]
    exact still
  · intro other owner hasOwner
    rw [Waiting.act, after, Device.replace] at hasOwner
    by_cases same : number = other
    · subst same
      obtain ⟨bound, _⟩ := List.getElem?_eq_some_iff.mp inDevice
      obtain rfl := Option.some.inj ((List.getElem?_set_self bound).symm.trans hasOwner)
      simpa only [Waiting.act, Waiting.alter, Function.update_self] using attentive
    · rw [List.getElem?_set_ne same] at hasOwner
      simpa only [Waiting.act, Waiting.alter, Function.update_of_ne (Ne.symm same)] using
        watched.attentive other owner hasOwner

/-- A step outside the mutex keeps the watch. -/
theorem Watched.outside (watched : Watched state) {label : DeviceLabel D}
    (free : label.underMutex = false) :
    Watched { state with device := state.device.step label } := by
  have undisturbed := undisturbed_step state.device free
  refine ⟨reached_device watched.reached label, ?_, ?_⟩
  · intro number invocation waiting
    obtain ⟨client, run, found, acquiring⟩ := watched.waits number invocation waiting
    obtain ⟨later, still⟩ := undisturbed.waits number invocation client run found acquiring
    exact ⟨later, run, still, acquiring⟩
  · intro number client found
    rcases undisturbed.pools number client found with new | ⟨earlier, old, same⟩
    · -- Nobody waits for the pool of a client that has just connected.
      have nobody : ∀ invocation, invocation ∉ (state.available number).waiting := by
        intro invocation waiting
        obtain ⟨owner, run, inside, _⟩ := watched.waits number invocation waiting
        rw [(Device.find_eq_some.mp inside).1] at new
        cases new
      exact Condition.Attentive.of_nobody nobody
    · rw [same]
      exact watched.attentive number earlier old

/-- Waking somebody keeps the watch. -/
theorem Watched.wake (watched : Watched state) (number invocation : Nat) (late : Bool) :
    Watched (state.alter number (·.wake invocation late)) := by
  refine watched.alter (fun waiter waits => ?_) (fun client found => ?_)
  · exact watched.waits number waiter ((Condition.waiting_wake ..).mem_iff.mp waits)
  · exact (watched.attentive number client found).wake invocation late

/-- Giving something back wakes one of those who wait, if any does. -/
theorem Watched.giveBack (watched : Watched state) {number invocation : Nat} {client : Client D}
    {run : Invocation D} (found : state.device.find number invocation = some (client, run))
    (busy : run.phase ≠ .acquiring)
    (acted : Sdk.act state.device.world client.config client.pool run run.phase action =
      some (pool, changed, label))
    (more : (client.replace pool invocation changed).free = client.free + 1) (choice : Nat) :
    Watched (state.act number invocation action (·.notifyOne choice)) := by
  refine watched.act found acted (fun waiter waits => ?_) ?_
  · have before := (Condition.waiting_notifyOne ..).mem_iff.mp waits
    refine ⟨?_, before⟩
    rintro rfl
    obtain ⟨_, waiting, inside, acquiring⟩ := watched.waits number waiter before
    obtain ⟨_, rfl⟩ := Prod.mk.inj (Option.some.inj (found.symm.trans inside))
    exact busy acquiring
  · rw [more]
    exact (watched.attentive number client (Device.find_eq_some.mp found).1).notifyOne choice

/-- A look keeps the watch. -/
theorem Watched.look (watched : Watched state) (number invocation : Nat) :
    Watched (state.look number invocation) := by
  unfold Waiting.look
  split
  · exact watched
  · rename_i client run found
    have inDevice := (Device.find_eq_some.mp found).1
    have attentive := watched.attentive number client inDevice
    split
    · exact watched
    · rename_i awake
      rw [not_or, Bool.not_eq_false] at awake
      have acquiring := Phase.eq_acquiring awake.1
      -- Who has looked does not wait any more.
      have left : ∀ other ∈ ((state.available number).leave invocation).waiting,
          other ≠ invocation ∧ other ∈ (state.available number).waiting := by
        intro other waits
        refine ⟨?_, (Condition.waiting_leave ..).subset waits⟩
        rintro rfl
        exact Condition.not_waiting_leave attentive.distinct awake.2 waits
      split
      · rename_i free
        obtain ⟨pool, changed, acted, less⟩ :=
          act_acquire state.device.world acquiring free (watched.counted inDevice)
        refine watched.act found acted left ?_
        rw [← less] at attentive
        exact attentive.take invocation
      · rename_i full
        have none : client.free = 0 :=
          Nat.eq_zero_of_not_pos fun some => full ((ready_iff client).mpr some)
        rw [none] at attentive
        split
        · obtain ⟨changed, acted⟩ :=
            act_timeOut state.device.world acquiring (Bool.eq_false_iff.mpr full)
          refine watched.act found acted left ?_
          rw [show (client.replace client.pool invocation changed).free = 0 from none]
          exact attentive.giveUp invocation
        · refine watched.alter (fun waiter waits => ?_) fun owner hasOwner => ?_
          · rcases List.mem_cons.mp waits with rfl | before
            · exact ⟨client, run, found, acquiring⟩
            · exact watched.waits number waiter (left waiter before).2
          · obtain rfl := Option.some.inj (inDevice.symm.trans hasOwner)
            rw [none]
            exact attentive.sleep awake.2

/-- Every step keeps the watch. -/
theorem Watched.step (watched : Watched state) (label : WaitingLabel D) :
    Watched (state.step label) := by
  cases label with
  | outside label =>
      simp only [Waiting.step]
      split
      · exact watched
      · rename_i free
        exact watched.outside (Bool.eq_false_iff.mpr free)
  | look number invocation => exact watched.look number invocation
  | spurious number invocation => exact watched.wake number invocation false
  | expire number invocation => exact watched.wake number invocation true
  | openFails number invocation failure choice =>
      simp only [Waiting.step]
      split
      · rename_i client run found
        split
        · rename_i opening
          have phase : run.phase = .opening := by
            cases same : run.phase with
            | opening => rfl
            | _ => rw [same] at opening; cases opening
          obtain ⟨inDevice, made⟩ := Device.find_eq_some.mp found
          obtain ⟨pool, changed, acted, more⟩ := act_openFails state.device.world phase
            (watched.counted inDevice) (List.mem_of_getElem? made) failure
          refine watched.giveBack found ?_ acted more choice
          rw [phase]
          rintro ⟨⟩
        · exact watched
      · exact watched
  | release number invocation choice =>
      simp only [Waiting.step]
      split
      · rename_i client run found
        split
        · rename_i releasing
          obtain ⟨inDevice, made⟩ := Device.find_eq_some.mp found
          obtain ⟨pool, changed, own, acted, more⟩ := act_release state.device.world releasing
            (watched.counted inDevice) (List.mem_of_getElem? made)
          refine watched.giveBack found ?_ acted more choice
          intro acquiring
          rw [acquiring] at releasing
          cases releasing
        · exact watched
      · exact watched

/-- Every run keeps the watch. -/
theorem run_watched (config : Config D) (labels : List (WaitingLabel D)) :
    Watched (run config labels) := by
  induction labels using List.reverseRecOn with
  | nil => exact watched_initial
  | append_singleton labels label ih =>
      rw [run_snoc]
      exact ih.step label

/-- A device with condition variables does what a device without them does. -/
theorem refines (config : Config D) (labels : List (WaitingLabel D)) :
    ∃ deviceLabels, (run config labels).device = Device.run config deviceLabels :=
  (run_watched config labels).reached

end Waiting

/-- No caller sleeps on a connection that it could have. In every interleaving of the calls
of a device, whoever waits on the condition variable of a client's pool is an invocation of
that client that waits for a connection, and as long as one of them is asleep, idle
connections and free slots are no more than those who were woken and have yet to look. So
once these have looked, a sleeper means that all connections of the pool are in use by
other invocations. -/
theorem no_caller_sleeps_on_a_connection (config : Config D) (labels : List (WaitingLabel D))
    {client : Client D}
    (found : (Waiting.run config labels).device.clients[number]? = some client) :
    let condition := (Waiting.run config labels).available number
    (∃ deviceLabels, (Waiting.run config labels).device = Device.run config deviceLabels) ∧
      condition.waiting.Nodup ∧
      (∀ invocation ∈ condition.waiting, ∃ run,
        client.invocations[invocation]? = some run ∧ run.phase = .acquiring) ∧
      (condition.asleep ≠ [] → client.free ≤ condition.woken.length) ∧
      (condition.asleep ≠ [] → condition.woken = [] →
        client.pool.idle = [] ∧ client.busy = client.config.maxConnections.toNat) := by
  intro condition
  have watched := Waiting.run_watched config labels
  have attentive := watched.attentive number client found
  have counted := watched.counted found
  refine ⟨Waiting.refines config labels, attentive.distinct, ?_, attentive.covered, ?_⟩
  · intro invocation waiting
    obtain ⟨owner, run, inside, acquiring⟩ := watched.waits number invocation waiting
    obtain ⟨hasOwner, made⟩ := Device.find_eq_some.mp inside
    obtain rfl := Option.some.inj (found.symm.trans hasOwner)
    exact ⟨run, made, acquiring⟩
  · intro sleeps looked
    have none := attentive.covered sleeps
    rw [show ((Waiting.run config labels).available number).woken = [] from looked,
      List.length_nil, Client.free] at none
    have total := counted.total
    have bounded := counted.bounded
    exact ⟨List.length_eq_zero_iff.mp (by omega), by omega⟩

/-- Two callers share one connection: the second one has to sleep. -/
def sharing : List (WaitingLabel UInt64) :=
  [.outside (.connect { maxConnections := 1 }), .outside (.start 0 (.getItem 1)),
    .outside (.start 0 (.getItem 2)), .look 0 0, .look 0 1]

theorem no_caller_sleeps_on_a_connection_sharing :
    let state := Waiting.run wordDaemon sharing
    (state.available 0).asleep = [1] ∧ ∃ client, state.device.clients[0]? = some client ∧
      client.pool.idle = [] ∧ client.busy = 1 := by
  intro state
  have asleep : (state.available 0).asleep = [1] := by decide +kernel
  obtain ⟨client, found⟩ : ∃ client, state.device.clients[0]? = some client := ⟨_, rfl⟩
  obtain ⟨_, _, _, _, out⟩ := no_caller_sleeps_on_a_connection wordDaemon sharing found
  have limit : client.config.maxConnections = 1 := by
    cases found
    rfl
  obtain ⟨idle, busy⟩ := out (by rw [asleep]; exact List.cons_ne_nil _ _) (by decide +kernel)
  exact ⟨asleep, client, found, idle, by rw [busy, limit]; rfl⟩

end Lrd.Sdk
