import Lrd.Sdk.Exchanges
import Lrd.Sdk.Reconfigured

/-!
# Writes that a retry overtakes

A method whose reply is lost is sent again, although the daemon may have executed it. What
another client has written in between, and knows to be written, is then overwritten. An
invocation that sends its request only once does no such thing (`calls_twice`), and every
configuration that allows for a second attempt has a run in which it happens
(`undone_of_retries`). So clients are safe exactly if they make one attempt at most
(`acknowledged_put_kept`).
-/

namespace Lrd.Sdk

open Foundation Common Rank Cache Proto Daemon Lrd.Client Lrd.Client.World

variable {D : Type} [Double D] {config : Config D}

/-! ## What stays along a run -/

omit [Double D] in
/-- An invocation has one configuration and one state. -/
theorem invokes_unique {device : Device config} {number invocation : Nat}
    {client other : ClientConfig} {run run' : Invocation D}
    (first : device.Invokes number invocation client run)
    (second : device.Invokes number invocation other run') : client = other ∧ run = run' := by
  obtain ⟨found, here, rfl, made⟩ := first
  obtain ⟨found', here', rfl, made'⟩ := second
  obtain rfl := Option.some.inj (here.symm.trans here')
  exact ⟨rfl, Option.some.inj (made.symm.trans made')⟩

/-- Every action keeps the exchanges there were. -/
theorem Acts.extends {world : World config} {client : ClientConfig} {pool pool' : Pool}
    {run changed : Invocation D} {label : Option (WorldLabel D)}
    (acts : Acts world client pool run pool' changed label) :
    ∃ more, changed.exchanges = run.exchanges ++ more := by
  have same : ∃ more, run.exchanges = run.exchanges ++ more := ⟨[], (List.append_nil _).symm⟩
  cases acts with
  | called link phase => exact ⟨[_], rfl⟩
  | kept link called phase healthy connected | dropped link called phase =>
      rw [Invocation.conclude_exchanges]
      exact same
  | _ => exact same

/-- A later state of a device: invocations stay and only add to their exchanges, and the
executions and the calls of the daemon stay. -/
structure Continues (before after : Device config) : Prop where
  invokes : ∀ number invocation client run, before.Invokes number invocation client run →
    ∃ later more, after.Invokes number invocation client later ∧
      later.exchanges = run.exchanges ++ more
  serving : ∀ daemon ticket place, Serving before.world daemon ticket place →
    Serving after.world daemon ticket place
  calls : Extends before.world after.world

/-- Every step continues what there was. -/
theorem continues_step {device : Device config} (kept : Kept device) (label : DeviceLabel D) :
    Continues device (device.step label) := by
  obtain ⟨own, world⟩ := step_world device label
  refine ⟨?_, ?_, ?_⟩
  · intro number invocation client run invokes
    rcases step_invokes invokes label with still | ⟨_, _, changed, _, acts, _, now⟩
    · exact ⟨run, [], still, (List.append_nil _).symm⟩
    · obtain ⟨more, split⟩ := acts.extends
      exact ⟨changed, more, now, split⟩
  · intro daemon ticket place serving
    rw [world]
    cases own with
    | none => exact serving
    | some own => exact serving_step kept.sound own serving
  · rw [world]
    cases own with
    | none => exact fun _ daemon found => ⟨daemon, found, System.CarryOn.refl _⟩
    | some own => exact extends_step _ own

omit [Double D] in
theorem Continues.refl (device : Device config) : Continues device device where
  invokes _ _ _ run invokes := ⟨run, [], invokes, (List.append_nil _).symm⟩
  serving _ _ _ serving := serving
  calls _ daemon found := ⟨daemon, found, System.CarryOn.refl _⟩

omit [Double D] in
/-- What continues goes on continuing. -/
theorem Continues.trans {before middle after : Device config} (first : Continues before middle)
    (second : Continues middle after) : Continues before after := by
  refine ⟨?_, ?_, ?_⟩
  · intro number invocation client run invokes
    obtain ⟨later, more, now, split⟩ := first.invokes number invocation client run invokes
    obtain ⟨last, rest, atLast, splitAgain⟩ := second.invokes number invocation client later now
    exact ⟨last, more ++ rest, atLast, by rw [splitAgain, split, List.append_assoc]⟩
  · intro daemon ticket place serving
    exact second.serving daemon ticket place (first.serving daemon ticket place serving)
  · intro index daemon found
    obtain ⟨later, here, carry⟩ := first.calls index daemon found
    obtain ⟨last, there, carryAgain⟩ := second.calls index later here
    exact ⟨last, there, carry.trans carryAgain⟩

/-- A longer run continues a shorter one. -/
theorem run_continues (config : Config D) (labels more : List (DeviceLabel D)) :
    Continues (Device.run config labels) (Device.run config (labels ++ more)) := by
  induction more using List.reverseRecOn with
  | nil =>
      rw [List.append_nil]
      exact Continues.refl _
  | append_singleton more label ih =>
      rw [← List.append_assoc, Device.run_snoc]
      exact ih.trans (continues_step (run_kept config (labels ++ more)) label)

omit [Double D] in
/-- Executions stay executions. -/
theorem Continues.executions {before after : Device config} (continues_ : Continues before after)
    {run later : Invocation D} {more : List (Nat × Nat)}
    (split : later.exchanges = run.exchanges ++ more) {daemon ticket : Nat}
    (caused : (daemon, ticket) ∈ run.executions before.world) :
    (daemon, ticket) ∈ later.executions after.world := by
  obtain ⟨place, member, executed⟩ := List.mem_filterMap.mp caused
  refine List.mem_filterMap.mpr ⟨place, ?_, ?_⟩
  · rw [split]
    exact List.mem_append_left _ member
  · exact executedAt_iff.mpr (continues_.serving daemon ticket place (executedAt_iff.mp executed))

/-! ## A write between two executions -/

/-- What the running daemon holds under an id. -/
def Device.held (device : Device config) (id : ItemId) : Option (Item D) :=
  device.world.daemons.getLast?.bind fun system => system.state.cache.peek id

/-- The methods that write an item. -/
def Writes (id : ItemId) : Operation D → Prop
  | .putItem item => item.id = id
  | .deleteItem other => other = id
  | _ => False

/-- An execution that an invocation caused has returned. -/
def Executed (device : Device config) (run : Invocation D) : Prop :=
  ∃ daemon ticket system call, (daemon, ticket) ∈ run.executions device.world ∧
    device.world.daemons[daemon]? = some system ∧ system.calls[ticket]? = some call ∧
    call.result?.isSome = true

/-- A client's write was executed, and then another client's put of the item was executed and
acknowledged. -/
structure Overtaken (config : Config D) (earlier later : List (DeviceLabel D))
    (writer invocation : Nat) (client : ClientConfig) (other put : Nat) (item : Item D) : Prop where
  different : writer ≠ other
  executed : ∃ run, (Device.run config earlier).Invokes writer invocation client run ∧
    Writes item.id run.operation ∧ Executed (Device.run config earlier) run
  after : ∀ another run, (Device.run config earlier).Invokes other put another run →
    run.executions (Device.run config earlier).world = []
  acknowledged : ∃ another run called,
    (Device.run config (earlier ++ later)).Invokes other put another run ∧
    run.operation = .putItem item ∧ run.phase = .returned .success called ∧
    Executed (Device.run config (earlier ++ later)) run

/-- The next step of an execution that an invocation caused replaces or removes the item. -/
def Undone (device : Device config) (writer invocation : Nat) (item : Item D) : Prop :=
  ∃ client run daemon ticket now, device.Invokes writer invocation client run ∧
    (daemon, ticket) ∈ run.executions device.world ∧ daemon + 1 = device.world.daemons.length ∧
    device.held item.id = some item ∧
    (device.step (.advance ticket now)).held item.id ≠ some item

/-- A step of a call that has returned does nothing. -/
theorem advance_finished {world : World config}
    {system : System (steps config) (State config) (Request D) (Response D)}
    {call : Call (steps config) (Request D) (Response D)} {ticket : Nat}
    (served : world.daemons[world.daemons.length - 1]? = some system)
    (made : system.calls[ticket]? = some call) (finished : call.result?.isSome = true)
    (now : Timestamp) : world.step (.advance ticket now) = world := by
  have same : world.daemons.modify (world.daemons.length - 1)
      (fun daemon => daemon.step (workers config) (.advance ticket now)) = world.daemons := by
    apply List.ext_getElem?
    intro index
    rw [List.getElem?_modify]
    by_cases last : world.daemons.length - 1 = index
    · subst last
      rw [served, Option.map_eq_map, Option.map_some, if_pos rfl,
        System.step_finished _ made finished now]
    · simp only [last, ↓reduceIte, id_map']
  obtain ⟨daemons, links⟩ := world
  exact congrArg (World.mk · links) same

/-- What another client has written in between is replaced or removed only by an invocation
that has sent its request at least twice. -/
theorem calls_twice {earlier later more : List (DeviceLabel D)} {writer invocation : Nat}
    {client : ClientConfig} {other put : Nat} {item : Item D}
    (overtaken : Overtaken config earlier later writer invocation client other put item)
    (undone : Undone (Device.run config (earlier ++ later ++ more)) writer invocation item) :
    ∃ run, (Device.run config (earlier ++ later ++ more)).Invokes writer invocation client run ∧
      2 ≤ run.exchanges.length ∧ 2 ≤ (attempts client run.operation).toNat := by
  obtain ⟨client', run', daemon', ticket', now, invokes', caused', running, held, gone⟩ := undone
  obtain ⟨run, invokes, _, daemon, ticket, system, call, caused, served, made, finished⟩ :=
    overtaken.executed
  rw [List.append_assoc] at invokes' caused' running held gone ⊢
  have continues_ := run_continues config earlier (later ++ more)
  obtain ⟨last, rest, atLast, split⟩ := continues_.invokes writer invocation client run invokes
  obtain ⟨rfl, rfl⟩ := invokes_unique atLast invokes'
  obtain ⟨bounded, _⟩ := run_recorded config _ atLast
  have twice : 2 ≤ last.exchanges.length := by
    by_contra single
    -- The execution that returned before the other client's put is then the only one.
    have again := continues_.executions split caused
    have short := (List.length_filterMap_le (executedAt
      (Device.run config (earlier ++ (later ++ more))).world) last.exchanges).trans
      (Nat.lt_succ_iff.mp (Nat.not_le.mp single))
    have only := eq_singleton short caused'
    rw [Invocation.executions, only] at again
    obtain ⟨rfl, rfl⟩ := Prod.mk.inj (List.mem_singleton.mp again)
    obtain ⟨system', served', carry⟩ := continues_.calls daemon system served
    obtain ⟨call', made', _, returned⟩ := carry ticket call made
    obtain ⟨response, result⟩ := Option.isSome_iff_exists.mp finished
    have atEnd :
        daemon = (Device.run config (earlier ++ (later ++ more))).world.daemons.length - 1 := by
      omega
    rw [atEnd] at served'
    apply gone
    have still := advance_finished served' made'
      (Option.isSome_iff_exists.mpr ⟨response, returned response result⟩) now
    simp only [Device.step, still]
    exact held
  exact ⟨last, atLast, twice, twice.trans bounded.length_le⟩

/-- Every client of a device may have a connection. -/
theorem run_connects (config : Config D) (labels : List (DeviceLabel D)) :
    ∀ client ∈ (Device.run config labels).clients, client.config.maxConnections ≠ 0 := by
  induction labels using List.reverseRecOn with
  | nil => exact fun client member => absurd member List.not_mem_nil
  | append_singleton labels label ih =>
      rw [Device.run_snoc]
      have moves := (Device.run config labels).moves label
      generalize (Device.run config labels).step label = after at moves ⊢
      have replaced : ∀ {number : Nat} {world : World config} {client changed : Client D},
          (Device.run config labels).clients[number]? = some client →
          changed.config = client.config →
          ∀ found ∈ ((Device.run config labels).replace world number changed).clients,
            found.config.maxConnections ≠ 0 := by
        intro number world client changed here same found member
        rcases List.mem_or_eq_of_mem_set member with before | rfl
        · exact ih found before
        · rw [same]
          exact ih client (List.mem_of_getElem? here)
      cases moves with
      | stays => exact ih
      | connects some =>
          intro found member
          rcases List.mem_append.mp member with before | new
          · exact ih found before
          · rw [List.mem_singleton.mp new]
            exact some
      | starts here operation => exact replaced here rfl
      | acts here made acts => exact replaced here rfl
      | dials => exact ih
      | passes _ _ => exact ih

/-! ## Two clients -/

/-- What the first client puts. -/
def ours : Item UInt64 := { Item.empty 0 with id := 5, category := text "a" }

/-- What the second client puts under the same id. -/
def theirs : Item UInt64 := { Item.empty 0 with id := 5, category := text "b" }

/-- The request on a link is read, and its execution takes the given number of steps. -/
def executing (link ticket count : Nat) : List (DeviceLabel UInt64) :=
  [.traffic link (.callerSends 1000), .traffic link (.workerReads 4),
    .traffic link (.workerReads 1000)] ++ List.replicate count (.advance ticket ⟨0⟩)

/-- A second client connects. The first client's put is executed, and its call times out
before the reply. -/
def lost : List (DeviceLabel UInt64) :=
  [.connect {}, .start 0 (.putItem ours), .act 0 0 .acquire, .act 0 0 .call] ++
  executing 0 0 3 ++
  [.traffic 0 (.callerFails .timedOut), .act 0 0 .finish, .act 0 0 .release]

/-- A client connects, and the reply to its put is lost. -/
def losing (client : ClientConfig) : List (DeviceLabel UInt64) := .connect client :: lost

/-- The second client's put is executed and acknowledged. -/
def overtaking : List (DeviceLabel UInt64) :=
  [.start 1 (.putItem theirs), .act 1 0 .acquire, .act 1 0 .call] ++ exchanging 1 1 3 ++
  [.act 1 0 .finish, .act 1 0 .release]

/-- The first client sends its request again. -/
def retrying : List (DeviceLabel UInt64) :=
  [.act 0 0 .acquire, .act 0 0 .open, .act 0 0 .call] ++ executing 2 2 2

/-- Whether a call of the daemon has returned. -/
def hasReturned (device : Device config) (daemon ticket : Nat) : Bool :=
  match device.world.daemons[daemon]?.bind fun system => system.calls[ticket]? with
  | some call => call.result?.isSome
  | none => false

omit [Double D] in
/-- A response that was returned was executed. -/
theorem executed_of_returned {device : Device config} {run : Invocation D} {daemon ticket : Nat}
    (caused : (daemon, ticket) ∈ run.executions device.world)
    (returned : hasReturned device daemon ticket = true) : Executed device run := by
  unfold hasReturned at returned
  split at returned
  · rename_i call found
    obtain ⟨system, served, made⟩ := Option.bind_eq_some_iff.mp found
    exact ⟨daemon, ticket, system, call, caused, served, made, returned⟩
  · cases returned

/-- The second client's put overtakes the first's, if the invocations look like it. -/
theorem overtaken_of_view {client : ClientConfig} (status : Option Status)
    (first : (Device.run wordDaemon (losing client)).view 0 0 =
      some ⟨client, .putItem ours, status, [], [(0, 0)]⟩)
    (finished : hasReturned (Device.run wordDaemon (losing client)) 0 0 = true)
    (nothing : (Device.run wordDaemon (losing client)).view 1 0 = none)
    (second : (Device.run wordDaemon (losing client ++ overtaking)).view 1 0 =
      some ⟨{}, .putItem theirs, some .success, [], [(0, 1)]⟩)
    (alsoFinished : hasReturned (Device.run wordDaemon (losing client ++ overtaking)) 0 1 = true) :
    Overtaken wordDaemon (losing client) overtaking 0 0 client 1 0 theirs := by
  refine ⟨Nat.zero_ne_one, ?_, ?_, ?_⟩
  · obtain ⟨run, invokes, operation, _, _, executions⟩ := invokes_of_view first
    refine ⟨run, invokes, ?_, executed_of_returned ?_ finished⟩
    · rw [operation]
      rfl
    · rw [executions]
      exact List.mem_cons_self
  · rintro another run ⟨found, here, _, made⟩
    simp only [Device.view, here, made, Option.bind_some, Option.map_some] at nothing
    cases nothing
  · obtain ⟨run, invokes, operation, result, _, executions⟩ := invokes_of_view second
    obtain ⟨called, phase⟩ := Phase.eq_returned result
    refine ⟨{}, run, called, invokes, operation, phase, executed_of_returned ?_ alsoFinished⟩
    rw [executions]
    exact List.mem_cons_self

/-! ## Clients that retry -/

section Views

omit [Double D]

variable (device : Device config) (client : ClientConfig)

/-- The view of an invocation under another configuration. -/
theorem view_reconfigure (number invocation : Nat) :
    (device.reconfigure number client).view number invocation =
      (device.view number invocation).map fun view => { view with client } := by
  simp only [Device.view, Device.getElem?_reconfigure]
  cases device.clients[number]? with
  | none => rfl
  | some found =>
      simp only [Option.map_some, Option.bind_some, Option.map_map]
      rfl

/-- The view of other clients' invocations. -/
theorem view_reconfigure_of_ne {number other : Nat} (apart : other ≠ number) (invocation : Nat) :
    (device.reconfigure number client).view other invocation = device.view other invocation := by
  simp only [Device.view, Device.getElem?_reconfigure_of_ne device apart]
  rfl

/-- What was executed does not depend on the configuration. -/
theorem hasReturned_reconfigure (number daemon ticket : Nat) :
    hasReturned (device.reconfigure number client) daemon ticket =
      hasReturned device daemon ticket :=
  rfl

theorem held_reconfigure (number : Nat) (id : ItemId) :
    (device.reconfigure number client).held id = device.held id :=
  rfl

end Views

/-- No step of the run depends on the first client's configuration, as long as it retries. -/
theorem indifferent_losing :
    Device.indifferentAlong 0 ((Device.initial wordDaemon).step (.connect {}))
      (lost ++ overtaking ++ retrying) = true := by
  decide +kernel

/-- Indifference along two parts of a run. -/
theorem indifferentAlong_append {number : Nat} {device : Device config}
    {labels more : List (DeviceLabel D)}
    (alike : Device.indifferentAlong number device (labels ++ more) = true) :
    Device.indifferentAlong number device labels = true := by
  induction labels generalizing device with
  | nil => rfl
  | cons label labels ih =>
      rw [List.cons_append, Device.indifferentAlong, Bool.and_eq_true] at alike
      rw [Device.indifferentAlong, alike.1, ih alike.2]
      rfl

/-- The run with any client that retries is the run with the default client. -/
theorem run_losing {client : ClientConfig} (retries : client.Retries)
    {rest more : List (DeviceLabel UInt64)}
    (part : lost ++ rest ++ more = lost ++ overtaking ++ retrying) :
    Device.run wordDaemon (losing client ++ rest) =
      (Device.run wordDaemon (losing {} ++ rest)).reconfigure 0 client := by
  have start : (Device.initial wordDaemon).step (.connect client) =
      ((Device.initial wordDaemon).step (.connect {})).reconfigure 0 client := by
    simp only [Device.step, Client.connect, retries.connects, ↓reduceIte]
    rfl
  have retrying : ((Device.initial wordDaemon).step (.connect {})).Retrying 0 :=
    ⟨_, rfl, by decide, by decide⟩
  have alike := indifferent_losing
  rw [← part] at alike
  rw [Device.run, Device.run, losing, losing, List.cons_append, List.cons_append, List.foldl_cons,
    List.foldl_cons, start]
  exact Device.foldl_reconfigure retrying retries (indifferentAlong_append alike)

/-- Every client that retries may undo what another has put, although it does not call
again. -/
theorem undone_of_retries {client : ClientConfig} (retries : client.Retries) :
    Overtaken wordDaemon (losing client) overtaking 0 0 client 1 0 theirs ∧
      (∀ operation, .start 0 operation ∉ overtaking ++ retrying) ∧
      Undone (Device.run wordDaemon (losing client ++ overtaking ++ retrying)) 0 0 theirs := by
  have first := run_losing retries (List.append_nil lost ▸ (List.append_assoc ..).symm :
    lost ++ [] ++ (overtaking ++ retrying) = lost ++ overtaking ++ retrying)
  have second := run_losing retries (rfl : lost ++ overtaking ++ retrying = _)
  have third := run_losing retries
    (by simp only [List.append_assoc, List.append_nil] :
      lost ++ (overtaking ++ retrying) ++ [] = lost ++ overtaking ++ retrying)
  rw [List.append_nil, List.append_nil] at first
  refine ⟨?_, ?_, ?_⟩
  · have seen : (Device.run wordDaemon (losing {})).view 0 0 =
        some ⟨{}, .putItem ours, none, [], [(0, 0)]⟩ := by
      decide +kernel
    have nothing : (Device.run wordDaemon (losing {})).view 1 0 = none := by
      decide +kernel
    have both : hasReturned (Device.run wordDaemon (losing {})) 0 0 = true ∧
        hasReturned (Device.run wordDaemon (losing {} ++ overtaking)) 0 1 = true := by
      decide +kernel
    have acknowledged : (Device.run wordDaemon (losing {} ++ overtaking)).view 1 0 =
        some ⟨{}, .putItem theirs, some .success, [], [(0, 1)]⟩ := by
      decide +kernel
    apply overtaken_of_view none
    · rw [first, view_reconfigure, seen]
      rfl
    · rw [first, hasReturned_reconfigure, both.1]
    · rw [first, view_reconfigure_of_ne _ _ Nat.one_ne_zero, nothing]
    · rw [second, view_reconfigure_of_ne _ _ Nat.one_ne_zero, acknowledged]
    · rw [second, hasReturned_reconfigure, both.2]
  · intro operation
    simp [overtaking, retrying, executing, exchanging]
  · have seen : (Device.run wordDaemon (losing {} ++ (overtaking ++ retrying))).view 0 0 =
        some ⟨{}, .putItem ours, none, [], [(0, 0), (0, 2)]⟩ := by
      decide +kernel
    have again : (Device.run wordDaemon (losing client ++ (overtaking ++ retrying))).view 0 0 =
        some ⟨client, .putItem ours, none, [], [(0, 0), (0, 2)]⟩ := by
      rw [third, view_reconfigure, seen]
      rfl
    obtain ⟨run, invokes, _, _, _, executions⟩ := invokes_of_view again
    have world := congrArg Device.world third
    have single : (Device.run wordDaemon
        (losing {} ++ (overtaking ++ retrying))).world.daemons.length = 1 := by
      decide +kernel
    have before : (Device.run wordDaemon (losing {} ++ (overtaking ++ retrying))).held theirs.id =
        some theirs := by
      decide +kernel
    have after : ((Device.run wordDaemon (losing {} ++ (overtaking ++ retrying))).step
        (.advance 2 ⟨0⟩)).held theirs.id ≠ some theirs := by
      decide +kernel
    rw [List.append_assoc]
    refine ⟨client, run, 0, 2, ⟨0⟩, invokes, ?_, ?_, ?_, ?_⟩
    · rw [executions]
      exact List.mem_cons_of_mem _ List.mem_cons_self
    · rw [world, Device.world_reconfigure, single]
    · rw [third, held_reconfigure, before]
    · rw [third, Device.advance_reconfigure, held_reconfigure]
      exact after

/-- A client's writes are safe from its own retries exactly if it makes one attempt at most:
the count of attempts is one more than the configured retries, in 64 bits. Then no execution
that its invocation causes replaces or removes what another client has put in between.
Whatever the configuration, an invocation that does so has sent its request at least
twice. -/
theorem acknowledged_put_kept (client : ClientConfig) :
    (client.maxConnections = 0 ∨ client.maxRetries + 1 ≤ 1 ↔
      ∀ (D : Type) [Double D] (config : Config D) (earlier later : List (DeviceLabel D))
        (writer invocation other put : Nat) (item : Item D),
        Overtaken config earlier later writer invocation client other put item →
        ∀ more, (∀ operation, .start writer operation ∉ later ++ more) →
          ¬ Undone (Device.run config (earlier ++ later ++ more)) writer invocation item) ∧
    ∀ (D : Type) [Double D] (config : Config D) (earlier later : List (DeviceLabel D))
      (writer invocation other put : Nat) (item : Item D),
      Overtaken config earlier later writer invocation client other put item →
      ∀ more, Undone (Device.run config (earlier ++ later ++ more)) writer invocation item →
        ∃ run, (Device.run config (earlier ++ later ++ more)).Invokes writer invocation client run ∧
          2 ≤ run.exchanges.length ∧ 2 ≤ (attempts client run.operation).toNat := by
  refine ⟨⟨?_, ?_⟩, ?_⟩
  · intro safe D _ config earlier later writer invocation other put item overtaken more _ undone
    obtain ⟨run, ⟨found, here, own, _⟩, _, twice⟩ := calls_twice overtaken undone
    rcases safe with none | single
    · exact run_connects config _ found (List.mem_of_getElem? here) (own ▸ none)
    · have least := UInt64.le_iff_toNat_le.mp single
      unfold attempts at twice
      split at twice
      · exact absurd (twice.trans least) (by decide)
      · exact absurd twice (by decide)
  · intro kept
    by_contra exposed
    rw [not_or, UInt64.not_le] at exposed
    obtain ⟨overtaken, quiet, undone⟩ := undone_of_retries ⟨exposed.1, exposed.2⟩
    exact kept UInt64 wordDaemon _ _ 0 0 1 0 theirs overtaken retrying quiet undone
  · intro D _ config earlier later writer invocation other put item overtaken more undone
    exact calls_twice overtaken undone

/-- With the default configuration the first client's retry replaces what the second has
put, although the first client does not call again. -/
theorem acknowledged_put_undone :
    Overtaken wordDaemon (losing {}) overtaking 0 0 {} 1 0 theirs ∧
      (∀ operation, .start 0 operation ∉ retrying) ∧
      Undone (Device.run wordDaemon (losing {} ++ overtaking ++ retrying)) 0 0 theirs := by
  obtain ⟨overtaken, quiet, undone⟩ := undone_of_retries (⟨by decide, by decide⟩ :
    ClientConfig.Retries {})
  exact ⟨overtaken, fun operation member => quiet operation (List.mem_append_right _ member),
    undone⟩

end Lrd.Sdk
