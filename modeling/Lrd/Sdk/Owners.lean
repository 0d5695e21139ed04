import Lrd.Client.Custody
import Lrd.Foundation.Slots
import Lrd.Sdk.Client

/-!
# Owners of connections

What the actions of an invocation do, case by case (`Acts`), and with them the steps of a
device (`Device.Moves`); every invariant of a device is proved along these cases. Then what
an action does to the connections of its client: `holders` lists all connections of a device
with their owners, an action keeps them, adds one or drops one (`Acts.owned`), keeps the
client's count right (`Client.Counted.acts`) and keeps what the owners rely on (`Acts.own`).
-/

namespace Lrd.Sdk

open Foundation Rank Proto Daemon Lrd.Client Lrd.Client.World

variable {D : Type} [Double D] {config : Config D}

/-! ## Actions case by case -/

/-- What the actions of an invocation do. -/
inductive Acts (world : World config) (client : ClientConfig) (pool : Pool) (run : Invocation D) :
    Pool → Invocation D → Option (WorldLabel D) → Prop where
  | take (link : Nat) (rest : List Nat) (phase : run.phase = .acquiring)
      (idle : pool.idle = link :: rest) :
      Acts world client pool run { pool with idle := rest } { run with phase := .holding link } none
  | reserve (phase : run.phase = .acquiring) (idle : pool.idle = [])
      (room : pool.total < client.maxConnections) :
      Acts world client pool run { pool with total := pool.total + 1 }
        { run with phase := .opening } none
  | timeOut (phase : run.phase = .acquiring) (message : Bytes) :
      Acts world client pool run pool (run.fail client message) none
  | opened (phase : run.phase = .opening) :
      Acts world client pool run pool { run with phase := .holding world.links.length }
        (some .connect)
  | openFails (phase : run.phase = .opening) (message : Bytes) :
      Acts world client pool run { pool with total := pool.total - 1 } (run.fail client message) none
  | refused (link : Nat) (message : Bytes) (phase : run.phase = .holding link) :
      Acts world client pool run pool
        { run with phase := .releasing link ⟨.invalidRequest, emptyResponse, message, true⟩ } none
  | called (link : Nat) (phase : run.phase = .holding link) :
      Acts world client pool run pool
        { run with
          phase := .calling link
          exchanges := run.exchanges ++ [(link, sentCount world link)] }
        (some (.link link (.operate run.operation.body)))
  | finished (link : Nat) (called : Called D) (phase : run.phase = .calling link)
      (outcome : finishedCall world link = some called) :
      Acts world client pool run pool
        { run with phase := .releasing link (run.operation.settle called) } none
  | kept (link : Nat) (called : Called D) (phase : run.phase = .releasing link called)
      (healthy : marksFailed (mapStatus called.status) = false)
      (connected : isConnected world link = true) :
      Acts world client pool run (pool.release link true) (run.conclude client called) none
  | dropped (link : Nat) (called : Called D) (phase : run.phase = .releasing link called) :
      Acts world client pool run (pool.release link false) (run.conclude client called)
        (some (.link link .callerCloses))

variable {world : World config} {label : Option (WorldLabel D)} {pool pool' : Pool}
  {run : Invocation D} {client : Client D} {link : Nat} {invocation : Nat}

/-- What an action can do. -/
theorem acts_of_act {client : ClientConfig} {run run' : Invocation D} {action : Action}
    (acted : act world client pool run run.phase action = some (pool', run', label)) :
    Acts world client pool run pool' run' label := by
  unfold act at acted
  split at acted
  · rename_i phase
    split at acted
    · rename_i link rest idle
      cases acted
      exact .take link rest phase idle
    · rename_i idle
      split at acted
      · rename_i room
        cases acted
        exact .reserve phase idle room
      · cases acted
  · rename_i phase
    split at acted
    · cases acted
      exact .timeOut phase _
    · cases acted
  · rename_i phase
    cases acted
    exact .opened phase
  · rename_i phase
    cases acted
    exact .openFails phase _
  · rename_i link phase
    split at acted
    · cases acted
      exact .refused link _ phase
    · cases acted
      exact .called link phase
  · rename_i link phase
    split at acted
    · rename_i called outcome
      cases acted
      exact .finished link called phase outcome
    · cases acted
  · rename_i link called phase
    split at acted
    · rename_i keeps
      cases acted
      exact .kept link called phase keeps.1 keeps.2
    · cases acted
      exact .dropped link called phase
  · cases acted

/-- What the steps of a device do. A step of its world that no client takes part in may be
another program's, on a link of its own. -/
inductive Device.Moves (device : Device config) : Device config → Prop where
  | stays : Device.Moves device device
  | connects {client : ClientConfig} (some : client.maxConnections ≠ 0) :
      Device.Moves device { device with
        world := device.world.step .connect
        clients := device.clients ++ [⟨client, ⟨[device.world.links.length], 1⟩, []⟩] }
  | starts {number : Nat} {client : Client D} (found : device.clients[number]? = some client)
      (operation : Operation D) :
      Device.Moves device (device.replace device.world number { client with
        invocations := client.invocations ++ [.start client.config operation] })
  | acts {number invocation : Nat} {client : Client D} {run changed : Invocation D} {pool : Pool}
      {label : Option (WorldLabel D)} (found : device.clients[number]? = some client)
      (made : client.invocations[invocation]? = some run)
      (acts : Acts device.world client.config client.pool run pool changed label) :
      Device.Moves device (device.replace (label.elim device.world device.world.step) number
        (client.replace pool invocation changed))
  | dials :
      Device.Moves device { device with
        world := device.world.step .connect
        outside := device.outside ++ [device.world.links.length] }
  | passes {label : WorldLabel D} (old : label ≠ .connect) (passive : ∀ link,
        link ∉ device.outside → Passive link device.world (device.world.step label)) :
      Device.Moves device { device with world := device.world.step label }

/-- What any step of a device can do. -/
theorem Device.moves (device : Device config) (label : DeviceLabel D) :
    Device.Moves device (device.step label) := by
  cases label with
  | connect client =>
      simp only [Device.step, Client.connect]
      by_cases none : client.maxConnections = 0
      · rw [if_pos none]
        exact .stays
      · rw [if_neg none]
        exact .connects none
  | start number operation =>
      simp only [Device.step]
      split
      · exact .stays
      · rename_i client found
        exact .starts found operation
  | act number invocation action =>
      simp only [Device.step, Device.act]
      split
      · exact .stays
      · rename_i client found
        split
        · exact .stays
        · rename_i run made
          split
          · exact .stays
          · rename_i acted
            exact .acts found made (acts_of_act acted)
  | dial => exact .dials
  | outside link label =>
      simp only [Device.step]
      split
      · rename_i own
        refine .passes nofun fun other inside => passive_other _ ?_ label
        rintro rfl
        exact inside own
      · exact .stays
  | traffic link label =>
      simp only [Device.step]
      split
      · rename_i traffic
        exact .passes nofun fun other _ => passive_traffic _ link traffic other
      · exact .stays
  | advance ticket now => exact .passes nofun fun other _ => passive_advance _ ticket now other
  | restart => exact .passes nofun fun other _ => passive_restart _ other

/-! ## Owners -/

section Owners

omit [Double D]

/-- The connection that an invocation has in its hands. -/
def Phase.held? : Phase D → Option Nat
  | .holding link | .calling link | .releasing link _ => some link
  | _ => none

/-- Whether an invocation has a connection or a reserved slot. -/
def Phase.isBusy : Phase D → Bool
  | .opening | .holding _ | .calling _ | .releasing _ _ => true
  | _ => false

/-- How many invocations of a client have a connection or a reserved slot. -/
def Client.busy (client : Client D) : Nat :=
  client.invocations.countP fun run => run.phase.isBusy

/-- The owner of a connection. -/
inductive Holder (D : Type) where
  | idle
  | caller (run : Invocation D)
  | outside

/-- An invocation as the holder of its connection. -/
def Invocation.holders (run : Invocation D) : List (Nat × Holder D) :=
  (run.phase.held?.map fun link => (link, .caller run)).toList

/-- The pool as the holder of its idle connections. -/
def Pool.holders (pool : Pool) : List (Nat × Holder D) := pool.idle.map fun link => (link, .idle)

/-- The holders of a client's connections. -/
def Client.holders (client : Client D) : List (Nat × Holder D) :=
  client.pool.holders ++ client.invocations.flatMap Invocation.holders

/-- All connections that have an owner, each with its owner. -/
def Device.holders (device : Device config) : List (Nat × Holder D) :=
  (device.outside.map fun link => (link, .outside)) ++ device.clients.flatMap Client.holders

/-- All connections that have an owner, as often as they have one. -/
def Device.owned (device : Device config) : List Nat := device.holders.map Prod.fst

/-- What a caller relies on, phase by phase. -/
def Invocation.Relies (run : Invocation D) (world : World config) (link : Nat) : Phase D → Prop
  | .holding _ => Ready world link
  | .calling _ => ∃ position, run.exchanges.getLast? = some (link, position) ∧
      InCall world link position run.operation.body
  | .releasing _ _ => Resting world link
  | _ => True

/-- What an owner relies on. -/
def Fits (world : World config) (link : Nat) : Holder D → Prop
  | .idle => Ready world link
  | .caller run => run.Relies world link run.phase
  | .outside => True

/-- What an invocation relies on is not disturbed by others. -/
theorem Invocation.Relies.passive {before after : World config} {phase : Phase D}
    (relies : run.Relies before link phase) (passive : Passive link before after) :
    run.Relies after link phase := by
  cases phase with
  | holding held => exact Ready.passive relies passive
  | calling held =>
      obtain ⟨position, last, inCall⟩ := relies
      exact ⟨position, last, inCall.passive passive⟩
  | releasing held called => exact Resting.passive relies passive
  | _ => trivial

/-- What fits is not disturbed by others. -/
theorem Fits.passive {before after : World config} {holder : Holder D}
    (fits : Fits before link holder) (passive : Passive link before after) :
    Fits after link holder := by
  cases holder with
  | idle => exact Ready.passive fits passive
  | outside => trivial
  | caller run => exact Invocation.Relies.passive fits passive

/-- When an invocation and its client's pool change, the other owners stay. -/
theorem holders_replace {device : Device config} {number invocation : Nat}
    (found : device.clients[number]? = some client)
    (made : client.invocations[invocation]? = some run) :
    ∃ others, device.holders.Perm (client.pool.holders ++ run.holders ++ others) ∧
      ∀ (world : World config) pool changed,
        (device.replace world number (client.replace pool invocation changed)).holders.Perm
          (pool.holders ++ changed.holders ++ others) := by
  obtain ⟨clients, before, after⟩ := flatMap_set Client.holders found
  obtain ⟨runs, beforeRuns, afterRuns⟩ := flatMap_set Invocation.holders made
  let outside : List (Nat × Holder D) := device.outside.map fun link => (link, .outside)
  have join (own : List (Nat × Holder D)) (pool : Pool)
      (held : List (Nat × Holder D)) (inside : own.Perm (held ++ runs)) :
      (outside ++ ((pool.holders ++ own) ++ clients)).Perm
        (pool.holders ++ held ++ (runs ++ (outside ++ clients))) := by
    have apart : (outside ++ ((pool.holders ++ own) ++ clients)).Perm
        (pool.holders ++ own ++ (outside ++ clients)) := List.perm_append_comm_assoc _ _ _
    refine apart.trans ?_
    rw [List.append_assoc, List.append_assoc, ← List.append_assoc held]
    exact (inside.append_right _).append_left _
  refine ⟨runs ++ (outside ++ clients), ?_, ?_⟩
  · exact (before.append_left _).trans (join _ _ _ beforeRuns)
  · intro world pool changed
    exact ((after _).append_left _).trans (join _ pool _ (afterRuns changed))

/-- The head of the loop holds no connection. -/
theorem Invocation.loop_phase (client : ClientConfig) (run : Invocation D) (attempt : UInt64)
    (called : Option (Called D)) :
    (run.loop client attempt called).phase.held? = none ∧
      (run.loop client attempt called).phase.isBusy = false := by
  unfold Invocation.loop
  simp only
  split
  · exact ⟨rfl, rfl⟩
  · exact ⟨rfl, rfl⟩

/-- An attempt that has ended holds no connection. -/
theorem Invocation.conclude_phase (client : ClientConfig) (run : Invocation D) (called : Called D) :
    (run.conclude client called).phase.held? = none ∧
      (run.conclude client called).phase.isBusy = false := by
  unfold Invocation.conclude
  simp only
  split
  · exact ⟨rfl, rfl⟩
  · split
    · exact ⟨rfl, rfl⟩
    · exact Invocation.loop_phase ..

/-- An invocation that holds nothing. -/
theorem Invocation.holders_nil (none : run.phase.held? = none) :
    run.holders = [] := by
  rw [Invocation.holders, none]
  rfl

/-- Who has a connection in hands is its holder. -/
theorem Invocation.holders_held (held : run.phase.held? = some link) :
    run.holders = [(link, .caller run)] := by
  rw [Invocation.holders, held]
  rfl

/-- A count below a limit does not wrap around. -/
theorem toNat_succ_of_lt {count limit : UInt64} (below : count < limit) :
    (count + 1).toNat = count.toNat + 1 := by
  have less := UInt64.lt_iff_toNat_lt.mp below
  have size := limit.toNat_lt
  rw [UInt64.toNat_add, UInt64.toNat_one]
  exact Nat.mod_eq_of_lt (by omega)

/-- A client whose count is right. -/
structure Client.Counted (client : Client D) : Prop where
  total : client.pool.total.toNat = client.pool.idle.length + client.busy
  bounded : client.pool.total.toNat ≤ client.config.maxConnections.toNat

/-- How many are busy after one invocation has changed. -/
theorem Client.busy_replace (made : client.invocations[invocation]? = some run) (pool : Pool)
    (changed : Invocation D) :
    (client.replace pool invocation changed).busy + (if run.phase.isBusy then 1 else 0) =
      client.busy + if changed.phase.isBusy then 1 else 0 := by
  obtain ⟨others, before, after⟩ := perm_set made
  simp only [Client.busy, Client.replace]
  rw [before.countP_eq, (after changed).countP_eq, List.countP_cons, List.countP_cons]
  omega

/-- A count is never zero while an invocation has a connection or a slot. -/
theorem Client.Counted.positive (counted : client.Counted) (made : run ∈ client.invocations)
    (busy : run.phase.isBusy = true) :
    0 < client.pool.total.toNat := by
  have some : 0 < client.busy := List.countP_pos_iff.mpr ⟨run, made, busy⟩
  have total := counted.total
  omega

/-- The count of a client after one invocation has changed. -/
theorem Client.Counted.replace (counted : client.Counted)
    (made : client.invocations[invocation]? = some run) {pool : Pool} {changed : Invocation D}
    (balance : pool.total.toNat + client.pool.idle.length + (if run.phase.isBusy then 1 else 0) =
      client.pool.total.toNat + pool.idle.length + if changed.phase.isBusy then 1 else 0)
    (bounded : pool.total.toNat ≤ client.config.maxConnections.toNat) :
    (client.replace pool invocation changed).Counted := by
  have busy := client.busy_replace made pool changed
  have total := counted.total
  refine ⟨?_, bounded⟩
  change pool.total.toNat = pool.idle.length + (client.replace pool invocation changed).busy
  omega

/-- Somebody busy is counted, so the count can go down. -/
theorem Client.Counted.decrement (counted : client.Counted) (made : run ∈ client.invocations)
    (busy : run.phase.isBusy = true) :
    (client.pool.total - 1).toNat + 1 = client.pool.total.toNat := by
  have positive := counted.positive made busy
  have enough : (1 : UInt64) ≤ client.pool.total := UInt64.le_iff_toNat_le.mpr positive
  rw [UInt64.toNat_sub_of_le _ _ enough]
  exact Nat.sub_add_cancel positive

end Owners

/-- Every action keeps the count. -/
theorem Client.Counted.acts (counted : client.Counted) {run changed : Invocation D}
    (made : client.invocations[invocation]? = some run) {pool : Pool}
    (acts : Acts world client.config client.pool run pool changed label) :
    (client.replace pool invocation changed).Counted := by
  have member := List.mem_of_getElem? made
  have bounded := counted.bounded
  cases acts with
  | take link rest phase idle =>
      refine counted.replace made ?_ bounded
      rw [phase, idle]
      rfl
  | reserve phase idle room =>
      have total := toNat_succ_of_lt room
      apply counted.replace made
      · rw [phase, total]
        simp only [Phase.isBusy, Bool.false_eq_true, ↓reduceIte]
        omega
      · rw [total]
        exact UInt64.lt_iff_toNat_lt.mp room
  | timeOut phase message =>
      apply counted.replace made _ bounded
      rw [phase, Invocation.fail, (Invocation.loop_phase ..).2]
      rfl
  | opened phase =>
      apply counted.replace made _ bounded
      rw [phase]
      rfl
  | openFails phase message =>
      have less := counted.decrement member (by rw [phase]; rfl)
      apply counted.replace made
      · rw [phase, Invocation.fail, (Invocation.loop_phase ..).2]
        simp only [Phase.isBusy, Bool.false_eq_true, ↓reduceIte]
        omega
      · simp only
        omega
  | refused link message phase | called link phase | finished link called phase outcome =>
      apply counted.replace made _ bounded
      rw [phase]
      rfl
  | kept link called phase healthy connected =>
      refine counted.replace made ?_ bounded
      rw [phase, (Invocation.conclude_phase ..).2]
      simp only [Pool.release, Phase.isBusy, Bool.false_eq_true, ↓reduceIte, List.length_cons]
      omega
  | dropped link called phase =>
      have less := counted.decrement member (by rw [phase]; rfl)
      apply counted.replace made
      · rw [phase, (Invocation.conclude_phase ..).2]
        simp only [Pool.release, Phase.isBusy, Bool.false_eq_true, ↓reduceIte]
        omega
      · simp only [Pool.release, Bool.false_eq_true, ↓reduceIte]
        omega

/-- What a client's deque and one of its callers rely on. -/
structure Own (world : World config) (pool : Pool) (run : Invocation D) : Prop where
  idle : ∀ link ∈ pool.idle, Ready world link
  held : ∀ link, run.phase.held? = some link → run.Relies world link run.phase

theorem ready_connect :
    Ready (world.step .connect) world.links.length :=
  ⟨_, List.getElem?_concat_length, rfl⟩

omit [Double D] in
/-- A call that has ended leaves its link at rest. -/
theorem resting_of_finishedCall {called : Called D}
    (outcome : finishedCall world link = some called) : Resting world link := by
  unfold finishedCall at outcome
  split at outcome
  · rename_i found named
    refine ⟨found, named, ?_⟩
    split at outcome
    · rename_i ready
      rw [ready]
      rfl
    · rename_i closed
      rw [closed]
      rfl
    · cases outcome
  · cases outcome

omit [Double D] in
/-- A link at rest that is connected is ready. -/
theorem ready_of_connected (resting : Resting world link)
    (connected : isConnected world link = true) : Ready world link := by
  obtain ⟨found, named, rest⟩ := resting
  rw [isConnected, named] at connected
  exact ⟨found, named, Caller.ready_of_rest rest connected⟩

/-- An action touches no link but its own. -/
theorem Acts.passive {client : ClientConfig} {run changed : Invocation D}
    (acts : Acts world client pool run pool' changed label) {other : Nat}
    (different : run.phase.held? ≠ some other) :
    Passive other world (label.elim world world.step) := by
  cases acts with
  | opened phase => exact passive_connect world other
  | called link phase | dropped link called phase =>
      rw [phase] at different
      rw [Option.elim_some]
      exact passive_other world (fun same => different (congrArg some same)) _
  | _ => exact Passive.refl other world

omit [Double D] in
/-- What an invocation relies on in the phase that it is in. -/
theorem Own.relies {pool : Pool} (own : Own world pool run) {phase : Phase D}
    (here : run.phase = phase) (holds : phase.held? = some link) : run.Relies world link phase := by
  subst here
  exact own.held link holds

/-- What a client relies on stays true, whatever its invocation does. -/
theorem Acts.own (sound : Sound world) {client : ClientConfig} {run changed : Invocation D}
    (acts : Acts world client pool run pool' changed label) (own : Own world pool run)
    (apart : ∀ link, run.phase.held? = some link → link ∉ pool.idle) :
    Own (label.elim world world.step) pool' changed := by
  have stays : ∀ link ∈ pool.idle, Ready (label.elim world world.step) link := by
    intro link member
    apply (own.idle link member).passive
    apply acts.passive
    intro held
    exact apart link held member
  have none {moved : Invocation D} (free : moved.phase.held? = none)
      (link : Nat) (held : moved.phase.held? = some link) :
      moved.Relies (label.elim world world.step) link moved.phase := by
    rw [free] at held
    cases held
  cases acts with
  | take link rest phase idle =>
      refine ⟨?_, ?_⟩
      · intro other member
        exact own.idle other (by rw [idle]; exact List.mem_cons_of_mem _ member)
      · intro other held
        obtain rfl := Option.some.inj held
        exact own.idle link (by rw [idle]; exact List.mem_cons_self)
  | reserve phase idle room => exact ⟨stays, none rfl⟩
  | timeOut phase message => exact ⟨stays, none (Invocation.loop_phase ..).1⟩
  | opened phase =>
      refine ⟨stays, ?_⟩
      intro other held
      obtain rfl := Option.some.inj held
      exact ready_connect
  | openFails phase message => exact ⟨stays, none (Invocation.loop_phase ..).1⟩
  | refused link message phase =>
      refine ⟨stays, ?_⟩
      intro other held
      obtain rfl := Option.some.inj held
      exact Ready.resting (own.relies phase rfl)
  | called link phase =>
      refine ⟨stays, ?_⟩
      intro other held
      obtain rfl := Option.some.inj held
      obtain ⟨found, named, atRest⟩ := own.relies phase rfl
      refine ⟨found.sent.length, ?_, inCall_operate sound named atRest _⟩
      simp only [List.getLast?_append, List.getLast?_singleton, Option.some_or, sentCount, named]
  | finished link called phase outcome =>
      refine ⟨stays, ?_⟩
      intro other held
      obtain rfl := Option.some.inj held
      exact resting_of_finishedCall outcome
  | kept link called phase healthy connected =>
      refine ⟨?_, none (Invocation.conclude_phase ..).1⟩
      intro other member
      rcases List.mem_cons.mp member with rfl | old
      · exact ready_of_connected (own.relies phase rfl) connected
      · exact stays other old
  | dropped link called phase => exact ⟨stays, none (Invocation.conclude_phase ..).1⟩

omit [Double D] in
/-- The connections of a pool and of an invocation. -/
theorem map_fst_holders (pool : Pool) (run : Invocation D) :
    (pool.holders ++ run.holders).map Prod.fst = pool.idle ++ run.phase.held?.toList := by
  rw [List.map_append, Pool.holders, List.map_map, Invocation.holders]
  congr 1
  · exact List.map_id _
  · cases run.phase.held? with
    | none => rfl
    | some link => rfl

omit [Double D] in
/-- What they own fits them. -/
theorem Own.fits {pool : Pool} (own : Own world pool run) :
    ∀ entry ∈ pool.holders ++ run.holders, Fits world entry.1 entry.2 := by
  intro entry member
  rcases List.mem_append.mp member with idle | held
  · obtain ⟨link, inside, rfl⟩ := List.mem_map.mp idle
    exact own.idle link inside
  · cases phase : run.phase.held? with
    | none =>
        rw [Invocation.holders_nil phase] at held
        cases held
    | some link =>
        rw [Invocation.holders_held phase] at held
        rw [List.mem_singleton.mp held]
        exact own.held link phase

omit [Double D] in
/-- And what fits them they own. -/
theorem own_of_fits {pool : Pool}
    (fits : ∀ entry ∈ pool.holders ++ run.holders, Fits world entry.1 entry.2) :
    Own world pool run where
  idle link member :=
    fits (link, .idle) (List.mem_append_left _ (List.mem_map_of_mem member))
  held link held := by
    apply fits (link, .caller run)
    rw [Invocation.holders_held held]
    exact List.mem_append_right _ (List.mem_singleton.mpr rfl)

/-- An action keeps the connections that its client owns, opens one or drops one. -/
theorem Acts.owned {client : ClientConfig} {run changed : Invocation D}
    (acts : Acts world client pool run pool' changed label) :
    (label ≠ some .connect ∧ (pool'.idle ++ changed.phase.held?.toList).Perm
        (pool.idle ++ run.phase.held?.toList)) ∨
    (label = some .connect ∧ (pool'.idle ++ changed.phase.held?.toList).Perm
        (world.links.length :: (pool.idle ++ run.phase.held?.toList))) ∨
    ∃ link, label = some (.link link .callerCloses) ∧ (pool.idle ++ run.phase.held?.toList).Perm
        (link :: (pool'.idle ++ changed.phase.held?.toList)) := by
  cases acts with
  | take link rest phase idle =>
      refine Or.inl ⟨nofun, ?_⟩
      simp only [phase, idle, Phase.held?, Option.toList_none, Option.toList_some, List.append_nil]
      exact List.perm_append_singleton link rest
  | reserve phase idle room =>
      refine Or.inl ⟨nofun, ?_⟩
      rw [phase]
      exact List.Perm.refl _
  | timeOut phase message =>
      refine Or.inl ⟨nofun, ?_⟩
      rw [phase, Invocation.fail, (Invocation.loop_phase ..).1]
      exact List.Perm.refl _
  | opened phase =>
      refine Or.inr (Or.inl ⟨rfl, ?_⟩)
      simp only [phase, Phase.held?, Option.toList_none, Option.toList_some, List.append_nil]
      exact List.perm_append_singleton _ pool.idle
  | openFails phase message =>
      refine Or.inl ⟨nofun, ?_⟩
      rw [phase, Invocation.fail, (Invocation.loop_phase ..).1]
      exact List.Perm.refl _
  | refused link message phase | called link phase | finished link called phase outcome =>
      refine Or.inl ⟨nofun, ?_⟩
      rw [phase]
      exact List.Perm.refl _
  | kept link called phase healthy connected =>
      refine Or.inl ⟨nofun, ?_⟩
      rw [phase, (Invocation.conclude_phase ..).1, Option.toList_none, List.append_nil]
      exact (List.perm_append_singleton link pool.idle).symm
  | dropped link called phase =>
      refine Or.inr (Or.inr ⟨link, rfl, ?_⟩)
      rw [phase, (Invocation.conclude_phase ..).1, Option.toList_none, List.append_nil]
      exact List.perm_append_singleton link pool.idle

end Lrd.Sdk
