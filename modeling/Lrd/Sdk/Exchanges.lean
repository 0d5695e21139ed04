import Lrd.Daemon.Charging
import Lrd.Sdk.Attempts

/-!
# Exchanges and executions

Every request that was ever sent belongs to exactly one invocation or to another program
(`Traced`), and so does every execution of the daemon (`executions_traced`). A recording
recommendation that is not retried is executed at most once, and once if it succeeds
(`recommend_at_most_once`).
-/

namespace Lrd.Sdk

open Foundation Rank Proto Daemon Lrd.Client Lrd.Client.World

variable {D : Type} [Double D] {config : Config D}

/-! ## Places -/

/-- The exchanges of all invocations of a client. -/
def Client.exchanges (client : Client D) : List (Nat × Nat) :=
  client.invocations.flatMap Invocation.exchanges

/-- The places of all calls that clients have made. -/
def Device.exchanges (device : Device config) : List (Nat × Nat) :=
  device.clients.flatMap Client.exchanges

variable {device : Device config} {number invocation : Nat} {label : Option (WorldLabel D)}
  {world : World config}

omit [Double D] in
/-- The exchanges of a device after one invocation has changed. -/
theorem exchanges_replace {client : Client D} {run : Invocation D}
    (found : device.clients[number]? = some client)
    (made : client.invocations[invocation]? = some run) :
    ∃ others, device.exchanges.Perm (run.exchanges ++ others) ∧
      ∀ (world : World config) pool changed,
        (device.replace world number (client.replace pool invocation changed)).exchanges.Perm
          (changed.exchanges ++ others) := by
  obtain ⟨clients, before, after⟩ := flatMap_set Client.exchanges found
  obtain ⟨runs, beforeRuns, afterRuns⟩ := flatMap_set Invocation.exchanges made
  refine ⟨runs ++ clients, ?_, ?_⟩
  · rw [← List.append_assoc]
    exact before.trans (beforeRuns.append_right clients)
  · intro world pool changed
    rw [← List.append_assoc]
    exact (after _).trans ((afterRuns changed).append_right clients)

omit [Double D] in
/-- A conclusion starts no exchange. -/
theorem Invocation.conclude_exchanges (client : ClientConfig) (run : Invocation D)
    (called : Called D) : (run.conclude client called).exchanges = run.exchanges := by
  unfold Invocation.conclude
  simp only
  split
  · rfl
  · split
    · rfl
    · rfl

/-- No request is sent on a link, and no call on it is taken back. -/
def Follows (link : Nat) (before after : World config) : Prop :=
  ∀ found, before.links[link]? = some found → ∃ moved, after.links[link]? = some moved ∧
    moved.sent = found.sent ∧ found.begun ≤ moved.begun

omit [Double D] in
/-- A link that was left alone follows. -/
theorem follows_of_passive {link : Nat} {before after : World config}
    (passive : Passive link before after) : Follows link before after := by
  intro found named
  obtain ⟨moved, here, goesOn, sent⟩ := passive found named
  exact ⟨moved, here, sent, goesOn.begun.le⟩

/-- An action makes no call, or it makes one on the link that it holds. -/
theorem Acts.follows (sound : Sound world) {client : ClientConfig} {pool pool' : Pool}
    {run changed : Invocation D} (acts : Acts world client pool run pool' changed label)
    (own : Own world pool run) :
    (changed.exchanges = run.exchanges ∧
      ∀ link, Follows link world (label.elim world world.step)) ∨
    ∃ link, run.phase = .holding link ∧
      changed.exchanges = run.exchanges ++ [(link, sentCount world link)] ∧
      label = some (.link link (.operate run.operation.body)) := by
  have same : label = none → ∀ link, Follows link world (label.elim world world.step) := by
    rintro rfl link
    exact follows_of_passive (Passive.refl link world)
  cases acts with
  | take link rest phase idle => exact Or.inl ⟨rfl, same rfl⟩
  | reserve phase idle room => exact Or.inl ⟨rfl, same rfl⟩
  | timeOut phase message => exact Or.inl ⟨rfl, same rfl⟩
  | opened phase => exact Or.inl ⟨rfl, fun link => follows_of_passive (passive_connect world link)⟩
  | openFails phase message => exact Or.inl ⟨rfl, same rfl⟩
  | refused link message phase => exact Or.inl ⟨rfl, same rfl⟩
  | called link phase => exact Or.inr ⟨link, phase, rfl, rfl⟩
  | finished link called phase outcome => exact Or.inl ⟨rfl, same rfl⟩
  | kept link called phase healthy connected =>
      exact Or.inl ⟨Invocation.conclude_exchanges .., same rfl⟩
  | dropped link called phase =>
      refine Or.inl ⟨Invocation.conclude_exchanges .., ?_⟩
      intro other
      by_cases different : link = other
      · subst different
        obtain ⟨found, named, rest⟩ := own.relies phase rfl
        intro before here
        obtain rfl := Option.some.inj (named.symm.trans here)
        obtain ⟨daemon, moved⟩ := found_link sound named .callerCloses
        refine ⟨_, moved, rfl, ?_⟩
        rw [Link.begun_of_rest rest, Link.begun_of_rest rfl]
        exact Nat.le_refl _
      · exact follows_of_passive (passive_other world different .callerCloses)

/-- Every request that was ever sent was sent by one invocation only, or by another
program. -/
structure Traced (device : Device config) : Prop where
  distinct : device.exchanges.Nodup
  made : ∀ place ∈ device.exchanges, place.1 ∉ device.outside ∧
    ∃ found, device.world.links[place.1]? = some found ∧ place.2 < found.begun
  complete : ∀ (link position : Nat) found, device.world.links[link]? = some found →
    position < found.sent.length → link ∈ device.outside ∨ (link, position) ∈ device.exchanges

omit [Double D] in
/-- A step in which no client makes a call. -/
theorem Traced.moves {before after : Device config} (traced : Traced before)
    (exchanges : after.exchanges.Perm before.exchanges)
    (outside : ∀ link ∈ after.outside, link ∈ before.outside ∨ before.world.links.length ≤ link)
    (stays : ∀ link ∈ before.outside, link ∈ after.outside)
    (follows : ∀ link, link ∉ before.outside → Follows link before.world after.world)
    (fresh : ∀ (link : Nat) moved, after.world.links[link]? = some moved → moved.sent ≠ [] →
      ∃ found, before.world.links[link]? = some found) : Traced after := by
  refine ⟨exchanges.nodup_iff.mpr traced.distinct, ?_, ?_⟩
  · intro place member
    obtain ⟨inside, found, named, begun⟩ := traced.made place (exchanges.mem_iff.mp member)
    obtain ⟨moved, here, _, more⟩ := follows place.1 inside found named
    refine ⟨?_, moved, here, begun.trans_le more⟩
    intro joined
    rcases outside place.1 joined with old | beyond
    · exact inside old
    · exact absurd (List.getElem?_eq_some_iff.mp named).1 (Nat.not_lt.mpr beyond)
  · intro link position moved named within
    obtain ⟨found, had⟩ := fresh link moved named (List.ne_nil_of_length_pos (by omega))
    by_cases own : link ∈ before.outside
    · exact Or.inl (stays link own)
    · obtain ⟨other, here, sent, _⟩ := follows link own found had
      obtain rfl := Option.some.inj (named.symm.trans here)
      rw [sent] at within
      rcases traced.complete link position found had within with joined | member
      · exact absurd joined own
      · exact Or.inr (exchanges.mem_iff.mpr member)

/-- A link on which something was sent is not new. -/
theorem found_of_sent {link : Nat} {moved : Link D}
    (named : (label.elim world world.step).links[link]? = some moved) (sent : moved.sent ≠ []) :
    ∃ found, world.links[link]? = some found := by
  cases label with
  | none => exact ⟨moved, named⟩
  | some label =>
      rcases found_before named with old | ⟨_, _, rfl⟩
      · exact old
      · exact absurd rfl sent

/-- A step of the world that is passive for the clients' links. -/
theorem Traced.passes (traced : Traced device) {label : WorldLabel D}
    (passive : ∀ link, link ∉ device.outside → Passive link device.world (device.world.step
      label)) :
    Traced { device with world := device.world.step label } := by
  have fresh (link : Nat) (moved : Link D)
      (named : ((some label).elim device.world device.world.step).links[link]? = some moved)
      (sent : moved.sent ≠ []) : ∃ found, device.world.links[link]? = some found :=
    found_of_sent named sent
  exact traced.moves (List.Perm.refl _) (fun _ member => Or.inl member) (fun _ member => member)
    (fun link other => follows_of_passive (passive link other)) fresh

omit [Double D] in
/-- A method that begins is one more exchange. -/
theorem begun_operate [BitCast D] {link : Link D} (ready : link.caller = .ready)
    (body : RequestBody D) :
    (link.operate body).begun = link.finished.length + 1 ∧
      (link.operate body).sent.length ≤ link.sent.length + 1 := by
  rcases operate_ready ready body with ⟨asking, finished, sent⟩ | ⟨called, closed, finished, sent⟩
  · rw [Link.begun, asking, finished, sent, List.length_append]
    exact ⟨rfl, Nat.le_refl _⟩
  · rw [Link.begun, closed, finished, sent, List.length_append]
    exact ⟨rfl, Nat.le_succ _⟩

/-- An invocation calls on the link that it holds. -/
theorem Traced.call {device after : Device config} (traced : Traced device)
    (sound : Sound device.world) {link : Nat} {found : Link D}
    (named : device.world.links[link]? = some found) (ready : found.caller = .ready)
    (inside : link ∉ device.outside) (outside : after.outside = device.outside)
    (exchanges : after.exchanges.Perm ((link, found.sent.length) :: device.exchanges))
    {body : RequestBody D}
    (world : after.world = device.world.step (.link link (.operate body))) : Traced after := by
  have rest : found.caller.request? = none := by
    rw [ready]
    rfl
  have count := sent_of_ready sound (List.mem_of_getElem? named) ready
  have begun : found.begun = found.sent.length := (Link.begun_of_rest rest).trans count.symm
  obtain ⟨more, longer⟩ := begun_operate ready body
  obtain ⟨daemon, moved⟩ := found_link sound named (.operate body)
  have other {number : Nat} (different : link ≠ number) :=
    follows_of_passive (passive_other device.world different (.operate body))
  refine ⟨?_, ?_, ?_⟩
  · rw [exchanges.nodup_iff, List.nodup_cons]
    refine ⟨?_, traced.distinct⟩
    intro twice
    obtain ⟨_, before, here, less⟩ := traced.made _ twice
    obtain rfl := Option.some.inj (named.symm.trans here)
    rw [begun] at less
    exact Nat.lt_irrefl _ less
  · intro place member
    rw [outside, world]
    by_cases same : link = place.1
    · rw [← same]
      refine ⟨inside, _, moved, ?_⟩
      refine Nat.lt_of_lt_of_eq ?_ more.symm
      rcases List.mem_cons.mp (exchanges.mem_iff.mp member) with rfl | old
      · rw [← count]
        exact Nat.lt_succ_self _
      · obtain ⟨_, before, here, less⟩ := traced.made place old
        rw [← same, named] at here
        obtain rfl := Option.some.inj here
        rw [← count, ← begun]
        exact less.trans (Nat.lt_succ_self _)
    · rcases List.mem_cons.mp (exchanges.mem_iff.mp member) with rfl | old
      · exact absurd rfl same
      · obtain ⟨notOutside, before, here, less⟩ := traced.made place old
        obtain ⟨later, there, _, atLeast⟩ := other same before here
        exact ⟨notOutside, later, there, less.trans_le atLeast⟩
  · intro number position later here within
    rw [outside, exchanges.mem_iff]
    rw [world] at here
    by_cases same : link = number
    · subst same
      obtain rfl := Option.some.inj (moved.symm.trans here)
      rcases Nat.lt_or_eq_of_le (Nat.le_of_lt_succ (within.trans_le longer)) with less | rfl
      · rcases traced.complete link position found named less with joined | old
        · exact Or.inl joined
        · exact Or.inr (List.mem_cons_of_mem _ old)
      · exact Or.inr List.mem_cons_self
    · rcases found_before here with ⟨before, had⟩ | ⟨impossible, _⟩
      · obtain ⟨_, there, sent, _⟩ := other same before had
        obtain rfl := Option.some.inj (here.symm.trans there)
        rw [sent] at within
        rcases traced.complete number position before had within with joined | old
        · exact Or.inl joined
        · exact Or.inr (List.mem_cons_of_mem _ old)
      · cases impossible

/-- The device after a step of a client in which nobody joins. -/
theorem Traced.inside {device after : Device config} (traced : Traced device)
    (exchanges : after.exchanges.Perm device.exchanges) (outside : after.outside = device.outside)
    (label : Option (WorldLabel D))
    (world : after.world = label.elim device.world device.world.step)
    (follows : ∀ link, Follows link device.world (label.elim device.world device.world.step)) :
    Traced after := by
  apply traced.moves exchanges
  · intro link member
    rw [outside] at member
    exact Or.inl member
  · intro link member
    rw [outside]
    exact member
  · intro link _
    rw [world]
    exact follows link
  · intro link moved named sent
    rw [world] at named
    exact found_of_sent named sent

/-- Every action keeps the traces. -/
theorem Traced.acts (traced : Traced device) (kept : Kept device) {client : Client D}
    {run changed : Invocation D} (found : device.clients[number]? = some client)
    (made : client.invocations[invocation]? = some run) {pool : Pool}
    (acts : Acts device.world client.config client.pool run pool changed label) :
    Traced (device.replace (label.elim device.world device.world.step) number
      (client.replace pool invocation changed)) := by
  obtain ⟨others, before, after⟩ := exchanges_replace found made
  have own := kept.own (List.mem_of_getElem? found) (List.mem_of_getElem? made)
  rcases acts.follows kept.sound own with ⟨same, follows⟩ | ⟨link, phase, more, rfl⟩
  · refine traced.inside ?_ rfl label rfl follows
    refine (after _ _ _).trans ?_
    rw [same]
    exact before.symm
  · have held : run.phase.held? = some link := by
      rw [phase]
      rfl
    have ready := own.held link held
    rw [phase] at ready
    obtain ⟨before', named, atRest⟩ := ready
    have count : sentCount device.world link = before'.sent.length := by
      rw [sentCount, named]
    refine traced.call kept.sound named atRest ?_ rfl ?_ rfl
    · intro joined
      have invokes : device.Invokes number invocation client.config run := ⟨client, found, rfl, made⟩
      have outside : (link, .outside) ∈ device.holders :=
        List.mem_append_left _ (List.mem_map_of_mem joined)
      cases holder_unique kept.single (invokes.holder held) outside
    · refine (after _ _ _).trans ?_
      rw [more, count, List.append_assoc, List.singleton_append]
      exact List.perm_middle.trans (before.symm.cons _)

/-- Every step keeps the traces. -/
theorem Traced.step (traced : Traced device) (kept : Kept device) (label : DeviceLabel D) :
    Traced (device.step label) := by
  have moves := device.moves label
  generalize device.step label = after at moves ⊢
  cases moves with
  | stays => exact traced
  | connects _ =>
      refine traced.inside ?_ rfl (some .connect) rfl ?_
      · simp only [Device.exchanges, List.flatMap_append, List.flatMap_cons, List.flatMap_nil,
          List.append_nil, Client.exchanges]
        exact List.Perm.refl _
      · intro link
        exact follows_of_passive (passive_connect _ link)
  | @starts number client found operation =>
      refine traced.inside ?_ rfl none rfl ?_
      · obtain ⟨others, before, after⟩ := flatMap_set Client.exchanges found
        have nothing : (Invocation.start client.config operation).exchanges = [] := rfl
        refine (after _).trans ?_
        simp only [Client.exchanges, List.flatMap_append, List.flatMap_cons, List.flatMap_nil,
          nothing, List.append_nil]
        exact before.symm
      · intro link
        exact follows_of_passive (Passive.refl link _)
  | acts found made acts => exact traced.acts kept found made acts
  | dials =>
      refine traced.moves (List.Perm.refl _) ?_ ?_ ?_ ?_
      · intro link member
        rcases List.mem_append.mp member with old | new
        · exact Or.inl old
        · exact Or.inr (List.mem_singleton.mp new).ge
      · intro link member
        exact List.mem_append_left _ member
      · intro link _
        exact follows_of_passive (passive_connect _ link)
      · intro link moved named sent
        rcases found_before named with old | ⟨_, _, rfl⟩
        · exact old
        · exact absurd rfl sent
  | passes _ passive => exact traced.passes passive

/-- The traces hold in every run. -/
theorem run_traced (config : Config D) (labels : List (DeviceLabel D)) :
    Traced (Device.run config labels) := by
  induction labels using List.reverseRecOn with
  | nil =>
      refine ⟨List.nodup_nil, ?_, ?_⟩
      · intro place member
        exact absurd member List.not_mem_nil
      · intro link position found named
        cases named
  | append_singleton labels label ih =>
      rw [Device.run_snoc]
      exact ih.step (run_kept config labels) label

/-! ## Executions -/

section Executions

omit [Double D]

/-- The execution of the request at a place: the incarnation of the daemon and the number of
its handler's call. -/
def executedAt (world : World config) (place : Nat × Nat) : Option (Nat × Nat) :=
  match world.links[place.1]? with
  | none => none
  | some link =>
      match link.served[place.2]? with
      | some (.executed _ ticket) => some (link.daemon, ticket)
      | _ => none

/-- The executions that an invocation has caused. -/
def Invocation.executions (run : Invocation D) (world : World config) : List (Nat × Nat) :=
  run.exchanges.filterMap (executedAt world)

/-- The execution at a place is the one that serves it. -/
theorem executedAt_iff {place : Nat × Nat} {daemon ticket : Nat} :
    executedAt world place = some (daemon, ticket) ↔ Serving world daemon ticket place := by
  unfold executedAt
  constructor
  · intro executed
    split at executed
    · cases executed
    · rename_i link named
      split at executed
      · rename_i request number served
        obtain ⟨own, rfl⟩ := Prod.mk.inj (Option.some.inj executed)
        exact ⟨link, request, named, own, served⟩
      · cases executed
  · rintro ⟨link, request, named, rfl, served⟩
    simp only [named, served]

end Executions

omit [Double D] in
/-- What a method reports as a success is the response of its call, and no failure. -/
theorem settle_ok {operation : Operation D} {called : Called D}
    (ok : (operation.settle called).status = .ok) :
    called.status = .ok ∧ (operation.settle called).response = called.response ∧
      ∀ status message, called.response.body ≠ .failure status message := by
  unfold Operation.settle at ok ⊢
  split at ok
  · rename_i failed
    exact absurd ok failed
  · rename_i succeeded
    rw [if_neg succeeded]
    refine ⟨not_not.mp succeeded, ?_, ?_⟩
    · split
      all_goals first | rfl | (split <;> rfl)
    · intro status message failure
      rw [failure] at ok
      cases operation with
      | _ => cases ok

/-- A rejection is a failure. -/
theorem failure_of_reject {body : Bytes} {response : Response D}
    (rejects : receive body = .reject response) :
    ∃ status message, response.body = .failure status message := by
  unfold receive at rejects
  split at rejects
  · cases rejects
  · obtain rfl := Received.reject.inj rejects
    exact ⟨_, _, rfl⟩
  · cases rejects

/-- A success was produced by an execution that the invocation caused. -/
theorem executed_of_answered {labels : List (WorldLabel D)} {run : Invocation D}
    {outcome : Called D} (answered : Answered (World.run config labels) run outcome)
    (ok : outcome.status = .ok) :
    ∃ daemon ticket system call, (daemon, ticket) ∈ run.executions (World.run config labels) ∧
      (World.run config labels).daemons[daemon]? = some system ∧
      system.calls[ticket]? = some call ∧ call.request.body = run.operation.body ∧
      call.result? = some outcome.response := by
  obtain ⟨place, member, found, request, called, named, returned, own, rfl⟩ := answered
  obtain ⟨succeeded, same, noFailure⟩ := settle_ok ok
  obtain ⟨system, served, sync⟩ := (run_sound config labels).links found (List.mem_of_getElem? named)
  have settled : called.Settled :=
    run_settled config labels place.1 found named _ (List.mem_of_getElem? returned)
  rw [Called.Settled, succeeded] at settled
  obtain ⟨sent, replied⟩ := sync.returned place.2 request called returned settled
  obtain ⟨asked, entry, sentAsked, entered, produced, _⟩ := sync.produced place.2 _ replied
  obtain rfl := Option.some.inj (sent.symm.trans sentAsked)
  cases entry with
  | executed executed ticket =>
      obtain ⟨rfl, call, made, asks, result⟩ := produced
      have serving : Serving (World.run config labels) found.daemon ticket place :=
        ⟨found, _, named, rfl, entered⟩
      refine ⟨found.daemon, ticket, system, call,
        List.mem_filterMap.mpr ⟨place, member, executedAt_iff.mpr serving⟩, served, made, ?_, ?_⟩
      · rw [asks]
        exact own
      · rw [same]
        exact result
  | rejected rejection =>
      obtain ⟨_, rejects⟩ := produced
      obtain ⟨status, message, failure⟩ := failure_of_reject rejects
      exact absurd failure (noFailure status message)

/-- Every execution serves a request that one invocation, or another program, has sent. -/
theorem executions_traced (kept : Kept device) (traced : Traced device) {daemon ticket : Nat}
    (executed : ticket < callCount device.world daemon) :
    ∃ place, Serving device.world daemon ticket place ∧
      (place.1 ∈ device.outside ∨ place ∈ device.exchanges) := by
  obtain ⟨labels, same⟩ := kept.reached
  have attributed := run_attributed config labels
  rw [← same] at attributed
  obtain ⟨place, serving⟩ := (attributed.made daemon ticket).mp executed
  refine ⟨place, serving, ?_⟩
  obtain ⟨link, request, named, _, served⟩ := serving
  obtain ⟨system, _, sync⟩ := kept.sound.links link (List.mem_of_getElem? named)
  have within : place.2 < link.sent.length :=
    (List.getElem?_eq_some_iff.mp served).1.trans_le sync.served_le
  exact traced.complete place.1 place.2 link named within

/-- A recording recommendation is executed at most once unless the configuration has it
retried. If it succeeds, it was executed, and the items it returns are those that were
charged. Every execution is due to the one invocation that sent its request, or to another
program. -/
theorem recommend_at_most_once (config : Config D) (labels : List (DeviceLabel D))
    (number invocation : Nat) (client : ClientConfig) (run : Invocation D)
    (invokes : (Device.run config labels).Invokes number invocation client run)
    (signal : UserSignal D) (count : UInt32) (recording : run.operation = .recommend signal count false)
    (notRetried : client.retryRecordingRecommendations = false) :
    (run.executions (Device.run config labels).world).length ≤ 1 ∧
    (∀ status called, run.phase = .returned status called → status.code = .ok →
      ∃ outcome daemon ticket system call, called = some outcome ∧
        run.executions (Device.run config labels).world = [(daemon, ticket)] ∧
        (Device.run config labels).world.daemons[daemon]? = some system ∧
        system.calls[ticket]? = some call ∧
        call.request.body = .recommend ⟨signal, count, false⟩ ∧
        call.result? = some outcome.response ∧
        call.trace.filterMap charged = (slateOf outcome.response).map RankedItem.id) ∧
    (∀ daemon ticket, ticket < callCount (Device.run config labels).world daemon →
      ∃ place, Serving (Device.run config labels).world daemon ticket place ∧
        (place.1 ∈ (Device.run config labels).outside ∨
          place ∈ (Device.run config labels).exchanges)) ∧
    (Device.run config labels).exchanges.Nodup := by
  have kept := run_kept config labels
  have traced := run_traced config labels
  obtain ⟨bounded, evident⟩ := run_recorded config labels invokes
  have one : attempts client run.operation = 1 := by
    rw [recording]
    simp only [attempts, retryable, notRetried, Bool.false_eq_true, ↓reduceIte]
  have single : (run.executions (Device.run config labels).world).length ≤ 1 := by
    refine (List.length_filterMap_le _ _).trans (bounded.length_le.trans ?_)
    rw [one]
    exact Nat.le_refl _
  refine ⟨single, ?_, fun daemon ticket => executions_traced kept traced, traced.distinct⟩
  · intro status called phase success
    rw [Evident, phase] at evident
    obtain ⟨outcome, same, ok, answered⟩ := evident success
    obtain ⟨reachedBy, world⟩ := kept.reached
    rw [world] at answered single ⊢
    obtain ⟨daemon, ticket, system, call, caused, served, made, body, result⟩ :=
      executed_of_answered answered ok
    rw [recording] at body
    refine ⟨outcome, daemon, ticket, system, call, same, ?_, served, made, body, result, ?_⟩
    · exact eq_singleton single caused
    · obtain ⟨schedule, rfl, _⟩ :=
        (run_sound config reachedBy).daemons system (List.mem_of_getElem? served)
      have live : isLive call.request = true := by
        rw [isLive, body]
        rfl
      have charges := charged_of_finished (List.mem_of_getElem? made)
        (Option.isSome_iff_exists.mpr ⟨_, result⟩)
      rw [charges.1]
      simp only [returned, result, live, ↓reduceIte]

/-- A client's call on a link is executed in the given number of steps, and its reply
arrives. -/
def exchanging (link ticket count : Nat) : List (DeviceLabel UInt64) :=
  [.traffic link (.callerSends 1000), .traffic link (.workerReads 4),
    .traffic link (.workerReads 1000)] ++
  List.replicate count (.advance ticket ⟨0⟩) ++
  [.traffic link .workerReplies, .traffic link (.workerSends 1000),
    .traffic link (.callerReads 4), .traffic link (.callerReads 1000)]

/-- The item that is shown. -/
def shown : Item UInt64 := { Item.empty 0 with id := 5, category := text "a", baseScore := 1 }

/-- An interest in one category. -/
def interest : UserSignal UInt64 := ⟨[⟨text "a", 1⟩], []⟩

/-- An item is put and then recommended. -/
def showing : List (DeviceLabel UInt64) :=
  [.connect {}, .start 0 (.putItem shown), .act 0 0 .acquire, .act 0 0 .call] ++
  exchanging 0 0 3 ++ [.act 0 0 .finish, .act 0 0 .release] ++
  [.start 0 (.recommend interest 1 false), .act 0 1 .acquire, .act 0 1 .call] ++
  exchanging 0 1 5 ++ [.act 0 1 .finish, .act 0 1 .release]

/-- What is seen of an invocation: its client's configuration, its method, what it has
returned and the executions it has caused. -/
structure View (D : Type) where
  client : ClientConfig
  operation : Operation D
  status : Option Status
  slate : List ItemId
  executions : List (Nat × Nat)
deriving DecidableEq

section Views

omit [Double D]

/-- The status that was returned. -/
def Phase.status? : Phase D → Option Status
  | .returned status _ => some status
  | _ => none

/-- The ids of the slate that was returned. -/
def Phase.slate : Phase D → List ItemId
  | .returned _ (some called) => (slateOf called.response).map RankedItem.id
  | _ => []

/-- What can be seen of an invocation from outside. -/
def Device.view (device : Device config) (number invocation : Nat) : Option (View D) :=
  device.clients[number]?.bind fun client => client.invocations[invocation]?.map fun run =>
    ⟨client.config, run.operation, run.phase.status?, run.phase.slate, run.executions device.world⟩

/-- What can be seen is that of an invocation. -/
theorem invokes_of_view {view : View D} (seen : device.view number invocation = some view) :
    ∃ run, device.Invokes number invocation view.client run ∧ run.operation = view.operation ∧
      run.phase.status? = view.status ∧ run.phase.slate = view.slate ∧
      run.executions device.world = view.executions := by
  obtain ⟨found, here, there⟩ := Option.bind_eq_some_iff.mp seen
  obtain ⟨run, made, rfl⟩ := Option.map_eq_some_iff.mp there
  exact ⟨run, ⟨found, here, rfl, made⟩, rfl, rfl, rfl, rfl⟩

/-- What has returned a status has returned. -/
theorem Phase.eq_returned {phase : Phase D} {status : Status} (returned : phase.status? = some status) :
    ∃ called, phase = .returned status called := by
  cases phase with
  | returned own called => exact ⟨called, by rw [Option.some.inj returned]⟩
  | _ => cases returned

end Views

theorem recommend_at_most_once_shown :
    ∃ run daemon ticket system call,
      (Device.run wordDaemon showing).Invokes 0 1 {} run ∧
      run.executions (Device.run wordDaemon showing).world = [(daemon, ticket)] ∧
      (Device.run wordDaemon showing).world.daemons[daemon]? = some system ∧
      system.calls[ticket]? = some call ∧ call.trace.filterMap charged = [5] := by
  have seen : (Device.run wordDaemon showing).view 0 1 =
      some ⟨{}, .recommend interest 1 false, some .success, [5], [(0, 1)]⟩ := by
    decide +kernel
  obtain ⟨run, invokes, recording, status, slate, _⟩ := invokes_of_view seen
  obtain ⟨called, phase⟩ := Phase.eq_returned status
  obtain ⟨outcome, daemon, ticket, system, call, rfl, caused, served, executed, _, _, charges⟩ :=
    (recommend_at_most_once wordDaemon showing 0 1 {} run invokes interest 1 recording rfl).2.1 _ _
      phase rfl
  refine ⟨run, daemon, ticket, system, call, invokes, caused, served, executed, ?_⟩
  rw [charges]
  rw [phase] at slate
  exact slate

end Lrd.Sdk
