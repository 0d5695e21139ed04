import Lrd.Sdk.Owners

/-!
# The pool's invariant

Every connection of a device has one owner: the deque of a client, a caller, or another
program. Each step moves, adds or drops one of them, and everything the owners rely on stays
true of the others (`Kept`). So a pool's count is what it has idle and checked out, and what
is idle is clean, in every interleaving (`pool_invariant`).
-/

namespace Lrd.Sdk

open Foundation Rank Proto Daemon Lrd.Client Lrd.Client.World

variable {D : Type} [Double D] {config : Config D}

/-! ## The invariant -/

/-- What holds of a device: its world was reached, its clients count rightly, and no connection
has two holders. -/
structure Kept (device : Device config) : Prop where
  reached : ∃ labels, device.world = World.run config labels
  counted : ∀ client ∈ device.clients, client.Counted
  single : device.owned.Nodup
  known : ∀ link ∈ device.owned, link < device.world.links.length
  opened : ∀ (link : Nat) found, device.world.links[link]? = some found →
    found.caller.isOpen = true → link ∈ device.owned
  fits : ∀ entry ∈ device.holders, Fits device.world entry.1 entry.2

variable {device : Device config} {client : Client D} {world : World config} {link : Nat}
  {label : Option (WorldLabel D)} {number invocation : Nat} {run changed : Invocation D}
  {pool : Pool}

/-- The world of the device is sound. -/
theorem Kept.sound (kept : Kept device) : Sound device.world := by
  obtain ⟨labels, same⟩ := kept.reached
  rw [same]
  exact run_sound config labels

/-- An invocation and its pool own what they hold. -/
theorem Kept.own (kept : Kept device) (member : client ∈ device.clients) {run : Invocation D}
    (made : run ∈ client.invocations) :
    Own device.world client.pool run := by
  apply own_of_fits
  intro entry inside
  apply kept.fits
  refine List.mem_append_right _ (List.mem_flatMap.mpr ⟨client, member, ?_⟩)
  rcases List.mem_append.mp inside with idle | held
  · exact List.mem_append_left _ idle
  · exact List.mem_append_right _ (List.mem_flatMap.mpr ⟨run, made, held⟩)

theorem reached_step (reached : ∃ labels, world = World.run config labels) (label : WorldLabel D) :
    ∃ labels, world.step label = World.run config labels := by
  obtain ⟨labels, rfl⟩ := reached
  exact ⟨labels ++ [label], (World.run_snoc labels label).symm⟩

omit [Double D] in
/-- A connection has one owner only. -/
theorem holder_unique (single : device.owned.Nodup) {holder other : Holder D}
    (first : (link, holder) ∈ device.holders) (second : (link, other) ∈ device.holders) :
    holder = other :=
  (Prod.mk.inj (List.inj_on_of_nodup_map single first second rfl)).2

/-- A step that no owner takes part in, but perhaps another program on a link of its own. -/
theorem Kept.passes (kept : Kept device) {label : WorldLabel D} (old : label ≠ .connect)
    (passive : ∀ link, link ∉ device.outside → Passive link device.world (device.world.step
      label)) :
    Kept { device with world := device.world.step label } where
  reached := reached_step kept.reached label
  counted := kept.counted
  single := kept.single
  known link member := (kept.known link member).trans_le (length_le_step ..)
  opened link found named isOpen := by
    rcases open_before named isOpen with ⟨before, had, wasOpen⟩ | ⟨connects, _⟩
    · exact kept.opened link before had wasOpen
    · exact absurd connects old
  fits entry member := by
    by_cases outside : entry.2 = .outside
    · rw [outside]
      trivial
    · refine (kept.fits entry member).passive (passive entry.1 ?_)
      intro joined
      refine outside (holder_unique kept.single member ?_)
      exact List.mem_append_left _ (List.mem_map_of_mem joined)

/-- A world after a label that may be none. -/
theorem reached_elim (reached : ∃ labels, world = World.run config labels)
    (label : Option (WorldLabel D)) :
    ∃ labels, label.elim world world.step = World.run config labels := by
  cases label with
  | none => exact reached
  | some label => exact reached_step reached label

/-- Links stay, whether the world has moved or not. -/
theorem length_le_elim (world : World config) (label : Option (WorldLabel D)) :
    world.links.length ≤ (label.elim world world.step).links.length := by
  cases label with
  | none => exact Nat.le_refl _
  | some label => exact length_le_step world label

/-- A link that is open was open before, or is new. -/
theorem open_before_elim {index : Nat} {moved : Link D}
    (found : (label.elim world world.step).links[index]? = some moved)
    (isOpen : moved.caller.isOpen = true) :
    (∃ link, world.links[index]? = some link ∧ link.caller.isOpen = true) ∨
      (label = some .connect ∧ index = world.links.length) := by
  cases label with
  | none => exact Or.inl ⟨moved, found, isOpen⟩
  | some label =>
      rcases open_before found isOpen with before | ⟨rfl, last⟩
      · exact Or.inl before
      · exact Or.inr ⟨rfl, last⟩

/-- A connection that its owner has closed is not open. -/
theorem not_open_closed (sound : Sound world) {found : Link D}
    (named : (world.step (.link link .callerCloses)).links[link]? = some found) :
    found.caller.isOpen = false := by
  rcases found_before named with ⟨before, had⟩ | ⟨connects, _⟩
  · obtain ⟨daemon, moved⟩ := found_link sound had .callerCloses
    obtain rfl := Option.some.inj (moved.symm.trans named)
    rfl
  · cases connects

/-- An action keeps the connections that are owned, adds one or drops one. -/
theorem owned_acts (found : device.clients[number]? = some client)
    (made : client.invocations[invocation]? = some run)
    (acts : Acts device.world client.config client.pool run pool changed label)
    {after : Device config}
    (acted : after = device.replace (label.elim device.world device.world.step) number
      (client.replace pool invocation changed)) :
    (label ≠ some .connect ∧ after.owned.Perm device.owned) ∨
      (label = some .connect ∧ after.owned.Perm (device.world.links.length :: device.owned)) ∨
      ∃ link, label = some (.link link .callerCloses) ∧
        device.owned.Perm (link :: after.owned) := by
  obtain ⟨others, before, later⟩ := holders_replace found made
  have had : device.owned.Perm
      (client.pool.idle ++ run.phase.held?.toList ++ others.map Prod.fst) := by
    rw [← map_fst_holders, ← List.map_append]
    exact before.map _
  have has : after.owned.Perm
      (pool.idle ++ changed.phase.held?.toList ++ others.map Prod.fst) := by
    rw [← map_fst_holders, ← List.map_append, acted]
    exact (later _ _ _).map _
  rcases acts.owned with ⟨other, same⟩ | ⟨connects, more⟩ | ⟨link, closes, less⟩
  · exact Or.inl ⟨other, has.trans ((same.append_right _).trans had.symm)⟩
  · exact Or.inr (Or.inl ⟨connects, has.trans ((more.append_right _).trans (had.symm.cons _))⟩)
  · exact Or.inr (Or.inr ⟨link, closes, had.trans ((less.append_right _).trans (has.symm.cons _))⟩)

/-- What the owners rely on stays true when an invocation acts. -/
theorem Kept.fits_acts (kept : Kept device) (found : device.clients[number]? = some client)
    (made : client.invocations[invocation]? = some run)
    (acts : Acts device.world client.config client.pool run pool changed label) :
    ∀ entry ∈ (device.replace (label.elim device.world device.world.step) number
      (client.replace pool invocation changed)).holders,
      Fits (label.elim device.world device.world.step) entry.1 entry.2 := by
  obtain ⟨others, before, after⟩ := holders_replace found made
  have apart : ∀ link, run.phase.held? = some link →
      link ∉ client.pool.idle ∧ link ∉ others.map Prod.fst := by
    intro link held
    have single := (before.map Prod.fst).nodup_iff.mp kept.single
    rw [List.map_append, map_fst_holders, held, Option.toList_some, List.append_assoc,
      List.singleton_append, List.perm_middle.nodup_iff, List.nodup_cons, List.mem_append,
      not_or] at single
    exact single.1
  intro entry member
  rcases List.mem_append.mp ((after _ _ _).mem_iff.mp member) with own | other
  · apply Own.fits _ entry own
    apply acts.own kept.sound _ fun link held => (apart link held).1
    apply own_of_fits
    intro earlier inside
    exact kept.fits earlier (before.mem_iff.mpr (List.mem_append_left _ inside))
  · have fits := kept.fits entry (before.mem_iff.mpr (List.mem_append_right _ other))
    apply fits.passive
    apply acts.passive
    intro held
    exact (apart _ held).2 (List.mem_map_of_mem other)

/-- Every action keeps the device. -/
theorem Kept.acts (kept : Kept device) (found : device.clients[number]? = some client)
    (made : client.invocations[invocation]? = some run)
    (acts : Acts device.world client.config client.pool run pool changed label) :
    Kept (device.replace (label.elim device.world device.world.step) number
      (client.replace pool invocation changed)) := by
  have owned := owned_acts found made acts rfl
  refine ⟨reached_elim kept.reached label, ?_, ?_, ?_, ?_, kept.fits_acts found made acts⟩
  · intro other member
    rcases List.mem_or_eq_of_mem_set member with old | rfl
    · exact kept.counted other old
    · exact (kept.counted client (List.mem_of_getElem? found)).acts made acts
  · rcases owned with ⟨_, same⟩ | ⟨_, more⟩ | ⟨link, _, less⟩
    · exact same.nodup_iff.mpr kept.single
    · refine more.nodup_iff.mpr (List.nodup_cons.mpr ⟨?_, kept.single⟩)
      exact fun inside => Nat.lt_irrefl _ (kept.known _ inside)
    · exact (List.nodup_cons.mp (less.nodup_iff.mp kept.single)).2
  · intro link member
    have longer := length_le_elim device.world label
    rcases owned with ⟨_, same⟩ | ⟨rfl, more⟩ | ⟨closed, _, less⟩
    · exact (kept.known link (same.mem_iff.mp member)).trans_le longer
    · rcases List.mem_cons.mp (more.mem_iff.mp member) with rfl | old
      · exact Nat.lt_of_lt_of_eq (Nat.lt_succ_self _) (length_connect _).symm
      · exact (kept.known link old).trans_le longer
    · exact (kept.known link (less.mem_iff.mpr (List.mem_cons_of_mem _ member))).trans_le longer
  · intro link moved named isOpen
    rcases open_before_elim named isOpen with ⟨earlier, had, wasOpen⟩ | ⟨connects, rfl⟩
    · have inside := kept.opened link earlier had wasOpen
      rcases owned with ⟨_, same⟩ | ⟨_, more⟩ | ⟨closed, rfl, less⟩
      · exact same.mem_iff.mpr inside
      · exact more.mem_iff.mpr (List.mem_cons_of_mem _ inside)
      · rcases List.mem_cons.mp (less.mem_iff.mp inside) with rfl | stays
        · rw [not_open_closed kept.sound named] at isOpen
          cases isOpen
        · exact stays
    · rcases owned with ⟨other, _⟩ | ⟨_, more⟩ | ⟨_, closes, _⟩
      · exact absurd connects other
      · exact more.mem_iff.mpr List.mem_cons_self
      · cases connects.symm.trans closes

omit [Double D] in
/-- A new invocation holds nothing. -/
theorem holders_start {number : Nat} (found : device.clients[number]? = some client)
    (operation : Operation D) :
    (device.replace device.world number { client with
      invocations := client.invocations ++ [.start client.config operation] }).holders.Perm
        device.holders := by
  obtain ⟨others, before, after⟩ := flatMap_set Client.holders found
  have none : (Invocation.start client.config operation).holders = [] :=
    Invocation.holders_nil (Invocation.loop_phase ..).1
  have same : Client.holders { client with
      invocations := client.invocations ++ [.start client.config operation] } = client.holders := by
    simp only [Client.holders, List.flatMap_append, List.flatMap_cons, none, List.flatMap_nil,
      List.append_nil]
  refine List.Perm.append_left _ ((after _).trans ?_)
  rw [same]
  exact before.symm

/-- A new invocation keeps the device. -/
theorem Kept.start (kept : Kept device) {number : Nat}
    (found : device.clients[number]? = some client) (operation : Operation D) :
    Kept (device.replace device.world number { client with
      invocations := client.invocations ++ [.start client.config operation] }) := by
  have holders := holders_start found operation
  have owned := holders.map Prod.fst
  refine ⟨kept.reached, ?_, owned.nodup_iff.mpr kept.single, ?_, ?_, ?_⟩
  · intro other member
    rcases List.mem_or_eq_of_mem_set member with old | rfl
    · exact kept.counted other old
    · obtain ⟨total, bounded⟩ := kept.counted client (List.mem_of_getElem? found)
      refine ⟨?_, bounded⟩
      have idle : (Invocation.start client.config operation).phase.isBusy = false :=
        (Invocation.loop_phase ..).2
      simp only [Client.busy, List.countP_append, List.countP_singleton, idle]
      exact total
  · intro link member
    exact kept.known link (owned.mem_iff.mp member)
  · intro link moved named isOpen
    exact owned.mem_iff.mpr (kept.opened link moved named isOpen)
  · intro entry member
    exact kept.fits entry (holders.mem_iff.mp member)

/-- A new connection gets its first owner. -/
theorem Kept.join {device joined : Device config} (kept : Kept device)
    (world : joined.world = device.world.step .connect)
    (counted : ∀ client ∈ joined.clients, client.Counted) (holder : Holder D)
    (holders : joined.holders.Perm ((device.world.links.length, holder) :: device.holders))
    (fits : Fits joined.world device.world.links.length holder) : Kept joined := by
  have owned : joined.owned.Perm (device.world.links.length :: device.owned) := holders.map Prod.fst
  refine ⟨?_, counted, ?_, ?_, ?_, ?_⟩
  · rw [world]
    exact reached_step kept.reached .connect
  · rw [owned.nodup_iff, List.nodup_cons]
    exact ⟨fun inside => Nat.lt_irrefl _ (kept.known _ inside), kept.single⟩
  · intro link member
    rw [world, length_connect]
    rcases List.mem_cons.mp (owned.mem_iff.mp member) with rfl | old
    · exact Nat.lt_succ_self _
    · exact (kept.known link old).trans (Nat.lt_succ_self _)
  · intro link moved named isOpen
    rw [world] at named
    rw [owned.mem_iff]
    rcases open_before named isOpen with ⟨before, had, wasOpen⟩ | ⟨_, rfl⟩
    · exact List.mem_cons_of_mem _ (kept.opened link before had wasOpen)
    · exact List.mem_cons_self
  · intro entry member
    rcases List.mem_cons.mp (holders.mem_iff.mp member) with rfl | old
    · exact fits
    · rw [world]
      exact (kept.fits entry old).passive (passive_connect _ _)

/-- A new client keeps the device. -/
theorem Kept.connect (kept : Kept device) {client : ClientConfig}
    (some : client.maxConnections ≠ 0) :
    Kept { device with
      world := device.world.step .connect
      clients := device.clients ++ [⟨client, ⟨[device.world.links.length], 1⟩, []⟩] } := by
  refine kept.join rfl ?_ .idle ?_ ready_connect
  · intro other member
    rcases List.mem_append.mp member with old | new
    · exact kept.counted other old
    · rw [List.mem_singleton.mp new]
      refine ⟨rfl, Nat.one_le_iff_ne_zero.mpr fun zero => some ?_⟩
      exact UInt64.toNat_inj.mp zero
  · simp only [Device.holders, List.flatMap_append, List.flatMap_cons, List.flatMap_nil,
      List.append_nil, ← List.append_assoc]
    exact List.perm_append_singleton _ _

/-- A connection from elsewhere keeps the device. -/
theorem Kept.dial (kept : Kept device) :
    Kept { device with
      world := device.world.step .connect
      outside := device.outside ++ [device.world.links.length] } := by
  refine kept.join rfl kept.counted .outside ?_ trivial
  simp only [Device.holders, List.map_append, List.append_assoc]
  exact List.perm_middle

/-- Every step keeps the device. -/
theorem Kept.step (kept : Kept device) (label : DeviceLabel D) :
    Kept (device.step label) := by
  have moves := device.moves label
  generalize device.step label = after at moves ⊢
  cases moves with
  | stays => exact kept
  | connects room => exact kept.connect room
  | starts found operation => exact kept.start found operation
  | acts found made acts => exact kept.acts found made acts
  | dials => exact kept.dial
  | passes old passive => exact kept.passes old passive

/-- A first device. -/
theorem kept_initial : Kept (Device.initial config) where
  reached := ⟨[], rfl⟩
  counted _ member := absurd member List.not_mem_nil
  single := List.nodup_nil
  known _ member := absurd member List.not_mem_nil
  opened _ _ found := by cases found
  fits _ member := absurd member List.not_mem_nil

/-- Every run keeps the device. -/
theorem run_kept (config : Config D) (labels : List (DeviceLabel D)) :
    Kept (Device.run config labels) := by
  induction labels using List.reverseRecOn with
  | nil => exact kept_initial
  | append_singleton labels label ih =>
      rw [Device.run_snoc]
      exact ih.step label

/-! ## Connections after a failure -/

/-- A device's world takes at most one step at a time. -/
theorem step_world (device : Device config) (label : DeviceLabel D) :
    ∃ own : Option (WorldLabel D),
      (device.step label).world = own.elim device.world device.world.step := by
  have moves := device.moves label
  generalize device.step label = after at moves ⊢
  cases moves with
  | stays => exact ⟨none, rfl⟩
  | connects _ => exact ⟨some .connect, rfl⟩
  | starts found operation => exact ⟨none, rfl⟩
  | acts found made acts => exact ⟨_, rfl⟩
  | dials => exact ⟨some .connect, rfl⟩
  | passes old passive => exact ⟨some _, rfl⟩

/-- An invocation of a client, by their numbers. -/
def Device.Invokes (device : Device config) (number invocation : Nat) (client : ClientConfig)
    (run : Invocation D) : Prop :=
  ∃ found, device.clients[number]? = some found ∧ found.config = client ∧
    found.invocations[invocation]? = some run

omit [Double D] in
/-- The same invocation after another one has changed. -/
theorem Device.Invokes.replace {client : ClientConfig} {run : Invocation D}
    (invokes : device.Invokes number invocation client run) {other : Nat} {found changed : Client D}
    (had : device.clients[other]? = some found) (config_ : changed.config = found.config)
    (kept : number = other → changed.invocations[invocation]? = found.invocations[invocation]?)
    (world : World config) :
    (device.replace world other changed).Invokes number invocation client run := by
  obtain ⟨own, here, rfl, made⟩ := invokes
  by_cases same : other = number
  · subst same
    obtain rfl := Option.some.inj (here.symm.trans had)
    obtain ⟨inside, _⟩ := List.getElem?_eq_some_iff.mp had
    exact ⟨changed, List.getElem?_set_self inside, config_, (kept rfl).trans made⟩
  · exact ⟨own, (List.getElem?_set_ne same).trans here, rfl, made⟩

/-- An invocation stays as it is until it acts. -/
theorem step_invokes {client : ClientConfig} {run : Invocation D}
    (invokes : device.Invokes number invocation client run) (label : DeviceLabel D) :
    (device.step label).Invokes number invocation client run ∨
      ∃ pool pool' changed own, Acts device.world client pool run pool' changed own ∧
        (device.step label).world = own.elim device.world device.world.step ∧
        (device.step label).Invokes number invocation client changed := by
  have moves := device.moves label
  generalize device.step label = after at moves ⊢
  cases moves with
  | stays => exact Or.inl invokes
  | connects _ =>
      obtain ⟨found, here, same, made⟩ := invokes
      exact Or.inl ⟨found, found_append here _, same, made⟩
  | starts had operation =>
      obtain ⟨own, here, same, made⟩ := invokes
      refine Or.inl (Device.Invokes.replace ⟨own, here, same, made⟩ had ?_ ?_ _)
      · rfl
      · rintro rfl
        obtain rfl := Option.some.inj (here.symm.trans had)
        rw [made]
        exact found_append made _
  | @acts other acting found moving changed pool own had made acts =>
      by_cases same : number = other ∧ invocation = acting
      · obtain ⟨rfl, rfl⟩ := same
        obtain ⟨owner, here, rfl, here'⟩ := invokes
        obtain rfl := Option.some.inj (here.symm.trans had)
        obtain rfl := Option.some.inj (here'.symm.trans made)
        obtain ⟨inClients, _⟩ := List.getElem?_eq_some_iff.mp had
        obtain ⟨inInvocations, _⟩ := List.getElem?_eq_some_iff.mp made
        exact Or.inr ⟨_, _, _, _, acts, rfl, _, List.getElem?_set_self inClients, rfl,
          List.getElem?_set_self inInvocations⟩
      · refine Or.inl (invokes.replace had ?_ ?_ _)
        · rfl
        · intro here
          exact List.getElem?_set_ne fun there => same ⟨here, there.symm⟩
  | dials => exact Or.inl invokes
  | passes old passive => exact Or.inl invokes

/-- A connection is closed. -/
def Closed (world : World config) (link : Nat) : Prop :=
  ∃ found, world.links[link]? = some found ∧ found.caller = .closed

/-- A closed link stays closed. -/
theorem Closed.step (closed : Closed world link) (label : WorldLabel D) :
    Closed (world.step label) link := by
  obtain ⟨found, named, phase⟩ := closed
  obtain ⟨moved, here, rfl | ⟨daemon, own, rfl, _⟩⟩ := step_moves named label
  · exact ⟨moved, here, phase⟩
  · exact ⟨_, here, (step_dead daemon.calls phase own).closed⟩

/-- The outcomes after which a connection cannot be used. -/
def isLost (called : Called D) : Prop :=
  called.status = .connectionLost ∨ called.status = .protocolError

/-- The last call on a connection failed and its caller has not yet given it up, or it is
closed. -/
def Spoiled (device : Device config) (number invocation link : Nat) : Prop :=
  (∃ client run called, device.Invokes number invocation client run ∧
    run.phase = .releasing link called ∧ isLost called) ∨ Closed device.world link

/-- What is released is what was held. -/
theorem Acts.releasing {client : ClientConfig} {pool pool' : Pool}
    (acts : Acts world client pool run pool' changed label) {called : Called D}
    (phase : run.phase = .releasing link called) :
    marksFailed (mapStatus called.status) = false ∨ label = some (.link link .callerCloses) := by
  cases acts with
  | kept other outcome same healthy =>
      obtain ⟨rfl, rfl⟩ := Phase.releasing.inj (phase.symm.trans same)
      exact Or.inl healthy
  | dropped other outcome same =>
      obtain ⟨rfl, rfl⟩ := Phase.releasing.inj (phase.symm.trans same)
      exact Or.inr rfl
  | take _ _ other | reserve other | timeOut other | opened other | openFails other
  | refused _ _ other | called _ other | finished _ _ other => cases phase.symm.trans other

omit [Double D] in
/-- Who has a connection in hands is a holder of the device. -/
theorem Device.Invokes.holder {client : ClientConfig} {run : Invocation D}
    (invokes : device.Invokes number invocation client run) (held : run.phase.held? = some link) :
    (link, .caller run) ∈ device.holders := by
  obtain ⟨found, here, _, made⟩ := invokes
  refine List.mem_append_right _ (List.mem_flatMap.mpr ⟨found, List.mem_of_getElem? here, ?_⟩)
  refine List.mem_append_right _ (List.mem_flatMap.mpr ⟨run, List.mem_of_getElem? made, ?_⟩)
  rw [Invocation.holders_held held]
  exact List.mem_singleton.mpr rfl

/-- A spoiled connection is never used again. -/
theorem Spoiled.step (kept : Kept device) {number invocation link : Nat}
    (spoiled : Spoiled device number invocation link) (label : DeviceLabel D) :
    Spoiled (device.step label) number invocation link := by
  rcases spoiled with ⟨client, run, called, invokes, phase, lost⟩ | closed
  · rcases step_invokes invokes label with still | ⟨pool, pool', changed, own, acts, world, _⟩
    · exact Or.inl ⟨client, run, called, still, phase, lost⟩
    · refine Or.inr ?_
      rw [world]
      rcases acts.releasing phase with healthy | rfl
      · rcases lost with lost | lost
        · rw [lost] at healthy
          cases healthy
        · rw [lost] at healthy
          cases healthy
      · have rests := kept.fits _ (invokes.holder (by rw [phase]; rfl))
        simp only [Fits, phase] at rests
        obtain ⟨found, named, _⟩ := rests
        obtain ⟨daemon, moved⟩ := found_link kept.sound named .callerCloses
        exact ⟨_, moved, rfl⟩
  · obtain ⟨own, world⟩ := step_world device label
    refine Or.inr ?_
    rw [world]
    cases own with
    | none => exact closed
    | some own => exact closed.step own

/-- A spoiled connection is in no deque. -/
theorem Spoiled.not_idle (kept : Kept device) {number invocation link : Nat}
    (spoiled : Spoiled device number invocation link) :
    ∀ client ∈ device.clients, link ∉ client.pool.idle := by
  intro client member idle
  have holder : (link, .idle) ∈ device.holders := by
    refine List.mem_append_right _ (List.mem_flatMap.mpr ⟨client, member, ?_⟩)
    exact List.mem_append_left _ (List.mem_map_of_mem idle)
  rcases spoiled with ⟨_, run, called, invokes, phase, _⟩ | ⟨found, named, closed⟩
  · have own := invokes.holder (show run.phase.held? = some link by rw [phase]; rfl)
    cases holder_unique kept.single holder own
  · obtain ⟨other, here, ready⟩ : Ready device.world link := kept.fits _ holder
    obtain rfl := Option.some.inj (named.symm.trans here)
    rw [ready] at closed
    cases closed

/-! ## The pool of a client -/

/-- A connection is open, and it was never used or its last call returned the response to
its request. -/
def Clean (world : World config) (link : Nat) : Prop :=
  ∃ found, world.links[link]? = some found ∧ found.caller = .ready ∧
    (found.sent = [] ∨ ∃ request called, found.finished.getLast? = some (request, called) ∧
      called.status ∈ [.ok, .invalidRequest, .serverError] ∧
      Matched world found request called.response)

/-- A ready link of a run is clean. -/
theorem clean_of_ready {labels : List (WorldLabel D)} (ready : Ready (World.run config labels) link) :
    Clean (World.run config labels) link := by
  obtain ⟨found, named, phase⟩ := ready
  refine ⟨found, named, phase, ?_⟩
  have sound := run_sound config labels
  have member := List.mem_of_getElem? named
  rcases List.eq_nil_or_concat found.finished with none | ⟨earlier, ⟨request, called⟩, split⟩
  · refine Or.inl (List.eq_nil_of_length_eq_zero ?_)
    rw [sent_of_ready sound member phase, none]
    rfl
  · rw [List.concat_eq_append] at split
    have last : (request, called) ∈ found.finished := by
      rw [split]
      exact List.mem_append_right _ (List.mem_singleton.mpr rfl)
    obtain ⟨_, _, sync⟩ := sound.links found member
    have connected : called.connected = true := sync.connected (by rw [phase]; rfl) _ last
    refine Or.inr ⟨request, called, ?_, ?_, ?_⟩
    · rw [split]
      exact List.getLast?_concat
    · have settled : called.Settled := run_settled config labels link found named _ last
      unfold Called.Settled at settled
      cases status : called.status with
      | ok => exact List.mem_cons_self
      | invalidRequest => exact List.mem_cons_of_mem _ List.mem_cons_self
      | serverError => exact List.mem_cons_of_mem _ (List.mem_cons_of_mem _ List.mem_cons_self)
      | connectionLost | protocolError =>
          rw [status] at settled
          rw [settled] at connected
          cases connected
      | notFound =>
          rw [status] at settled
          exact settled.elim
    · exact sound.matched (run_attributed config labels) member phase split connected

/-- A client's count is the number of its idle connections and of its invocations that have
a connection or a reserved slot. It stays within the limit, and it is positive whenever it
is decremented. Idle connections are clean, every open connection has one owner and none has
two, and a connection whose call failed never is idle again. -/
theorem pool_invariant (config : Config D) (labels : List (DeviceLabel D)) :
    (∀ client ∈ (Device.run config labels).clients,
      client.pool.total.toNat = client.pool.idle.length + client.busy ∧
      client.pool.total ≤ client.config.maxConnections ∧
      (∀ run ∈ client.invocations, run.phase.isBusy = true → 0 < client.pool.total) ∧
      ∀ link ∈ client.pool.idle, Clean (Device.run config labels).world link) ∧
    (Device.run config labels).owned.Nodup ∧
    (∀ (link : Nat) found, (Device.run config labels).world.links[link]? = some found →
      found.caller.isOpen = true → link ∈ (Device.run config labels).owned) ∧
    ∀ number invocation client run link called,
      (Device.run config labels).Invokes number invocation client run →
      run.phase = .releasing link called → isLost called →
      ∀ later, ∀ other ∈ (Device.run config (labels ++ later)).clients, link ∉ other.pool.idle := by
  have kept := run_kept config labels
  refine ⟨?_, kept.single, kept.opened, ?_⟩
  · intro client member
    have counted := kept.counted client member
    refine ⟨counted.total, UInt64.le_iff_toNat_le.mpr counted.bounded, ?_, ?_⟩
    · intro run made busy
      exact UInt64.lt_iff_toNat_lt.mpr (counted.positive made busy)
    · intro link idle
      have ready : Ready (Device.run config labels).world link := by
        apply kept.fits (link, .idle)
        refine List.mem_append_right _ (List.mem_flatMap.mpr ⟨client, member, ?_⟩)
        exact List.mem_append_left _ (List.mem_map_of_mem idle)
      obtain ⟨reached, same⟩ := kept.reached
      rw [same] at ready ⊢
      exact clean_of_ready ready
  · intro number invocation client run link called invokes phase lost later
    have spoiled : Spoiled (Device.run config (labels ++ later)) number invocation link := by
      induction later using List.reverseRecOn with
      | nil =>
          rw [List.append_nil]
          exact Or.inl ⟨client, run, called, invokes, phase, lost⟩
      | append_singleton later label ih =>
          rw [← List.append_assoc, Device.run_snoc]
          exact ih.step (run_kept config (labels ++ later)) label
    exact spoiled.not_idle (run_kept config (labels ++ later))

end Lrd.Sdk
