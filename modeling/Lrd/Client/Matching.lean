import Lrd.Client.Session

/-!
# Replies of whole runs

Over runs of all links and all incarnations of the daemon. Every link stays synchronised
with its incarnation (`run_sound`), and every call of a handler was made for exactly one
request of one link (`run_attributed`). So every reply that a connection accepts answers
its own request (`replies_matched`).
-/

namespace Lrd.Client

open Foundation Rank Proto BinaryCodec Daemon

variable {D : Type}

/-! ## The records of a link -/

section Records

variable [BitCast D] {S : Signature} (calls : List (Call S (Request D) (Response D)))
  (link : Link D)

/-- A link stays with its daemon. -/
theorem step_daemon (label : LinkLabel D) : (link.step calls label).1.daemon = link.daemon := by
  cases label with
  | workerReads count =>
      simp only [Link.step, Link.workerReads, Link.startReply]
      repeat' split
      all_goals rfl
  | _ =>
      simp only [Link.step, Link.call, Link.operate, Link.callerSends, Link.callerReads,
        Link.callerFails, Link.workerReplies, Link.workerSends, Link.finish, Link.startReply]
      repeat' split
      all_goals rfl

/-- A reply that starts is that of a request already served. -/
theorem served_startReply (response : Response D) :
    (link.startReply response).served = link.served := by
  unfold Link.startReply
  split
  · rfl
  · rfl

/-- A label records at most one frame as served. A request that is executed gets the next
ticket and is passed to the handler. -/
theorem step_served (label : LinkLabel D) :
    (∃ request, (link.step calls label).1.served = link.served ++ [.executed request calls.length] ∧
      (link.step calls label).2 = some request) ∨
    (∃ response, (link.step calls label).1.served = link.served ++ [.rejected response] ∧
      (link.step calls label).2 = none) ∨
    (link.step calls label).1.served = link.served ∧ (link.step calls label).2 = none := by
  cases label with
  | workerReads count =>
      simp only [Link.step, Link.workerReads]
      split
      · split
        · exact Or.inr (Or.inr ⟨rfl, rfl⟩)
        · exact Or.inr (Or.inr ⟨rfl, rfl⟩)
        · split
          · rename_i request _
            exact Or.inl ⟨request, rfl, rfl⟩
          · rename_i response _
            exact Or.inr (Or.inl ⟨response, served_startReply _ response, rfl⟩)
          · exact Or.inr (Or.inr ⟨rfl, rfl⟩)
      · exact Or.inr (Or.inr ⟨rfl, rfl⟩)
  | workerReplies =>
      refine Or.inr (Or.inr ⟨?_, rfl⟩)
      simp only [Link.step, Link.workerReplies]
      split
      · split
        · exact served_startReply link _
        · rfl
      · rfl
  | _ =>
      refine Or.inr (Or.inr ⟨?_, rfl⟩)
      simp only [Link.step, Link.call, Link.operate, Link.callerSends, Link.callerReads,
        Link.callerFails, Link.workerSends, Link.finish]
      repeat' split
      all_goals rfl

omit [BitCast D] in
/-- What the status of a call says about its connection. -/
def Called.Settled (called : Called D) : Prop :=
  match called.status with
  | .ok | .invalidRequest | .serverError => called.connected = true
  | .connectionLost | .protocolError => called.connected = false
  | .notFound => False

/-- What is concluded from a reply is settled. -/
theorem settled_conclude (request : Request D) (out : Response D) (body : Bytes) :
    (conclude request out body).Settled := by
  unfold conclude
  rcases decodeResponse body out with ⟨error, response⟩
  simp only
  split
  · rfl
  · split
    · rfl
    · split
      · split
        · rfl
        · rfl
      · rfl

omit [BitCast D] in
/-- At most one call returns, and the connection is open afterwards exactly if the call
says so. -/
def Link.Returns (before after : Link D) : Prop :=
  after.finished = before.finished ∨
    ∃ request called, called.Settled ∧ after.finished = before.finished ++ [(request, called)] ∧
      after.caller = if called.connected then .ready else .closed

omit [BitCast D] in
theorem Link.returns_finish (request : Request D) {called : Called D} (settled : called.Settled) :
    link.Returns (link.finish request called) :=
  Or.inr ⟨request, called, settled, rfl, rfl⟩

/-- A call that begins returns nothing, unless it cannot be sent. -/
theorem Link.returns_call (request : Request D) : link.Returns (link.call request) := by
  unfold Link.call
  split
  · split
    · exact Or.inl rfl
    · exact link.returns_finish request rfl
  · exact link.returns_finish request rfl
  · exact Or.inl rfl

/-- Every step of a link returns what is settled. -/
theorem step_returns (label : LinkLabel D) : link.Returns (link.step calls label).1 := by
  cases label with
  | call request => exact link.returns_call request
  | operate body =>
      simp only [Link.step, Link.operate]
      split
      · exact Link.returns_call { link with nextRequestId := link.nextRequestId + 1 } _
      · exact Link.returns_call { link with nextRequestId := link.nextRequestId + 1 } _
      · exact Or.inl rfl
  | callerReads count =>
      simp only [Link.step, Link.callerReads]
      split
      · split
        · exact Or.inl rfl
        · exact Link.returns_finish { link with toCaller := _ } _ rfl
        · exact Link.returns_finish { link with toCaller := _ } _ (settled_conclude _ _ _)
      · exact Or.inl rfl
  | callerFails status =>
      simp only [Link.step, Link.callerFails]
      split
      · exact link.returns_finish _ rfl
      · exact link.returns_finish _ rfl
      · exact Or.inl rfl
  | _ =>
      refine Or.inl ?_
      simp only [Link.step, Link.callerSends, Link.workerReads, Link.workerReplies,
        Link.workerSends, Link.startReply]
      repeat' split
      all_goals rfl

omit [BitCast D] in
/-- A connection is closed, and since an earlier state all calls on it have failed. -/
structure Link.Dead (before after : Link D) : Prop where
  closed : after.caller = .closed
  failed : ∃ failed, after.finished = before.finished ++ failed ∧
    ∀ entry ∈ failed, entry.2.status = .connectionLost

omit [BitCast D] in
theorem Link.dead_of_eq {before after : Link D} (closed : after.caller = .closed)
    (same : after.finished = before.finished) : before.Dead after :=
  ⟨closed, [], by rw [same, List.append_nil], fun _ member => absurd member List.not_mem_nil⟩

variable {link}

/-- A call on a closed link fails at once. -/
theorem call_dead (request : Request D) (closed : link.caller = .closed) :
    link.Dead (link.call request) := by
  simp only [Link.call, closed]
  refine ⟨rfl, _, rfl, ?_⟩
  intro entry member
  rw [List.mem_singleton.mp member]
  rfl

/-- A closed connection stays closed, and every call on it fails. -/
theorem step_dead (closed : link.caller = .closed) (label : LinkLabel D) :
    link.Dead (link.step calls label).1 := by
  cases label with
  | call request => exact call_dead request closed
  | operate body =>
      let numbered : Link D := { link with nextRequestId := link.nextRequestId + 1 }
      have dead : numbered.Dead (numbered.call ⟨link.nextRequestId, body⟩) := call_dead _ closed
      simp only [Link.step, Link.operate]
      split
      · exact ⟨dead.closed, dead.failed⟩
      · exact ⟨dead.closed, dead.failed⟩
      · exact Link.dead_of_eq closed rfl
  | callerCloses => exact Link.dead_of_eq rfl rfl
  | callerSends _ | callerReads _ | callerFails _ =>
      simp only [Link.step, Link.callerSends, Link.callerReads, Link.callerFails, closed]
      exact Link.dead_of_eq closed rfl
  | _ =>
      refine Link.dead_of_eq ?_ ?_
      all_goals
        simp only [Link.step, Link.workerReads, Link.workerReplies, Link.workerSends,
          Link.startReply]
        repeat' split
        all_goals first | rfl | exact closed

end Records

/-! ## Runs -/

variable {index : Nat}

namespace World

variable [Double D] {config : Config D}

/-- Every incarnation of the daemon has only been passed decoded requests, and every link
is synchronised with its own. -/
structure Sound (world : World config) : Prop where
  running : world.daemons ≠ []
  daemons : ∀ daemon ∈ world.daemons, ∃ schedule, daemon = reached config schedule ∧
    Decoded schedule
  links : ∀ link ∈ world.links, ∃ daemon, world.daemons[link.daemon]? = some daemon ∧
    Synchronised daemon.calls link

/-- Every incarnation carries on its calls. -/
def Extends (before after : World config) : Prop :=
  ∀ (index : Nat) daemon, before.daemons[index]? = some daemon →
    ∃ later, after.daemons[index]? = some later ∧ System.CarryOn daemon.calls later.calls

variable {before after : World config} {world : World config}
  {daemon : System (steps config) (State config) (Request D) (Response D)}

/-- What happens to the links under a daemon that carries on. -/
theorem Sound.carryOn (sound : Sound before) (extends_ : Extends before after) {link : Link D}
    (member : link ∈ before.links) :
    ∃ daemon, after.daemons[link.daemon]? = some daemon ∧ Synchronised daemon.calls link := by
  obtain ⟨daemon, found, sync⟩ := sound.links link member
  obtain ⟨later, foundLater, carry⟩ := extends_ link.daemon daemon found
  exact ⟨later, foundLater, sync.carryOn carry⟩

/-- A step of a daemon keeps what there was. -/
theorem extends_stepDaemon (world : World config) (index : Nat)
    (label : Label Timestamp (Request D)) : Extends world (world.stepDaemon index label) := by
  intro other daemon found
  rw [stepDaemon, List.getElem?_modify, found]
  refine ⟨_, rfl, ?_⟩
  split
  · exact System.step_carryOn _ daemon label
  · exact System.CarryOn.refl _

/-- A step of a daemon is a step of that daemon. -/
theorem stepDaemon_self (found : world.daemons[index]? = some daemon)
    (label : Label Timestamp (Request D)) :
    (world.stepDaemon index label).daemons[index]? = some (daemon.step (workers config) label) := by
  rw [stepDaemon, List.getElem?_modify_eq, found]
  rfl

/-- An incarnation that performs a step or is passed a decoded request. -/
theorem decoded_stepDaemon {label : Label Timestamp (Request D)}
    (decoded : ∀ request, label = .invoke request → ∃ body out, decodeRequest body out =
      (.none, request))
    (daemons : ∀ daemon ∈ world.daemons, ∃ schedule, daemon = reached config schedule ∧
      Decoded schedule) :
    ∀ daemon ∈ (world.stepDaemon index label).daemons, ∃ schedule,
      daemon = reached config schedule ∧ Decoded schedule := by
  intro daemon member
  obtain ⟨place, found⟩ := List.getElem?_of_mem member
  rw [stepDaemon, List.getElem?_modify] at found
  obtain ⟨before, foundBefore, same⟩ := Option.map_eq_some_iff.mp found
  obtain ⟨schedule, reachedBy, earlier⟩ := daemons before (List.mem_of_getElem? foundBefore)
  split at same
  · refine ⟨schedule ++ [label], ?_, ?_⟩
    · rw [← same, reachedBy]
      exact (System.run_snoc _ schedule label).symm
    · intro request invoked
      rcases List.mem_append.mp invoked with old | fresh
      · exact earlier request old
      · exact decoded request (List.mem_singleton.mp fresh).symm
  · exact ⟨schedule, same.symm.trans reachedBy, earlier⟩

/-- A response to a decoded request is accepted. -/
theorem accepts_of_decoded {schedule : List (Label Timestamp (Request D))}
    (reachedBy : daemon = reached config schedule) (decoded : Decoded schedule) (ticket : Nat)
    (call : Call (steps config) (Request D) (Response D)) (response : Response D)
    (made : daemon.calls[ticket]? = some call) (finished : call.result? = some response) :
    Accepted call.request.requestId response := by
  subst reachedBy
  exact accepted_of_finished decoded (List.mem_of_getElem? made) finished

/-- The first world is sound. -/
theorem sound_initial : Sound (initial config) where
  running := List.cons_ne_nil _ _
  daemons daemon member := by
    rw [List.mem_singleton.mp member]
    exact ⟨[], rfl, nofun⟩
  links _ member := absurd member List.not_mem_nil

/-- A new link is sound. -/
theorem Sound.connect (sound : Sound world) :
    Sound (world.step .connect) := by
  refine ⟨sound.running, sound.daemons, ?_⟩
  intro link member
  rcases List.mem_append.mp member with old | fresh
  · exact sound.links link old
  · rw [List.mem_singleton.mp fresh]
    have some : 0 < world.daemons.length := List.length_pos_iff.mpr sound.running
    exact ⟨_, List.getElem?_eq_getElem (Nat.sub_one_lt_of_lt some), synchronised_fresh _⟩

/-- A daemon that is given decoded requests stays sound. -/
theorem Sound.stepDaemon (sound : Sound world) (index : Nat) {label : Label Timestamp (Request D)}
    (decoded : ∀ request, label = .invoke request → ∃ body out, decodeRequest body out =
      (.none, request)) :
    Sound (world.stepDaemon index label) where
  running := by
    rw [World.stepDaemon, ← List.length_pos_iff, List.length_modify]
    exact List.length_pos_iff.mpr sound.running
  daemons := decoded_stepDaemon decoded sound.daemons
  links _ member := sound.carryOn (extends_stepDaemon world index label) member

/-- A new daemon is sound. -/
theorem Sound.restart (sound : Sound world) :
    Sound (world.step .restart) := by
  refine ⟨List.append_ne_nil_of_right_ne_nil _ (List.cons_ne_nil _ _), ?_, ?_⟩
  · intro daemon member
    rcases List.mem_append.mp member with old | fresh
    · exact sound.daemons daemon old
    · rw [List.mem_singleton.mp fresh]
      exact ⟨[], rfl, nofun⟩
  · intro link member
    obtain ⟨before, inside, rfl⟩ := List.mem_map.mp member
    obtain ⟨daemon, found, sync⟩ := sound.links before inside
    exact ⟨daemon, found_append found _, sync.workerCloses⟩

/-- What a label does to the link that it names. -/
theorem step_link {link : Link D} (named : world.links[index]? = some link)
    (served : world.daemons[link.daemon]? = some daemon) (label : LinkLabel D) :
    world.step (.link index label) =
      match (link.step daemon.calls label).2 with
      | none => { world with links := world.links.set index (link.step daemon.calls label).1 }
      | some request =>
          stepDaemon { world with links := world.links.set index (link.step daemon.calls label).1 }
            link.daemon (.invoke request) := by
  rcases moved : link.step daemon.calls label with ⟨next, _ | request⟩
  · simp only [step, named, served, moved]
  · simp only [step, named, served, moved]

/-- Every step of a link is sound. -/
theorem Sound.link (sound : Sound world) (index : Nat) (label : LinkLabel D) :
    Sound (world.step (.link index label)) := by
  cases named : world.links[index]? with
  | none =>
      simp only [step, named]
      exact sound
  | some link =>
      obtain ⟨daemon, served, sync⟩ := sound.links link (List.mem_of_getElem? named)
      obtain ⟨schedule, reachedBy, decoded⟩ := sound.daemons daemon (List.mem_of_getElem? served)
      have accepts := accepts_of_decoded reachedBy decoded
      rw [step_link named served]
      split
      · rename_i nothing
        refine ⟨sound.running, sound.daemons, ?_⟩
        intro other member
        rcases List.mem_or_eq_of_mem_set member with old | rfl
        · exact sound.links other old
        · refine ⟨daemon, ?_, ?_⟩
          · rw [step_daemon]
            exact served
          · apply sync.step label accepts (System.CarryOn.refl _)
            intro request passed
            rw [nothing] at passed
            cases passed
      · rename_i request passes
        have passing : Sound (world.stepDaemon link.daemon (.invoke request)) := by
          apply sound.stepDaemon
          intro other same
          rw [← Label.invoke.inj same]
          exact decoded_of_passed passes
        refine ⟨passing.running, passing.daemons, ?_⟩
        intro other member
        rcases List.mem_or_eq_of_mem_set member with old | rfl
        · exact passing.links other old
        · refine ⟨daemon.step (workers config) (.invoke request), ?_, ?_⟩
          · rw [step_daemon]
            exact stepDaemon_self served _
          · apply sync.step label accepts (System.step_carryOn _ daemon _)
            intro other passed
            obtain rfl := Option.some.inj (passes.symm.trans passed)
            exact ⟨_, List.getElem?_concat_length, rfl⟩

/-- Every step is sound. -/
theorem Sound.step (sound : Sound world) (label : WorldLabel D) :
    Sound (world.step label) := by
  cases label with
  | connect => exact sound.connect
  | link index label => exact sound.link index label
  | advance ticket now => exact sound.stepDaemon _ nofun
  | restart => exact sound.restart

/-- Every run is sound. -/
theorem run_sound (config : Config D) (labels : List (WorldLabel D)) : Sound (run config labels) := by
  induction labels using List.reverseRecOn with
  | nil => exact sound_initial
  | append_singleton labels label ih =>
      rw [run_snoc]
      exact ih.step label

/-! ## Which link a call was made for -/

/-- A call of an incarnation was made for a request of a link: the place is the link's
number and the position of the request on it. -/
def Serving (world : World config) (daemon ticket : Nat) (place : Nat × Nat) : Prop :=
  ∃ link request, world.links[place.1]? = some link ∧ link.daemon = daemon ∧
    link.served[place.2]? = some (.executed request ticket)

/-- How many requests an incarnation has executed or is executing. -/
def callCount (world : World config) (daemon : Nat) : Nat :=
  (world.daemons[daemon]?.map fun daemon => daemon.calls.length).getD 0

/-- Every call of a handler was made for exactly one request of one link. -/
structure Attributed (world : World config) : Prop where
  made : ∀ daemon ticket, ticket < world.callCount daemon ↔ ∃ place, Serving world daemon ticket place
  once : ∀ daemon ticket place other, Serving world daemon ticket place →
    Serving world daemon ticket other → place = other

omit [Double D] in
theorem callCount_initial (daemon : Nat) : callCount (initial config) daemon = 0 := by
  cases daemon with
  | zero => rfl
  | succ _ => rfl

/-- A restart executes nothing. -/
theorem callCount_restart (world : World config) (daemon : Nat) :
    callCount (world.step .restart) daemon = callCount world daemon := by
  simp only [callCount, step]
  rcases Nat.lt_trichotomy daemon world.daemons.length with earlier | rfl | later
  · rw [List.getElem?_append_left earlier]
  · rw [List.getElem?_concat_length, List.getElem?_eq_none (Nat.le_refl _)]
    rfl
  · rw [List.getElem?_eq_none later.le, List.getElem?_eq_none]
    rw [List.length_append, List.length_singleton]
    exact later

/-- What a step of a daemon executes. -/
theorem callCount_stepDaemon (world : World config) (index daemon : Nat)
    (label : Label Timestamp (Request D)) :
    callCount (world.stepDaemon index label) daemon =
      (world.daemons[daemon]?.map fun system =>
        if index = daemon then (system.step (workers config) label).calls.length
        else system.calls.length).getD 0 := by
  rw [callCount, stepDaemon, List.getElem?_modify, Option.map_eq_map, Option.map_map]
  congr 2
  funext system
  rw [Function.comp_apply]
  split
  · rfl
  · rfl

/-- Going on with a call executes no other. -/
theorem callCount_advance (world : World config) (index ticket : Nat) (now : Timestamp)
    (daemon : Nat) :
    callCount (world.stepDaemon index (.advance ticket now)) daemon = callCount world daemon := by
  rw [callCount_stepDaemon, callCount]
  congr 2
  funext system
  rw [System.length_advance, ite_self]

/-- A request that is read is executed. -/
theorem callCount_invoke {system : System (steps config) (State config) (Request D) (Response D)}
    (found : world.daemons[index]? = some system) (request : Request D) (daemon : Nat) :
    callCount (world.stepDaemon index (.invoke request)) daemon =
      callCount world daemon + if index = daemon then 1 else 0 := by
  rw [callCount_stepDaemon, callCount]
  by_cases same : index = daemon
  · subst same
    rw [found, if_pos rfl, Option.map_some, Option.map_some, if_pos rfl]
    exact List.length_append
  · rw [if_neg same, Nat.add_zero]
    congr 2
    funext system
    rw [if_neg same]

omit [Double D] in
/-- What a world serves depends on what its links record only. -/
theorem serving_congr
    (same : ∀ index : Nat, (after.links[index]?.map fun link => (link.daemon, link.served)) =
      before.links[index]?.map fun link => (link.daemon, link.served)) (daemon ticket : Nat)
    (place : Nat × Nat) :
    Serving after daemon ticket place ↔ Serving before daemon ticket place := by
  have one {world other : World config}
      (same : ∀ index : Nat, (world.links[index]?.map fun link => (link.daemon, link.served)) =
        other.links[index]?.map fun link => (link.daemon, link.served))
      (serving : Serving world daemon ticket place) : Serving other daemon ticket place := by
    obtain ⟨link, request, found, own, served⟩ := serving
    have here := same place.1
    rw [found, Option.map_some] at here
    obtain ⟨link', found', records⟩ := Option.map_eq_some_iff.mp here.symm
    obtain ⟨sameDaemon, sameServed⟩ := Prod.mk.inj records
    exact ⟨link', request, found', sameDaemon.trans own, by rw [sameServed, served]⟩
  exact ⟨one same, one fun index => (same index).symm⟩

omit [Double D] in
/-- What is served once the record of one link has been extended. -/
theorem serving_set {link moved : Link D} {entry : Served D}
    (named : world.links[index]? = some link) (own : moved.daemon = link.daemon)
    (extended : moved.served = link.served ++ [entry]) (daemon ticket : Nat) (place : Nat × Nat) :
    Serving { world with links := world.links.set index moved } daemon ticket place ↔
      Serving world daemon ticket place ∨ (link.daemon = daemon ∧
        (∃ request, entry = .executed request ticket) ∧ place = (index, link.served.length)) := by
  obtain ⟨inside, _⟩ := List.getElem?_eq_some_iff.mp named
  obtain ⟨number, position⟩ := place
  by_cases here : index = number
  · subst here
    constructor
    · rintro ⟨found, request, at_, belongs, served⟩
      rw [List.getElem?_set_self inside] at at_
      obtain rfl := Option.some.inj at_
      rw [extended] at served
      rcases found_snoc served with earlier | ⟨last, same⟩
      · exact Or.inl ⟨link, request, named, own.symm.trans belongs, earlier⟩
      · exact Or.inr ⟨own.symm.trans belongs, ⟨request, same.symm⟩, Prod.ext rfl last⟩
    · rintro (⟨found, request, at_, belongs, served⟩ | ⟨belongs, ⟨request, rfl⟩, same⟩)
      · obtain rfl := Option.some.inj (named.symm.trans at_)
        refine ⟨moved, request, List.getElem?_set_self inside, own.trans belongs, ?_⟩
        rw [extended]
        exact found_append served _
      · obtain ⟨_, rfl⟩ := Prod.mk.inj same
        refine ⟨moved, request, List.getElem?_set_self inside, own.trans belongs, ?_⟩
        rw [extended, List.getElem?_concat_length]
  · have same : ({ world with links := world.links.set index moved } : World config).links[number]?
        = world.links[number]? := List.getElem?_set_ne here
    constructor
    · rintro ⟨found, request, at_, others⟩
      exact Or.inl ⟨found, request, same.symm.trans at_, others⟩
    · rintro (⟨found, request, at_, others⟩ | ⟨_, _, place⟩)
      · exact ⟨found, request, same.trans at_, others⟩
      · exact absurd (Prod.mk.inj place).1.symm here

/-- A new link serves nothing. -/
theorem serving_connect (world : World config) (daemon ticket : Nat) (place : Nat × Nat) :
    Serving (world.step .connect) daemon ticket place ↔ Serving world daemon ticket place := by
  constructor
  · rintro ⟨link, request, found, own, served⟩
    rcases found_snoc found with earlier | ⟨_, rfl⟩
    · exact ⟨link, request, earlier, own, served⟩
    · cases served
  · rintro ⟨link, request, found, others⟩
    exact ⟨link, request, found_append found _, others⟩

/-- A restart serves nothing. -/
theorem serving_restart (world : World config) (daemon ticket : Nat) (place : Nat × Nat) :
    Serving (world.step .restart) daemon ticket place ↔ Serving world daemon ticket place := by
  apply serving_congr
  intro index
  simp only [step, List.getElem?_map, Option.map_map]
  rfl

/-- Nothing is executed, or one incarnation executes one more request, which is that of a
new place. -/
def Executes (before after : World config) : Prop :=
  ((∀ daemon ticket place,
      Serving after daemon ticket place ↔ Serving before daemon ticket place) ∧
    ∀ daemon, callCount after daemon = callCount before daemon) ∨
  ∃ index place,
    (∀ daemon ticket other, Serving after daemon ticket other ↔
      Serving before daemon ticket other ∨
        (index = daemon ∧ ticket = callCount before index ∧ other = place)) ∧
    ∀ daemon, callCount after daemon = callCount before daemon + if index = daemon then 1 else 0

/-- A step of a link executes at most what it has read. -/
theorem executes_link (sound : Sound world) (index : Nat) (label : LinkLabel D) :
    Executes world (world.step (.link index label)) := by
  cases named : world.links[index]? with
  | none =>
      simp only [step, named]
      exact Or.inl ⟨fun _ _ _ => Iff.rfl, fun _ => rfl⟩
  | some link =>
      obtain ⟨daemon, served, _⟩ := sound.links link (List.mem_of_getElem? named)
      have own := step_daemon daemon.calls link label
      have counted : callCount world link.daemon = daemon.calls.length := by
        rw [callCount, served]
        rfl
      rw [step_link named served]
      rcases step_served daemon.calls link label with
        ⟨request, extended, passed⟩ | ⟨response, extended, passed⟩ | ⟨same, passed⟩
      · rw [passed]
        refine Or.inr ⟨link.daemon, (index, link.served.length), ?_, ?_⟩
        · intro other ticket place
          refine (serving_set named own extended other ticket place).trans (or_congr_right ?_)
          refine and_congr_right fun _ => and_congr_left fun _ => ?_
          rw [counted]
          constructor
          · rintro ⟨_, same⟩
            exact (Served.executed.inj same).2.symm
          · rintro rfl
            exact ⟨request, rfl⟩
        · exact callCount_invoke served request
      · rw [passed]
        refine Or.inl ⟨?_, fun _ => rfl⟩
        intro other ticket place
        refine (serving_set named own extended other ticket place).trans ?_
        refine or_iff_left ?_
        rintro ⟨_, ⟨_, impossible⟩, _⟩
        cases impossible
      · rw [passed]
        refine Or.inl ⟨?_, fun _ => rfl⟩
        apply serving_congr
        intro number
        by_cases here : index = number
        · obtain ⟨inside, _⟩ := List.getElem?_eq_some_iff.mp named
          subst here
          rw [List.getElem?_set_self inside, named, Option.map_some, Option.map_some, own, same]
        · rw [List.getElem?_set_ne here]

/-- Every step executes at most one request, for one call. -/
theorem executes_step (sound : Sound world) (label : WorldLabel D) :
    Executes world (world.step label) := by
  cases label with
  | connect => exact Or.inl ⟨serving_connect world, fun _ => rfl⟩
  | link index label => exact executes_link sound index label
  | advance ticket now =>
      exact Or.inl ⟨fun _ _ _ => Iff.rfl, callCount_advance world _ ticket now⟩
  | restart => exact Or.inl ⟨serving_restart world, callCount_restart world⟩

omit [Double D] in
/-- What is executed has one cause. -/
theorem Attributed.executes (attributed : Attributed before) (executes : Executes before after) :
    Attributed after := by
  rcases executes with ⟨same, counts⟩ | ⟨index, place, more, counts⟩
  · refine ⟨?_, ?_⟩
    · intro daemon ticket
      rw [counts, attributed.made]
      exact exists_congr fun place => (same daemon ticket place).symm
    · intro daemon ticket place other first second
      exact attributed.once daemon ticket place other ((same ..).mp first) ((same ..).mp second)
  · have next (daemon ticket : Nat) (other : Nat × Nat) (serving : Serving before daemon ticket other) :
        ticket < callCount before daemon := (attributed.made daemon ticket).mpr ⟨other, serving⟩
    refine ⟨?_, ?_⟩
    · intro daemon ticket
      rw [counts]
      constructor
      · intro bounded
        by_cases earlier : ticket < callCount before daemon
        · obtain ⟨other, serving⟩ := (attributed.made daemon ticket).mp earlier
          exact ⟨other, (more ..).mpr (Or.inl serving)⟩
        · by_cases own : index = daemon
          · subst own
            rw [if_pos rfl] at bounded
            exact ⟨place, (more ..).mpr (Or.inr ⟨rfl, by omega, rfl⟩)⟩
          · rw [if_neg own] at bounded
            exact absurd bounded earlier
      · rintro ⟨other, serving⟩
        rcases (more ..).mp serving with old | ⟨rfl, rfl, _⟩
        · exact Nat.lt_add_right _ (next _ _ _ old)
        · rw [if_pos rfl]
          exact Nat.lt_succ_self _
    · intro daemon ticket first second firstServing secondServing
      rcases (more ..).mp firstServing with oldFirst | ⟨rfl, rfl, rfl⟩
      · rcases (more ..).mp secondServing with oldSecond | ⟨rfl, rfl, _⟩
        · exact attributed.once daemon ticket first second oldFirst oldSecond
        · exact absurd (next _ _ _ oldFirst) (Nat.lt_irrefl _)
      · rcases (more ..).mp secondServing with oldSecond | ⟨_, _, rfl⟩
        · exact absurd (next _ _ _ oldSecond) (Nat.lt_irrefl _)
        · rfl

/-- In every run every execution belongs to one call. -/
theorem run_attributed (config : Config D) (labels : List (WorldLabel D)) :
    Attributed (run config labels) := by
  induction labels using List.reverseRecOn with
  | nil =>
      refine ⟨fun daemon ticket => ?_, ?_⟩
      · have none : callCount (run config []) daemon = 0 := callCount_initial daemon
        rw [none]
        refine ⟨fun impossible => absurd impossible (Nat.not_lt_zero _), ?_⟩
        rintro ⟨_, _, _, found, _⟩
        cases found
      · rintro _ _ _ _ ⟨_, _, found, _⟩
        cases found
  | append_singleton labels label ih =>
      rw [run_snoc]
      exact ih.executes (executes_step (run_sound config labels) label)

/-- No execution is taken back. -/
theorem serving_step (sound : Sound world) (label : WorldLabel D) {daemon ticket : Nat}
    {place : Nat × Nat} (serving : Serving world daemon ticket place) :
    Serving (world.step label) daemon ticket place := by
  rcases executes_step sound label with ⟨same, _⟩ | ⟨_, _, more, _⟩
  · exact (same ..).mpr serving
  · exact (more ..).mpr (Or.inl serving)

/-- Every step keeps what there was. -/
theorem extends_step (world : World config) (label : WorldLabel D) :
    Extends world (world.step label) := by
  have same : Extends world world := fun _ daemon found => ⟨daemon, found, System.CarryOn.refl _⟩
  cases label with
  | connect => exact same
  | advance ticket now => exact extends_stepDaemon world _ _
  | restart =>
      intro index daemon found
      exact ⟨daemon, found_append found _, System.CarryOn.refl _⟩
  | link index own =>
      cases named : world.links[index]? with
      | none =>
          simp only [step, named]
          exact same
      | some link =>
          cases served : world.daemons[link.daemon]? with
          | none =>
              simp only [step, named, served]
              exact same
          | some daemon =>
              rw [step_link named served]
              split
              · exact same
              · exact extends_stepDaemon world _ _

/-! ## Calls and their replies -/

/-- A link is named as before. -/
theorem links_step {link : Link D} (named : world.links[index]? = some link)
    (served : world.daemons[link.daemon]? = some daemon) (label : LinkLabel D) :
    (world.step (.link index label)).links =
      world.links.set index (link.step daemon.calls label).1 := by
  rw [step_link named served]
  split
  · rfl
  · rfl

/-- A step of a link makes no links. -/
theorem length_link (world : World config) (index : Nat) (label : LinkLabel D) :
    (world.step (.link index label)).links.length = world.links.length := by
  cases named : world.links[index]? with
  | none => simp only [step, named]
  | some link =>
      cases served : world.daemons[link.daemon]? with
      | none => simp only [step, named, served]
      | some daemon => rw [links_step named served, List.length_set]

/-- A step moves a link by one of its labels, or not at all. Only a label for the link
itself does more than traffic. -/
theorem step_moves {link : Link D} (named : world.links[index]? = some link)
    (label : WorldLabel D) :
    ∃ moved, (world.step label).links[index]? = some moved ∧
      (moved = link ∨ ∃ (daemon : System (steps config) (State config) (Request D) (Response D))
        (own : LinkLabel D), moved = (link.step daemon.calls own).1 ∧
          (own.isTraffic = true ∨ label = .link index own)) := by
  cases label with
  | connect => exact ⟨link, found_append named _, Or.inl rfl⟩
  | advance ticket now => exact ⟨link, named, Or.inl rfl⟩
  | restart =>
      refine ⟨{ link with worker := .closed }, ?_, ?_⟩
      · simp only [step, List.getElem?_map, named, Option.map_some]
      · exact Or.inr ⟨.initial (State.initial config), .workerCloses, rfl, Or.inl rfl⟩
  | link number own =>
      cases other : world.links[number]? with
      | none =>
          simp only [step, other]
          exact ⟨link, named, Or.inl rfl⟩
      | some moving =>
          cases served : world.daemons[moving.daemon]? with
          | none =>
              simp only [step, other, served]
              exact ⟨link, named, Or.inl rfl⟩
          | some daemon =>
              rw [links_step other served]
              by_cases here : number = index
              · subst here
                obtain rfl := Option.some.inj (named.symm.trans other)
                obtain ⟨inside, _⟩ := List.getElem?_eq_some_iff.mp named
                exact ⟨_, List.getElem?_set_self inside, Or.inr ⟨daemon, own, rfl, Or.inr rfl⟩⟩
              · rw [List.getElem?_set_ne here]
                exact ⟨link, named, Or.inl rfl⟩

/-- A link is there before a step, or it is a new connection. -/
theorem found_before {label : WorldLabel D} {moved : Link D}
    (found : (world.step label).links[index]? = some moved) :
    (∃ link, world.links[index]? = some link) ∨
      (label = .connect ∧ index = world.links.length ∧
        moved = { daemon := world.daemons.length - 1 }) := by
  cases named : world.links[index]? with
  | some link => exact Or.inl ⟨link, rfl⟩
  | none =>
      refine Or.inr ?_
      have outside : world.links.length ≤ index := List.getElem?_eq_none_iff.mp named
      have inside := (List.getElem?_eq_some_iff.mp found).1
      cases label with
      | connect =>
          rcases found_snoc found with old | ⟨last, fresh⟩
          · rw [named] at old
            cases old
          · exact ⟨rfl, last, fresh⟩
      | advance ticket now => exact absurd inside (Nat.not_lt.mpr outside)
      | restart =>
          rw [step, List.length_map] at inside
          exact absurd inside (Nat.not_lt.mpr outside)
      | link number own =>
          rw [length_link] at inside
          exact absurd inside (Nat.not_lt.mpr outside)

/-- In every run what has returned is settled. -/
theorem run_settled (config : Config D) (labels : List (WorldLabel D)) :
    ∀ (index : Nat) link, (run config labels).links[index]? = some link →
      ∀ entry ∈ link.finished, entry.2.Settled := by
  induction labels using List.reverseRecOn with
  | nil =>
      intro index link found
      cases found
  | append_singleton labels label ih =>
      intro index link found
      rw [run_snoc] at found
      rcases found_before found with ⟨before, had⟩ | ⟨_, _, rfl⟩
      · obtain ⟨moved, has, rfl | ⟨daemon, own, rfl, _⟩⟩ := step_moves had label
        · obtain rfl := Option.some.inj (has.symm.trans found)
          exact ih index _ had
        · obtain rfl := Option.some.inj (has.symm.trans found)
          rcases step_returns daemon.calls before own with same | ⟨request, called, settled, split, _⟩
          · rw [same]
            exact ih index before had
          · rw [split]
            intro entry member
            rcases List.mem_append.mp member with old | fresh
            · exact ih index before had entry old
            · rw [List.mem_singleton.mp fresh]
              exact settled
      · intro entry member
        exact absurd member List.not_mem_nil

/-- Once a connection is closed no call on it succeeds. -/
theorem foldl_dead {labels : List (WorldLabel D)} {link later : Link D}
    (named : world.links[index]? = some link) (closed : link.caller = .closed)
    (found : (labels.foldl step world).links[index]? = some later) : link.Dead later := by
  induction labels generalizing world link with
  | nil =>
      obtain rfl := Option.some.inj (named.symm.trans found)
      exact Link.dead_of_eq closed rfl
  | cons label labels ih =>
      obtain ⟨moved, stays, rfl | ⟨daemon, own, rfl, _⟩⟩ := step_moves named label
      · exact ih stays closed found
      · obtain ⟨stillClosed, failed, split, lost⟩ := step_dead daemon.calls closed own
        obtain ⟨atLast, more, rest, alsoLost⟩ := ih stays stillClosed found
        refine ⟨atLast, failed ++ more, ?_, ?_⟩
        · rw [rest, split, List.append_assoc]
        · intro entry member
          rcases List.mem_append.mp member with old | fresh
          · exact lost entry old
          · exact alsoLost entry fresh

/-- A call has returned the response to its request. Nothing is on the way, every request
that was ever sent was served once and in its order, the response is what the last one
got, and no handler was called for anything else. -/
structure Matched (world : World config) (link : Link D) (request : Request D)
    (response : Response D) : Prop where
  ready : link.caller = .ready
  empty : link.toWorker = [] ∧ link.toCaller = []
  produced : ∃ daemon, world.daemons[link.daemon]? = some daemon ∧
    List.Forall₂ (Serves daemon.calls) link.sent link.served ∧
    link.sent.getLast? = some request ∧
    ∃ entry, link.served.getLast? = some entry ∧ Produced daemon.calls request response entry
  attributed : Attributed world

/-- A call that has returned a reply was answered by its own execution. -/
theorem Sound.matched (sound : Sound world) (attributed : Attributed world) {link : Link D}
    (member : link ∈ world.links) (ready : link.caller = .ready)
    {earlier : List (Request D × Called D)} {request : Request D} {called : Called D}
    (returned : link.finished = earlier ++ [(request, called)])
    (connected : called.connected = true) :
    Matched world link request called.response := by
  obtain ⟨daemon, found, sync⟩ := sound.links link member
  obtain ⟨⟨allServed, _, allFinished⟩, toWorker, toCaller, _⟩ := sync.between ready
  have count : link.sent.length = earlier.length + 1 := by
    rw [allFinished, returned, List.length_append, List.length_singleton]
  obtain ⟨sent, replied⟩ := sync.returned earlier.length request called
    (by rw [returned, List.getElem?_concat_length]) connected
  obtain ⟨asked, entry, sentAsked, served, produced, _⟩ :=
    sync.produced earlier.length called.response replied
  obtain rfl := Option.some.inj (sent.symm.trans sentAsked)
  refine ⟨ready, ⟨toWorker, toCaller⟩, ⟨daemon, found, ?_, ?_, entry, ?_, produced⟩, attributed⟩
  · apply List.forall₂_iff_get.mpr
    refine ⟨allServed, ?_⟩
    intro index inSent inServed
    obtain ⟨other, here, serves⟩ :=
      sync.serves index _ (List.getElem?_eq_getElem inServed)
    rw [List.getElem?_eq_getElem inSent] at here
    rw [List.get_eq_getElem, List.get_eq_getElem, Option.some.inj here]
    exact serves
  · rw [List.getLast?_eq_getElem?, count, Nat.add_sub_cancel]
    exact sent
  · rw [List.getLast?_eq_getElem?, ← allServed, count, Nat.add_sub_cancel]
    exact served

/-- Every accepted reply answers its own request. When a call returns a response, that is
what the daemon produced for its request, which was served once, and nothing is left on
the way. When it fails, the connection is closed and every later call on it fails. -/
theorem replies_matched (config : Config D) (labels : List (WorldLabel D)) (label : WorldLabel D)
    (index : Nat) (before after : Link D) (request : Request D) (called : Called D)
    (had : (run config labels).links[index]? = some before)
    (has : (run config (labels ++ [label])).links[index]? = some after)
    (returned : after.finished = before.finished ++ [(request, called)]) :
    match called.status with
    | .ok | .invalidRequest | .serverError =>
        Matched (run config (labels ++ [label])) after request called.response
    | .connectionLost | .protocolError =>
        ∀ more later, (run config (labels ++ [label] ++ more)).links[index]? = some later →
          after.Dead later
    | .notFound => False := by
  have returns : before.Returns after := by
    rw [run_snoc] at has
    obtain ⟨moved, here, rfl | ⟨daemon, own, rfl, _⟩⟩ := step_moves had label
    · obtain rfl := Option.some.inj (here.symm.trans has)
      exact Or.inl rfl
    · obtain rfl := Option.some.inj (here.symm.trans has)
      exact step_returns daemon.calls before own
  rcases returns with same | ⟨asked, answered, settled, split, phase⟩
  · rw [same] at returned
    exact absurd (List.self_eq_append_right.mp returned) (List.cons_ne_nil _ _)
  · obtain ⟨rfl, rfl⟩ : asked = request ∧ answered = called := by
      have entry := List.append_cancel_left (split.symm.trans returned)
      exact Prod.mk.inj (List.cons.inj entry).1
    have sound := run_sound config (labels ++ [label])
    have attributed := run_attributed config (labels ++ [label])
    have matched (connected : answered.connected = true) :
        Matched (run config (labels ++ [label])) after asked answered.response := by
      rw [connected, if_pos rfl] at phase
      exact sound.matched attributed (List.mem_of_getElem? has) phase returned connected
    have lost (closed : answered.connected = false) (more : List (WorldLabel D)) (later : Link D)
        (found : (run config (labels ++ [label] ++ more)).links[index]? = some later) :
        after.Dead later := by
      rw [closed, if_neg Bool.false_ne_true] at phase
      rw [run, List.foldl_append] at found
      exact foldl_dead has phase found
    unfold Called.Settled at settled
    cases status : answered.status with
    | ok | invalidRequest | serverError =>
        rw [status] at settled
        exact matched settled
    | connectionLost | protocolError =>
        rw [status] at settled
        exact lost settled
    | notFound =>
        rw [status] at settled
        exact settled

/-- A get of an absent item, up to the reply on its way. -/
def fetching : List (WorldLabel UInt64) :=
  [.connect, .link 0 (.operate (.getItem 5)), .link 0 (.callerSends 100),
    .link 0 (.workerReads 100), .link 0 (.workerReads 100)] ++
  List.replicate 4 (.advance 0 ⟨0⟩) ++
  [.link 0 .workerReplies, .link 0 (.workerSends 100), .link 0 (.callerReads 100)]

theorem replies_matched_get :
    ∃ after, (run wordDaemon (fetching ++ [.link 0 (.callerReads 100)])).links[0]? = some after ∧
      Matched (run wordDaemon (fetching ++ [.link 0 (.callerReads 100)])) after ⟨1, .getItem 5⟩
        ⟨1, .getItemResult .notFound (Item.empty 0)⟩ := by
  have none : ((run wordDaemon fetching).links[0]?.map Link.finished) = some [] := by
    decide +kernel
  have one : ((run wordDaemon (fetching ++ [.link 0 (.callerReads 100)])).links[0]?.map
      Link.finished) = some [(⟨1, .getItem 5⟩,
        ⟨.ok, ⟨1, .getItemResult .notFound (Item.empty 0)⟩, [], true⟩)] := by
    decide +kernel
  obtain ⟨before, had, nothing⟩ := Option.map_eq_some_iff.mp none
  obtain ⟨after, has, returned⟩ := Option.map_eq_some_iff.mp one
  refine ⟨after, has, ?_⟩
  exact replies_matched wordDaemon fetching (.link 0 (.callerReads 100)) 0 before after _
    ⟨.ok, _, [], true⟩ had has (by rw [nothing, returned, List.nil_append])

end World

end Lrd.Client
