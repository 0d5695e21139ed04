import Lrd.Client.Matching

/-!
# Links in custody

What the owner of a link can rely on while others act. Traffic never begins a call; it
leaves a link at rest as it is and lets a call under way return once (`step_traffic`). Only
the owner begins calls and closes (`passive_step`).
-/

namespace Lrd.Client

open Foundation Common Rank Proto BinaryCodec Daemon

variable {D : Type}

/-- The request of the call that is under way. -/
def Caller.request? : Caller D → Option (Request D)
  | .sending request _ | .receiving request _ => some request
  | _ => none

/-- How many calls were begun on a connection since it was opened. -/
def Link.begun (link : Link D) : Nat :=
  link.finished.length + if link.caller.request?.isSome then 1 else 0

/-- An open caller outside a call is ready. -/
theorem Caller.ready_of_rest {caller : Caller D} (rest : caller.request? = none)
    (isOpen : caller.isOpen = true) : caller = .ready := by
  cases caller with
  | ready => rfl
  | closed => cases isOpen
  | sending request unsent | receiving request got => cases rest

/-- A connection goes on with its call, if there is one, or the call returns. -/
inductive Link.GoesOn (before after : Link D) : Prop where
  | rests (caller : after.caller = before.caller) (finished : after.finished = before.finished)
  | continues (request : Request D) (was : before.caller.request? = some request)
      (still : after.caller.request? = some request) (finished : after.finished = before.finished)
  | returns (request : Request D) (called : Called D) (was : before.caller.request? = some request)
      (rest : after.caller.request? = none)
      (finished : after.finished = before.finished ++ [(request, called)])

/-- Outside a call every call that began has ended. -/
theorem Link.begun_of_rest {link : Link D} (rest : link.caller.request? = none) :
    link.begun = link.finished.length := by
  rw [Link.begun, rest]
  rfl

/-- What goes on has begun no further call. -/
theorem Link.GoesOn.begun {before after : Link D} (goesOn : before.GoesOn after) :
    before.begun = after.begun := by
  unfold Link.begun
  cases goesOn with
  | rests caller finished => rw [caller, finished]
  | continues request was still finished => rw [was, still, finished]
  | returns request called was rest finished =>
      rw [was, rest, finished, List.length_append]
      rfl

variable {label : LinkLabel D} {index : Nat}

section Steps

variable [BitCast D] {S : Signature} (calls : List (Call S (Request D) (Response D)))
  {link : Link D}

omit [BitCast D] in
/-- A call that ends was the one that was going on. -/
theorem Link.goesOn_finish {moved : Link D} {request : Request D}
    (was : link.caller.request? = some request) (same : moved.finished = link.finished)
    (called : Called D) : link.GoesOn (moved.finish request called) := by
  refine .returns request called was ?_ ?_
  · unfold Link.finish
    cases called.connected with
    | true => rfl
    | false => rfl
  · rw [← same]
    rfl

/-- Traffic begins no call. -/
theorem step_traffic (traffic : label.isTraffic = true) :
    link.GoesOn (link.step calls label).1 := by
  cases label with
  | call _ | operate _ | callerCloses => cases traffic
  | callerSends count =>
      cases phase : link.caller with
      | sending request rest =>
          have was : link.caller.request? = some request := by rw [phase]; rfl
          simp only [Link.step, Link.callerSends, phase]
          refine .continues request was ?_ rfl
          simp only
          split
          · rfl
          · rfl
      | _ =>
          simp only [Link.step, Link.callerSends, phase]
          exact .rests rfl rfl
  | callerReads count =>
      cases phase : link.caller with
      | receiving request got =>
          have was : link.caller.request? = some request := by rw [phase]; rfl
          simp only [Link.step, Link.callerReads, phase]
          split
          · exact .continues request was rfl rfl
          · apply Link.goesOn_finish was
            rfl
          · apply Link.goesOn_finish was
            rfl
      | _ =>
          simp only [Link.step, Link.callerReads, phase]
          exact .rests rfl rfl
  | callerFails status =>
      cases phase : link.caller with
      | sending request rest | receiving request rest =>
          have was : link.caller.request? = some request := by rw [phase]; rfl
          simp only [Link.step, Link.callerFails, phase]
          exact Link.goesOn_finish was rfl _
      | _ =>
          simp only [Link.step, Link.callerFails, phase]
          exact .rests rfl rfl
  | _ =>
      refine .rests ?_ ?_
      all_goals
        simp only [Link.step, Link.workerReads, Link.workerReplies, Link.workerSends,
          Link.startReply]
        repeat' split
        all_goals rfl

/-- Traffic sends no new request. -/
theorem sent_traffic (traffic : label.isTraffic = true) :
    (link.step calls label).1.sent = link.sent := by
  cases label with
  | call _ | operate _ | callerCloses => cases traffic
  | _ =>
      simp only [Link.step, Link.callerSends, Link.callerReads, Link.callerFails, Link.workerReads,
        Link.workerReplies, Link.workerSends, Link.finish, Link.startReply]
      repeat' split
      all_goals rfl

/-- A method's call on a connection between calls: it is under way, or its request did not
fit and it has returned. -/
theorem operate_ready (ready : link.caller = .ready) (body : RequestBody D) :
    ((link.operate body).caller.request? = some ⟨link.nextRequestId, body⟩ ∧
        (link.operate body).finished = link.finished ∧
        (link.operate body).sent = link.sent ++ [⟨link.nextRequestId, body⟩]) ∨
      ∃ called, (link.operate body).caller = .closed ∧
        (link.operate body).finished = link.finished ++ [(⟨link.nextRequestId, body⟩, called)] ∧
        (link.operate body).sent = link.sent := by
  by_cases framable : Framable (encodeRequest ⟨link.nextRequestId, body⟩ [])
  · have sends : link.operate body = { link with
        caller := .sending ⟨link.nextRequestId, body⟩
          (frameBytes (encodeRequest ⟨link.nextRequestId, body⟩ []))
        nextRequestId := link.nextRequestId + 1
        sent := link.sent ++ [⟨link.nextRequestId, body⟩] } := by
      simp only [Link.operate, Link.call, ready, framable, ↓reduceIte]
    rw [sends]
    exact Or.inl ⟨rfl, rfl, rfl⟩
  · have fails : link.operate body = Link.finish
        { link with nextRequestId := link.nextRequestId + 1 } ⟨link.nextRequestId, body⟩
        (sendFailed .oversized emptyResponse) := by
      simp only [Link.operate, Link.call, ready, framable, ↓reduceIte]
    rw [fails]
    exact Or.inr ⟨sendFailed .oversized emptyResponse, rfl, rfl, rfl⟩

end Steps

/-! ## Links of a world -/

namespace World

variable {config : Config D}

/-- Between two worlds only traffic happened on a link. -/
def Passive (link : Nat) (before after : World config) : Prop :=
  ∀ found, before.links[link]? = some found → ∃ moved, after.links[link]? = some moved ∧
    found.GoesOn moved ∧ moved.sent = found.sent

theorem Passive.refl (link : Nat) (world : World config) : Passive link world world :=
  fun found here => ⟨found, here, .rests rfl rfl, rfl⟩

variable {world : World config} {before after : World config}

/-- A step is passive for a link unless it is the link's own and not traffic. -/
theorem passive_step [Double D] {label : WorldLabel D} {link : Nat}
    (other : ∀ own, label = .link link own → own.isTraffic = true) :
    Passive link world (world.step label) := by
  intro found here
  obtain ⟨moved, there, rfl | ⟨daemon, own, rfl, traffic | same⟩⟩ := step_moves here label
  · exact ⟨moved, there, .rests rfl rfl, rfl⟩
  · exact ⟨_, there, step_traffic daemon.calls traffic, sent_traffic daemon.calls traffic⟩
  · exact ⟨_, there, step_traffic daemon.calls (other own same),
      sent_traffic daemon.calls (other own same)⟩

/-- A new link leaves the others alone. -/
theorem passive_connect [Double D] (world : World config) (link : Nat) :
    Passive link world (world.step .connect) := by
  apply passive_step
  intro own same
  cases same

/-- A step of a daemon leaves the links alone. -/
theorem passive_advance [Double D] (world : World config) (ticket : Nat) (now : Timestamp)
    (link : Nat) : Passive link world (world.step (.advance ticket now)) := by
  apply passive_step
  intro own same
  cases same

/-- A restart leaves it to the links to notice. -/
theorem passive_restart [Double D] (world : World config) (link : Nat) :
    Passive link world (world.step .restart) := by
  apply passive_step
  intro own same
  cases same

/-- Traffic leaves the calls of a link alone. -/
theorem passive_traffic [Double D] (world : World config) (link : Nat)
    (traffic : label.isTraffic = true) (other : Nat) :
    Passive other world (world.step (.link link label)) := by
  apply passive_step
  intro own same
  rw [← (WorldLabel.link.inj same).2]
  exact traffic

/-- A step of one link leaves the others alone. -/
theorem passive_other [Double D] (world : World config) {link other : Nat} (different : link ≠ other)
    (own : LinkLabel D) : Passive other world (world.step (.link link own)) := by
  apply passive_step
  intro _ same
  exact absurd (WorldLabel.link.inj same).1 different

/-- A label for a link moves that link. -/
theorem found_link [Double D] (sound : Sound world) {link : Link D}
    (named : world.links[index]? = some link) (label : LinkLabel D) :
    ∃ daemon : System (steps config) (State config) (Request D) (Response D),
      (world.step (.link index label)).links[index]? = some (link.step daemon.calls label).1 := by
  obtain ⟨daemon, served, _⟩ := sound.links link (List.mem_of_getElem? named)
  obtain ⟨inside, _⟩ := List.getElem?_eq_some_iff.mp named
  exact ⟨daemon, by rw [links_step named served, List.getElem?_set_self inside]⟩

theorem length_connect [Double D] (world : World config) :
    (world.step .connect).links.length = world.links.length + 1 :=
  List.length_append

/-- Links stay. -/
theorem length_le_step [Double D] (world : World config) (label : WorldLabel D) :
    world.links.length ≤ (world.step label).links.length := by
  cases label with
  | connect =>
      rw [length_connect]
      exact Nat.le_add_right _ _
  | advance ticket now => exact Nat.le_refl _
  | restart => rw [step, List.length_map]
  | link index own => rw [length_link]

/-- The calls that have returned stay on record. -/
theorem step_grows [Double D] {link : Link D} (named : world.links[index]? = some link)
    (label : WorldLabel D) :
    ∃ moved, (world.step label).links[index]? = some moved ∧
      ∃ more, moved.finished = link.finished ++ more := by
  obtain ⟨moved, here, rfl | ⟨daemon, own, rfl, _⟩⟩ := step_moves named label
  · exact ⟨moved, here, [], (List.append_nil _).symm⟩
  · refine ⟨_, here, ?_⟩
    rcases step_returns daemon.calls link own with same | ⟨request, called, _, split, _⟩
    · exact ⟨[], by rw [same, List.append_nil]⟩
    · exact ⟨[(request, called)], split⟩

/-- A connection that is open was open before, or it is new. -/
theorem open_before [Double D] {label : WorldLabel D} {moved : Link D}
    (found : (world.step label).links[index]? = some moved) (isOpen : moved.caller.isOpen = true) :
    (∃ link, world.links[index]? = some link ∧ link.caller.isOpen = true) ∨
      (label = .connect ∧ index = world.links.length) := by
  rcases found_before found with ⟨link, named⟩ | ⟨connects, last, _⟩
  · refine Or.inl ⟨link, named, ?_⟩
    cases phase : link.caller with
    | closed =>
        obtain ⟨_, here, rfl | ⟨daemon, own, rfl, _⟩⟩ := step_moves named label
        · obtain rfl := Option.some.inj (here.symm.trans found)
          rw [phase] at isOpen
          exact isOpen
        · obtain rfl := Option.some.inj (here.symm.trans found)
          rw [(step_dead daemon.calls phase own).closed] at isOpen
          exact isOpen
    | _ => rfl
  · exact Or.inr ⟨connects, last⟩

/-- The connection is open and between calls. -/
def Ready (world : World config) (link : Nat) : Prop :=
  ∃ found, world.links[link]? = some found ∧ found.caller = .ready

/-- No call is under way on the connection. -/
def Resting (world : World config) (link : Nat) : Prop :=
  ∃ found, world.links[link]? = some found ∧ found.caller.request? = none

/-- A call with the body is under way on the connection or was the last on it, and the
given number of calls had returned before. -/
def InCall (world : World config) (link position : Nat) (body : RequestBody D) : Prop :=
  ∃ found request, world.links[link]? = some found ∧ request.body = body ∧
    (found.caller.request? = some request ∧ found.finished.length = position ∨
      found.caller.request? = none ∧ ∃ earlier called, earlier.length = position ∧
        found.finished = earlier ++ [(request, called)])

/-- A link that is left alone stays ready. -/
theorem Ready.passive {link : Nat} (ready : Ready before link) (passive : Passive link before after) :
    Ready after link := by
  obtain ⟨found, here, phase⟩ := ready
  obtain ⟨moved, there, goesOn, _⟩ := passive found here
  refine ⟨moved, there, ?_⟩
  cases goesOn with
  | rests caller finished => exact caller.trans phase
  | continues request was | returns request called was =>
      rw [phase] at was
      cases was

/-- A link that is left alone stays outside a call. -/
theorem Resting.passive {link : Nat} (resting : Resting before link)
    (passive : Passive link before after) : Resting after link := by
  obtain ⟨found, here, rest⟩ := resting
  obtain ⟨moved, there, goesOn, _⟩ := passive found here
  refine ⟨moved, there, ?_⟩
  cases goesOn with
  | rests caller finished =>
      rw [caller]
      exact rest
  | continues request was | returns request called was =>
      rw [rest] at was
      cases was

/-- A link that is left alone stays in its call. -/
theorem InCall.passive {link position : Nat} {body : RequestBody D}
    (inCall : InCall before link position body) (passive : Passive link before after) :
    InCall after link position body := by
  obtain ⟨found, request, here, own, under⟩ := inCall
  obtain ⟨moved, there, goesOn, _⟩ := passive found here
  refine ⟨moved, request, there, own, ?_⟩
  cases goesOn with
  | rests caller finished =>
      rw [caller, finished]
      exact under
  | continues other was still finished =>
      rcases under with ⟨asking, count⟩ | ⟨rest, _⟩
      · rw [asking] at was
        rw [still, finished, ← was]
        exact Or.inl ⟨rfl, count⟩
      · rw [rest] at was
        cases was
  | returns other called was rest finished =>
      rcases under with ⟨asking, count⟩ | ⟨atRest, _⟩
      · obtain rfl := Option.some.inj (asking.symm.trans was)
        exact Or.inr ⟨rest, found.finished, called, count, finished⟩
      · rw [atRest] at was
        cases was

/-- Before a call on a link between calls, as many calls have returned as requests were
sent. -/
theorem sent_of_ready [Double D] (sound : Sound world) {link : Link D} (member : link ∈ world.links)
    (ready : link.caller = .ready) :
    link.sent.length = link.finished.length := by
  obtain ⟨_, _, sync⟩ := sound.links link member
  exact (sync.between ready).1.2.2

/-- The owner of a link between calls begins one. -/
theorem inCall_operate [Double D] (sound : Sound world) {link : Link D}
    (named : world.links[index]? = some link) (ready : link.caller = .ready)
    (body : RequestBody D) :
    InCall (world.step (.link index (.operate body))) index link.sent.length body := by
  obtain ⟨daemon, moved⟩ := found_link sound named (.operate body)
  have count := sent_of_ready sound (List.mem_of_getElem? named) ready
  refine ⟨_, ⟨link.nextRequestId, body⟩, moved, rfl, ?_⟩
  rcases operate_ready ready body with ⟨asking, finished, _⟩ | ⟨called, closed, finished, _⟩
  · refine Or.inl ⟨asking, ?_⟩
    rw [count]
    exact congrArg List.length finished
  · refine Or.inr ⟨?_, link.finished, called, count.symm, finished⟩
    exact congrArg Caller.request? closed

theorem Ready.resting {link : Nat} (ready : Ready world link) :
    Resting world link := by
  obtain ⟨found, here, phase⟩ := ready
  exact ⟨found, here, by rw [phase]; rfl⟩

end World

end Lrd.Client
