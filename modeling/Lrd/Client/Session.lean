import Lrd.Client.Link
import Lrd.Daemon.Replies
import Lrd.Foundation.Records
import Lrd.Proto.Unique

/-!
# Requests and their replies

The k-th frame that a worker reads is the k-th that its connection has begun to send,
and the k-th reply that a connection reads is the k-th that its worker has begun to send
(`Synchronised`). `Synchronised.step` keeps this at every send, read and failure of either
party.
-/

namespace Lrd.Client

open Foundation Rank Proto BinaryCodec Daemon

variable {D : Type}

/-! ## What the parties have and owe -/

/-- What a connection has read of its worker's next reply. -/
def Caller.Has : Caller D → Bytes → Prop
  | .receiving _ got, bytes => bytes = got
  | .closed, _ => True
  | _, bytes => bytes = []

/-- What a connection has not sent of the request it has begun to send. -/
def Caller.Owes : Caller D → Bytes → Prop
  | .sending _ rest, bytes => bytes = rest
  | .closed, _ => True
  | _, bytes => bytes = []

/-- What a worker has read of its connection's next request. -/
def Worker.Has : Worker → Bytes → Prop
  | .reading got, bytes => bytes = got
  | .closed, _ => True
  | _, bytes => bytes = []

/-- What a worker has not sent of the reply it has begun to send. -/
def Worker.Owes : Worker → Bytes → Prop
  | .writing rest, bytes => bytes = rest
  | .closed, _ => True
  | _, bytes => bytes = []

/-- While a connection is open, all its calls but the one under way have returned, and
each of them has read a reply. -/
def Caller.Balanced : Caller D → List (Request D) → (finished replies : Nat) → Prop
  | .ready, sent, finished, replies => sent.length = finished ∧ finished ≤ replies
  | .sending request _, sent, finished, replies =>
      (∃ earlier, sent = earlier ++ [request] ∧ earlier.length = finished) ∧ finished ≤ replies
  | .receiving request _, sent, finished, replies =>
      (∃ earlier, sent = earlier ++ [request] ∧ earlier.length = finished) ∧ finished ≤ replies
  | .closed, _, _, _ => True

/-- A worker has begun to reply to all that it served but the request in the handler. -/
def Worker.Balanced : Worker → List (Served D) → (replies : Nat) → Prop
  | .handling ticket, served, replies =>
      ∃ earlier request, served = earlier ++ [.executed request ticket] ∧
        replies = earlier.length
  | .closed, served, replies => replies ≤ served.length
  | _, served, replies => replies = served.length

variable {request : Request D} {response : Response D}

section Frames

variable [BitCast D]

/-- The frame of a request that was sent, if any. -/
def requestFrame : Option (Request D) → Bytes
  | none => []
  | some request => frameBytes (encodeRequest request [])

/-- The frame of a reply that was sent, if any. -/
def replyFrame : Option (Response D) → Bytes
  | none => []
  | some response => frameBytes (encodeResponse response [])

/-- A reply that is accepted is what the call returns. -/
theorem conclude_accepted (accepted : Accepted request.requestId response) (out : Response D) :
    (conclude request out (encodeResponse response [])).connected = true ∧
      (conclude request out (encodeResponse response [])).response = response := by
  unfold conclude
  rw [accepted.decoded out]
  simp only [ne_eq, not_true_eq_false, ↓reduceIte, accepted.own]
  split
  · exact ⟨rfl, rfl⟩
  · exact ⟨rfl, rfl⟩

/-- A worker executes no other request than the one that was sent. -/
theorem receive_execute {request executed : Request D}
    (framable : Framable (encodeRequest request []))
    (executes : receive (encodeRequest request []) = .execute executed) : executed = request := by
  unfold receive at executes
  split at executes
  · rename_i decoded accepted
    obtain rfl := Received.execute.inj executes
    obtain ⟨within, spelled⟩ := (decodeRequest_iff _ _ decoded).mp accepted
    exact request_unique (framable.2.trans_lt (by decide)) within spelled
  · cases executes
  · cases executes

/-- A rejection is accepted as the answer to the request that was sent. -/
theorem receive_reject (rejects : receive (encodeRequest request []) = .reject response) :
    Accepted request.requestId response := by
  obtain ⟨header, later, ⟨current, clear⟩, split, accepted⟩ := accepted_of_rejected rejects
  rw [encodeRequest_eq, List.nil_append] at split
  obtain ⟨rfl, _⟩ := header_unique rfl current rfl clear split
  exact accepted

end Frames

section Records

variable {S : Signature} (calls : List (Call S (Request D) (Response D)))

/-- A worker did its part for the request: it passed it to the handler, or it rejected
it. -/
def Serves [BitCast D] (request : Request D) : Served D → Prop
  | .executed executed ticket =>
      executed = request ∧ ∃ call, calls[ticket]? = some call ∧ call.request = request
  | .rejected response => receive (encodeRequest request []) = .reject response

/-- The response is what the request got: the handler returned it, or the worker rejected
the request with it. -/
def Produced [BitCast D] (request : Request D) (response : Response D) : Served D → Prop
  | .executed executed ticket =>
      executed = request ∧ ∃ call, calls[ticket]? = some call ∧ call.request = request ∧
        call.result? = some response
  | .rejected rejection => rejection = response ∧ receive (encodeRequest request []) = .reject response

/-- The positions of the two parties, the bytes between them and the records belong
together. -/
structure Synchronised [BitCast D] (link : Link D) : Prop where
  asked : ∃ got unsent, link.worker.Has got ∧ link.caller.Owes unsent ∧
    got ++ link.toWorker ++ unsent = requestFrame link.sent[link.served.length]?
  answered : link.caller.isOpen = true → ∃ got unsent, link.caller.Has got ∧
    link.worker.Owes unsent ∧
      got ++ link.toCaller ++ unsent = replyFrame link.replies[link.finished.length]?
  served_le : link.served.length ≤ link.sent.length
  sent_le : link.sent.length ≤ link.served.length + 1
  worker : link.worker.Balanced link.served link.replies.length
  caller : link.caller.Balanced link.sent link.finished.length link.replies.length
  framable : ∀ request ∈ link.sent, Framable (encodeRequest request [])
  serves : ∀ (index : Nat) entry, link.served[index]? = some entry →
    ∃ request, link.sent[index]? = some request ∧ Serves calls request entry
  produced : ∀ (index : Nat) response, link.replies[index]? = some response →
    ∃ request entry, link.sent[index]? = some request ∧ link.served[index]? = some entry ∧
      Produced calls request response entry ∧ Accepted request.requestId response
  returned : ∀ (index : Nat) request called, link.finished[index]? = some (request, called) →
    called.connected = true →
      link.sent[index]? = some request ∧ link.replies[index]? = some called.response
  connected : link.caller.isOpen = true → ∀ entry ∈ link.finished, entry.2.connected = true
  ordered : link.finished.Pairwise fun earlier later =>
    later.2.connected = true → earlier.2.connected = true

variable {calls} {link : Link D}

/-- What was recorded stays true as the handler goes on. -/
theorem Synchronised.carryOn [BitCast D] (sync : Synchronised calls link)
    {after : List (Call S (Request D) (Response D))} (carry : System.CarryOn calls after) :
    Synchronised after link := by
  refine { sync with serves := ?_, produced := ?_ }
  · intro index entry found
    obtain ⟨request, sent, serves⟩ := sync.serves index entry found
    refine ⟨request, sent, ?_⟩
    cases entry with
    | executed executed ticket =>
        obtain ⟨same, call, made, own⟩ := serves
        obtain ⟨later, stillMade, sameRequest, _⟩ := carry ticket call made
        exact ⟨same, later, stillMade, sameRequest.trans own⟩
    | rejected response => exact serves
  · intro index response found
    obtain ⟨request, entry, sent, served, produced, accepted⟩ := sync.produced index response found
    refine ⟨request, entry, sent, served, ?_, accepted⟩
    cases entry with
    | executed executed ticket =>
        obtain ⟨same, call, made, own, result⟩ := produced
        obtain ⟨later, stillMade, sameRequest, stillResult⟩ := carry ticket call made
        exact ⟨same, later, stillMade, sameRequest.trans own, stillResult response result⟩
    | rejected rejection => exact produced

section Steps

variable [BitCast D] (sync : Synchronised calls link)

include sync

/-- There are no more replies than requests served. -/
theorem Synchronised.replies_le : link.replies.length ≤ link.served.length := by
  have balanced := sync.worker
  cases phase : link.worker with
  | handling ticket =>
      rw [phase] at balanced
      obtain ⟨earlier, request, split, count⟩ := balanced
      rw [split, List.length_append]
      omega
  | closed =>
      rw [phase] at balanced
      exact balanced
  | _ =>
      rw [phase] at balanced
      exact Nat.le_of_eq balanced

/-- While the connection is open, at most one of its calls has not returned. -/
theorem Synchronised.finished_le (isOpen : link.caller.isOpen = true) :
    link.finished.length ≤ link.replies.length ∧
      link.sent.length ≤ link.finished.length + 1 := by
  have balanced := sync.caller
  cases phase : link.caller with
  | ready =>
      rw [phase] at balanced
      obtain ⟨all, enough⟩ := balanced
      omega
  | sending request rest | receiving request rest =>
      rw [phase] at balanced
      obtain ⟨⟨earlier, split, count⟩, enough⟩ := balanced
      rw [split, List.length_append, List.length_singleton]
      omega
  | closed =>
      rw [phase] at isOpen
      cases isOpen

/-! ### The connection closes -/

/-- A caller that closes keeps the link in step. -/
theorem Synchronised.callerCloses : Synchronised calls { link with caller := .closed } := by
  obtain ⟨got, unsent, has, _, carried⟩ := sync.asked
  exact { sync with
    asked := ⟨got, unsent, has, trivial, carried⟩
    answered := nofun
    caller := trivial
    connected := nofun }

/-- A call that loses the connection keeps the link in step. -/
theorem Synchronised.finish_lost (request : Request D) {called : Called D}
    (lost : called.connected = false) : Synchronised calls (link.finish request called) := by
  have closed := sync.callerCloses
  have phase : (link.finish request called).caller = .closed := by
    simp only [Link.finish, lost, Bool.false_eq_true, ↓reduceIte]
  refine { asked := ?_, answered := ?_, served_le := sync.served_le, sent_le := sync.sent_le,
           worker := sync.worker, caller := ?_, framable := sync.framable, serves := sync.serves,
           produced := sync.produced, returned := ?_, connected := ?_, ordered := ?_ }
  · rw [phase]
    exact closed.asked
  · rw [phase]
    nofun
  · rw [phase]
    trivial
  · intro index other result found connected
    rcases found_snoc found with earlier | ⟨_, same⟩
    · exact sync.returned index other result earlier connected
    · obtain ⟨_, rfl⟩ := Prod.mk.inj same
      rw [lost] at connected
      cases connected
  · rw [phase]
    nofun
  · refine List.pairwise_append.mpr ⟨sync.ordered, List.pairwise_singleton _ _, ?_⟩
    intro earlier _ later last connected
    rw [List.mem_singleton.mp last, lost] at connected
    cases connected

/-- A call that fails keeps the link in step. -/
theorem Synchronised.callerFails (status : FrameStatus) :
    Synchronised calls (link.callerFails status) := by
  unfold Link.callerFails
  split
  · exact sync.finish_lost _ rfl
  · exact sync.finish_lost _ rfl
  · exact sync

/-! ### The connection sends -/

/-- Between calls there is nothing on the way, and all that was sent was served. -/
theorem Synchronised.between (ready : link.caller = .ready) :
    (link.sent.length = link.served.length ∧ link.sent.length = link.replies.length ∧
        link.sent.length = link.finished.length) ∧
      link.toWorker = [] ∧ link.toCaller = [] ∧ link.worker.Has [] ∧ link.worker.Owes [] := by
  have balanced := sync.caller
  rw [ready] at balanced
  obtain ⟨all, enough⟩ := balanced
  have replied := sync.replies_le
  have served := sync.served_le
  obtain ⟨got, unsent, has, _, carried⟩ := sync.asked
  obtain ⟨got', unsent', _, owes, carried'⟩ := sync.answered (by rw [ready]; rfl)
  rw [List.getElem?_eq_none (by omega)] at carried carried'
  obtain ⟨nothing, _⟩ := List.append_eq_nil_iff.mp carried
  obtain ⟨rfl, empty⟩ := List.append_eq_nil_iff.mp nothing
  obtain ⟨nothing', rfl⟩ := List.append_eq_nil_iff.mp carried'
  obtain ⟨_, empty'⟩ := List.append_eq_nil_iff.mp nothing'
  exact ⟨by omega, empty, empty', has, owes⟩

/-- A call that begins keeps the link in step. -/
theorem Synchronised.call (request : Request D) : Synchronised calls (link.call request) := by
  unfold Link.call
  split
  · rename_i ready
    split
    · rename_i framable
      obtain ⟨⟨served, replied, finished⟩, empty, empty', has, owes⟩ := sync.between ready
      refine { sync with asked := ?_, answered := ?_, served_le := ?_, sent_le := ?_, caller := ?_,
                         framable := ?_, serves := ?_, produced := ?_, returned := ?_,
                         connected := ?_ }
      · refine ⟨[], _, has, rfl, ?_⟩
        simp only [empty, ← served, List.getElem?_concat_length, List.nil_append, requestFrame]
      · intro _
        have none : link.replies[link.finished.length]? = none :=
          List.getElem?_eq_none (by omega)
        refine ⟨[], [], rfl, owes, ?_⟩
        simp only [none, empty', replyFrame, List.append_nil]
      · simp only [List.length_append, List.length_singleton]
        omega
      · simp only [List.length_append, List.length_singleton]
        omega
      · exact ⟨⟨link.sent, rfl, finished⟩, (finished.symm.trans replied).le⟩
      · intro other member
        rcases List.mem_append.mp member with earlier | fresh
        · exact sync.framable other earlier
        · rw [List.mem_singleton.mp fresh]
          exact framable
      · intro index entry found
        obtain ⟨other, sent, serves⟩ := sync.serves index entry found
        exact ⟨other, found_append sent _, serves⟩
      · intro index response found
        obtain ⟨other, entry, sent, others⟩ := sync.produced index response found
        exact ⟨other, entry, found_append sent _, others⟩
      · intro index other called found connected
        obtain ⟨sent, replied⟩ := sync.returned index other called found connected
        exact ⟨found_append sent _, replied⟩
      · intro _
        exact sync.connected (by rw [ready]; rfl)
    · exact sync.finish_lost request rfl
  · exact sync.finish_lost request rfl
  · exact sync

/-- A method that begins keeps the link in step. -/
theorem Synchronised.operate (body : RequestBody D) : Synchronised calls (link.operate body) := by
  have numbered : Synchronised calls { link with nextRequestId := link.nextRequestId + 1 } :=
    { sync with }
  unfold Link.operate
  split
  · exact numbered.call _
  · exact numbered.call _
  · exact sync

/-- Sending part of a request keeps the link in step. -/
theorem Synchronised.callerSends (count : Nat) : Synchronised calls (link.callerSends count) := by
  unfold Link.callerSends
  split
  · rename_i request rest phase
    have isOpen : link.caller.isOpen = true := by
      rw [phase]
      rfl
    obtain ⟨got, unsent, has, owes, carried⟩ := sync.asked
    obtain ⟨got', unsent', has', owes', carried'⟩ := sync.answered isOpen
    have balanced := sync.caller
    rw [phase] at owes has' balanced
    have connected := sync.connected isOpen
    obtain rfl : unsent = rest := owes
    refine { sync with asked := ?_, answered := ?_, caller := ?_, connected := ?_ }
    · refine ⟨got, unsent.drop count, has, ?_, ?_⟩
      · simp only
        split
        · rename_i all
          exact all
        · rfl
      · rw [← carried, List.append_assoc, List.append_assoc, List.append_assoc,
          List.take_append_drop]
    · intro _
      refine ⟨got', unsent', ?_, owes', carried'⟩
      simp only
      split
      · exact has'
      · exact has'
    · simp only
      split
      · exact balanced
      · exact balanced
    · intro _
      exact connected
  · exact sync

/-! ### The connection reads -/

/-- A call returns with the reply that it was to read. -/
theorem Synchronised.finish_returned {got : Bytes} (phase : link.caller = .receiving request got)
    (next : link.replies[link.finished.length]? = some response) {called : Called D}
    (connected : called.connected = true) (own : called.response = response)
    (owes : link.worker.Owes []) :
    Synchronised calls (Link.finish { link with toCaller := [] } request called) := by
  have isOpen : link.caller.isOpen = true := by
    rw [phase]
    rfl
  obtain ⟨got', unsent', has', owes', carried'⟩ := sync.asked
  have balanced := sync.caller
  rw [phase] at balanced owes'
  obtain ⟨⟨earlier, split, finished⟩, _⟩ := balanced
  obtain ⟨inside, _⟩ := List.getElem?_eq_some_iff.mp next
  have replied := sync.replies_le
  have served := sync.served_le
  have total : link.sent.length = link.finished.length + 1 := by
    rw [split, List.length_append, List.length_singleton, finished]
  have ready : (Link.finish { link with toCaller := [] } request called).caller = .ready := by
    simp only [Link.finish, connected, ↓reduceIte]
  refine { asked := ?_, answered := ?_, served_le := sync.served_le, sent_le := sync.sent_le,
           worker := sync.worker, caller := ?_, framable := sync.framable, serves := sync.serves,
           produced := sync.produced, returned := ?_, connected := ?_, ordered := ?_ }
  · rw [ready]
    exact ⟨got', unsent', has', owes', carried'⟩
  · intro _
    rw [ready]
    refine ⟨[], [], rfl, owes, ?_⟩
    simp only [Link.finish, List.length_append, List.length_singleton]
    rw [List.getElem?_eq_none (by omega)]
    rfl
  · rw [ready]
    simp only [Link.finish, Caller.Balanced, List.length_append, List.length_singleton]
    omega
  · intro index other result found isConnected
    rcases found_snoc found with old | ⟨rfl, same⟩
    · exact sync.returned index other result old isConnected
    · obtain ⟨rfl, rfl⟩ := Prod.mk.inj same
      refine ⟨?_, ?_⟩
      · change link.sent[link.finished.length]? = _
        rw [split, ← finished, List.getElem?_concat_length]
      · rw [own]
        exact next
  · intro _ entry member
    rcases List.mem_append.mp member with old | fresh
    · exact sync.connected isOpen entry old
    · rw [List.mem_singleton.mp fresh]
      exact connected
  · refine List.pairwise_append.mpr ⟨sync.ordered, List.pairwise_singleton _ _, ?_⟩
    intro old member _ _ _
    exact sync.connected isOpen old member

/-- While the reply is incomplete, a read only moves its bytes. -/
theorem Synchronised.callerTakes {got taken rest : Bytes}
    (phase : link.caller = .receiving request got)
    (together : taken ++ rest = got ++ link.toCaller) :
    Synchronised calls { link with toCaller := rest, caller := .receiving request taken } ∧
      ∃ unsent, link.worker.Owes unsent ∧
        taken ++ rest ++ unsent = replyFrame link.replies[link.finished.length]? := by
  have isOpen : link.caller.isOpen = true := by
    rw [phase]
    rfl
  obtain ⟨had, unsent, has, owes, carried⟩ := sync.answered isOpen
  obtain ⟨got', unsent', has', owes', carried'⟩ := sync.asked
  have balanced := sync.caller
  rw [phase] at has balanced owes'
  rw [show had = got from has, ← together] at carried
  refine ⟨?_, unsent, owes, carried⟩
  exact
    { sync with
      asked := ⟨got', unsent', has', owes', carried'⟩
      answered := fun _ => ⟨taken, unsent, rfl, owes, carried⟩
      caller := balanced
      connected := fun _ => sync.connected isOpen }

/-- Reading part of a reply keeps the link in step. -/
theorem Synchronised.callerReads (count : Nat) : Synchronised calls (link.callerReads count) := by
  unfold Link.callerReads
  split
  · rename_i request got phase
    rcases fetched : lengthPrefixed.fetch got link.toCaller count with ⟨taken, rest⟩
    have together := lengthPrefixed.fetch_append got link.toCaller count
    rw [fetched] at together
    obtain ⟨more, unsent, owes, carried⟩ := sync.callerTakes phase together
    cases next : link.replies[link.finished.length]? with
    | none =>
        rw [next] at carried
        obtain ⟨nothing, _⟩ := List.append_eq_nil_iff.mp carried
        obtain ⟨rfl, rfl⟩ := List.append_eq_nil_iff.mp nothing
        exact more
    | some response =>
        rw [next, List.append_assoc] at carried
        have balanced := sync.caller
        rw [phase] at balanced
        obtain ⟨⟨earlier, split, finished⟩, _⟩ := balanced
        obtain ⟨asker, _, sent, _, _, accepted⟩ := sync.produced _ response next
        obtain rfl : asker = request := by
          rw [split, ← finished, List.getElem?_concat_length] at sent
          exact (Option.some.inj sent).symm
        rcases lengthPrefixed.progress_cases accepted.framable carried with
          ⟨whole, ended⟩ | ⟨missing, wants⟩
        · change progress taken = .whole _ at whole
          obtain ⟨rfl, rfl⟩ := List.append_eq_nil_iff.mp ended
          simp only [whole]
          obtain ⟨connected, own⟩ := conclude_accepted accepted emptyResponse
          exact sync.finish_returned phase next connected own owes
        · change progress taken = .wants missing at wants
          simp only [wants]
          exact more
  · exact sync

/-! ### The worker -/

/-- A worker that closes keeps the link in step. -/
theorem Synchronised.workerCloses : Synchronised calls { link with worker := .closed } := by
  obtain ⟨got, unsent, _, owes, carried⟩ := sync.asked
  refine { sync with
    asked := ⟨got, unsent, trivial, owes, carried⟩, answered := ?_, worker := sync.replies_le }
  intro isOpen
  obtain ⟨got', unsent', has', _, carried'⟩ := sync.answered isOpen
  exact ⟨got', unsent', has', trivial, carried'⟩

/-- Sending part of a reply keeps the link in step. -/
theorem Synchronised.workerSends (count : Nat) : Synchronised calls (link.workerSends count) := by
  unfold Link.workerSends
  split
  · rename_i rest phase
    obtain ⟨got, unsent, has, owes, carried⟩ := sync.asked
    have balanced := sync.worker
    rw [phase] at has balanced
    refine { sync with asked := ?_, answered := ?_, worker := ?_ }
    · refine ⟨got, unsent, ?_, owes, carried⟩
      simp only
      split
      · exact has
      · exact has
    · intro isOpen
      obtain ⟨got', unsent', has', owes', carried'⟩ := sync.answered isOpen
      rw [phase] at owes'
      rw [show unsent' = rest from owes'] at carried'
      refine ⟨got', rest.drop count, has', ?_, ?_⟩
      · simp only
        split
        · rename_i all
          exact all
        · rfl
      · rw [← carried', List.append_assoc, List.append_assoc, List.append_assoc,
          List.take_append_drop]
    · simp only
      split
      · exact balanced
      · exact balanced
  · exact sync

/-- The worker starts to send the response that it owes. -/
theorem Synchronised.startReply {entry : Served D}
    (asked : ∃ unsent, link.caller.Owes unsent ∧ link.toWorker ++ unsent =
      requestFrame link.sent[link.served.length]?)
    (owed : link.served.length = link.replies.length + 1)
    (sent : link.sent[link.replies.length]? = some request)
    (served : link.served[link.replies.length]? = some entry)
    (produced : Produced calls request response entry)
    (accepted : Accepted request.requestId response) :
    Synchronised calls (link.startReply response) := by
  rw [Link.startReply, if_pos accepted.framable]
  refine { sync with asked := ?_, answered := ?_, worker := ?_, caller := ?_, produced := ?_,
                     returned := ?_ }
  · obtain ⟨unsent, owes, carried⟩ := asked
    exact ⟨[], unsent, rfl, owes, carried⟩
  · intro isOpen
    obtain ⟨finished, sentLe⟩ := sync.finished_le isOpen
    have servedLe := sync.served_le
    have last : link.finished.length = link.replies.length := by omega
    obtain ⟨got, unsent, has, _, carried⟩ := sync.answered isOpen
    rw [List.getElem?_eq_none last.ge] at carried
    obtain ⟨nothing, _⟩ := List.append_eq_nil_iff.mp carried
    obtain ⟨rfl, empty⟩ := List.append_eq_nil_iff.mp nothing
    refine ⟨[], _, has, rfl, ?_⟩
    simp only [empty, last, List.getElem?_concat_length, List.nil_append, replyFrame]
  · simp only [Worker.Balanced, List.length_append, List.length_singleton]
    exact owed.symm
  · have balanced := sync.caller
    simp only [List.length_append, List.length_singleton]
    cases phase : link.caller with
    | closed => trivial
    | _ =>
        rw [phase] at balanced
        exact ⟨balanced.1, Nat.le_succ_of_le balanced.2⟩
  · intro index other found
    rcases found_snoc found with old | ⟨rfl, rfl⟩
    · exact sync.produced index other old
    · exact ⟨request, entry, sent, served, produced, accepted⟩
  · intro index other called found connected
    obtain ⟨wasSent, replied⟩ := sync.returned index other called found connected
    exact ⟨wasSent, found_append replied _⟩

/-- The handler returns, with a response that the connection can accept. -/
theorem Synchronised.workerReplies
    (accepts : ∀ (ticket : Nat) call response, calls[ticket]? = some call →
      call.result? = some response → Accepted call.request.requestId response) :
    Synchronised calls (link.workerReplies calls) := by
  unfold Link.workerReplies
  split
  · rename_i ticket phase
    split
    · rename_i response returned
      obtain ⟨call, made, result⟩ := Option.bind_eq_some_iff.mp returned
      have balanced := sync.worker
      obtain ⟨got, unsent, has, owes, carried⟩ := sync.asked
      rw [phase] at balanced has
      rw [show got = [] from has] at carried
      obtain ⟨earlier, executed, split, count⟩ := balanced
      have served : link.served[link.replies.length]? = some (.executed executed ticket) := by
        rw [split, count, List.getElem?_concat_length]
      obtain ⟨request, sent, rfl, call', made', own⟩ := sync.serves _ _ served
      rw [made, Option.some.injEq] at made'
      subst made'
      refine sync.startReply ⟨unsent, owes, carried⟩ ?_ sent served
        ⟨rfl, call, made, own, result⟩ ?_
      · rw [split, List.length_append, List.length_singleton, count]
      · rw [← own]
        exact accepts ticket call response made result
    · exact sync
  · exact sync

/-- The worker has read a whole request. -/
theorem Synchronised.serve {entry : Served D} {worker : Worker}
    (next : link.sent[link.served.length]? = some request) (serves : Serves calls request entry)
    (owes : link.caller.Owes []) (has : worker.Has [])
    (idle : ∀ unsent, link.worker.Owes unsent → worker.Owes unsent)
    (balanced : worker.Balanced (link.served ++ [entry]) link.replies.length) :
    Synchronised calls
      { link with toWorker := [], served := link.served ++ [entry], worker := worker } := by
  obtain ⟨inside, _⟩ := List.getElem?_eq_some_iff.mp next
  have sentLe := sync.sent_le
  refine { sync with asked := ?_, answered := ?_, served_le := ?_, sent_le := ?_,
                     worker := balanced, serves := ?_, produced := ?_ }
  · refine ⟨[], [], has, owes, ?_⟩
    simp only [List.length_append, List.length_singleton]
    rw [List.getElem?_eq_none (by omega)]
    rfl
  · intro isOpen
    obtain ⟨got, unsent, has, owes, carried⟩ := sync.answered isOpen
    exact ⟨got, unsent, has, idle unsent owes, carried⟩
  · simp only [List.length_append, List.length_singleton]
    omega
  · simp only [List.length_append, List.length_singleton]
    omega
  · intro index other found
    rcases found_snoc found with old | ⟨rfl, rfl⟩
    · exact sync.serves index other old
    · exact ⟨request, next, serves⟩
  · intro index response found
    obtain ⟨asker, other, sent, served, others⟩ := sync.produced index response found
    exact ⟨asker, other, sent, found_append served _, others⟩

/-- While the request is incomplete, a read only moves its bytes. -/
theorem Synchronised.workerTakes {got taken rest : Bytes} (phase : link.worker = .reading got)
    (together : taken ++ rest = got ++ link.toWorker) :
    Synchronised calls { link with toWorker := rest, worker := .reading taken } ∧
      ∃ unsent, link.caller.Owes unsent ∧
        taken ++ rest ++ unsent = requestFrame link.sent[link.served.length]? := by
  obtain ⟨had, unsent, has, owes, carried⟩ := sync.asked
  have balanced := sync.worker
  rw [phase] at has balanced
  rw [show had = got from has, ← together] at carried
  refine ⟨?_, unsent, owes, carried⟩
  exact
    { sync with
      asked := ⟨taken, unsent, rfl, owes, carried⟩
      answered := by
        intro isOpen
        obtain ⟨got', unsent', has', owes', carried'⟩ := sync.answered isOpen
        rw [phase] at owes'
        exact ⟨got', unsent', has', owes', carried'⟩
      worker := balanced }

/-- A request that the worker rejects is answered at once. -/
theorem Synchronised.reject {got : Bytes} (phase : link.worker = .reading got)
    (next : link.sent[link.served.length]? = some request) (owes : link.caller.Owes [])
    (received : (receive (encodeRequest request []) : Received D) = .reject response) :
    Synchronised calls (Link.startReply
      { link with
        toWorker := [], served := link.served ++ [.rejected response], worker := .closed }
      response) := by
  have balanced := sync.worker
  rw [phase] at balanced
  have count : link.replies.length = link.served.length := balanced
  have serves : Serves calls request (.rejected response) := received
  have rejected : Synchronised calls
      { link with
        toWorker := [], served := link.served ++ [.rejected response], worker := .closed } := by
    refine sync.serve next serves owes trivial (fun _ _ => trivial) ?_
    rw [Worker.Balanced, List.length_append, count]
    exact Nat.le_add_right _ _
  have done : link.sent[link.served.length + 1]? = none := List.getElem?_eq_none sync.sent_le
  have produced : Produced calls request response (.rejected response) := ⟨rfl, received⟩
  refine rejected.startReply ⟨[], owes, ?_⟩ ?_ (count ▸ next) ?_ produced (receive_reject received)
  · simp only [List.length_append, List.length_singleton, done]
    rfl
  · simp only [List.length_append, List.length_singleton, count]
  · simp only [count, List.getElem?_concat_length]

/-- The worker reads. A request that it passes on is the handler's next call. -/
theorem Synchronised.workerReads (ticket count : Nat)
    (passed : ∀ request, (link.workerReads ticket count).2 = some request →
      ∃ call, calls[ticket]? = some call ∧ call.request = request) :
    Synchronised calls (link.workerReads ticket count).1 := by
  cases phase : link.worker with
  | reading got =>
      rcases fetched : lengthPrefixed.fetch got link.toWorker count with ⟨taken, rest⟩
      have together := lengthPrefixed.fetch_append got link.toWorker count
      rw [fetched] at together
      obtain ⟨more, unsent, owes, carried⟩ := sync.workerTakes phase together
      simp only [Link.workerReads, phase, fetched] at passed ⊢
      cases next : link.sent[link.served.length]? with
      | none =>
          rw [next] at carried
          obtain ⟨nothing, _⟩ := List.append_eq_nil_iff.mp carried
          obtain ⟨rfl, rfl⟩ := List.append_eq_nil_iff.mp nothing
          exact more
      | some request =>
          have framable := sync.framable request (List.mem_of_getElem? next)
          rw [next, List.append_assoc] at carried
          rcases lengthPrefixed.progress_cases framable carried with
            ⟨whole, ended⟩ | ⟨missing, wants⟩
          · change progress taken = .whole _ at whole
            obtain ⟨rfl, rfl⟩ := List.append_eq_nil_iff.mp ended
            simp only [whole] at passed ⊢
            cases received : (receive (encodeRequest request []) : Received D) with
            | execute executed =>
                obtain rfl := receive_execute framable received
                simp only [received] at passed ⊢
                obtain ⟨call, made, own⟩ := passed executed rfl
                have balanced := sync.worker
                rw [phase] at balanced
                exact sync.serve next ⟨rfl, call, made, own⟩ owes rfl
                  (fun _ => by rw [phase]; exact id) ⟨link.served, executed, rfl, balanced⟩
            | reject response => exact sync.reject phase next owes received
            | hangUp error => exact more.workerCloses
          · change progress taken = .wants missing at wants
            simp only [wants]
            exact more
  | _ =>
      simp only [Link.workerReads, phase]
      exact sync

/-- Every label keeps a link synchronised, if the request that it passes on becomes the
handler's next call. -/
theorem Synchronised.step (label : LinkLabel D)
    (accepts : ∀ (ticket : Nat) call response, calls[ticket]? = some call →
      call.result? = some response → Accepted call.request.requestId response)
    {after : List (Call S (Request D) (Response D))} (carry : System.CarryOn calls after)
    (passed : ∀ request, (link.step calls label).2 = some request →
      ∃ call, after[calls.length]? = some call ∧ call.request = request) :
    Synchronised after (link.step calls label).1 := by
  cases label with
  | call request => exact (sync.call request).carryOn carry
  | operate body => exact (sync.operate body).carryOn carry
  | callerSends count => exact (sync.callerSends count).carryOn carry
  | callerReads count => exact (sync.callerReads count).carryOn carry
  | callerFails status => exact (sync.callerFails status).carryOn carry
  | callerCloses => exact sync.callerCloses.carryOn carry
  | workerReads count => exact (sync.carryOn carry).workerReads calls.length count passed
  | workerReplies => exact (sync.workerReplies accepts).carryOn carry
  | workerSends count => exact (sync.workerSends count).carryOn carry
  | workerCloses => exact sync.workerCloses.carryOn carry

end Steps

/-- A link on which nothing has been sent. -/
theorem synchronised_fresh [BitCast D] (daemon : Nat) :
    Synchronised calls ({ daemon } : Link D) where
  asked := ⟨[], [], rfl, rfl, rfl⟩
  answered _ := ⟨[], [], rfl, rfl, rfl⟩
  served_le := Nat.le_refl 0
  sent_le := Nat.zero_le 1
  worker := rfl
  caller := ⟨rfl, Nat.le_refl 0⟩
  framable _ member := absurd member List.not_mem_nil
  serves _ _ found := by cases found
  produced _ _ found := by cases found
  returned _ _ _ found := by cases found
  connected _ _ member := absurd member List.not_mem_nil
  ordered := .nil

/-- What a link passes to the handler was decoded. -/
theorem decoded_of_passed [BitCast D] {label : LinkLabel D}
    (passed : (link.step calls label).2 = some request) :
    ∃ body out, decodeRequest body out = (.none, request) := by
  cases label with
  | workerReads count =>
      simp only [Link.step, Link.workerReads] at passed
      split at passed
      · rename_i got phase
        split at passed
        · cases passed
        · cases passed
        · rename_i body whole
          split at passed
          · rename_i executed received
            obtain rfl := Option.some.inj passed
            refine ⟨body, ⟨0, defaultRequestBody⟩, ?_⟩
            unfold receive at received
            split at received
            · rename_i decoded
              rw [← Received.execute.inj received]
              exact decoded
            · cases received
            · cases received
          · cases passed
          · cases passed
      · cases passed
  | _ => cases passed

end Records

end Lrd.Client
