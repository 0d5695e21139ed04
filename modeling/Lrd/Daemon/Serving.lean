import Lrd.Daemon.Replies
import Lrd.Proto.FrameSteps
import Lrd.Proto.Refusal

/-!
# Serving a connection

The loop of `Server::serve_connection` (`daemon/server.cpp`) over the two directions of a
socket. Where no call of the socket fails, what the worker does is a function of the bytes
that arrive (`replies`), however they are cut into chunks: one reply to each frame, up to the
first that it hangs up on.

A request whose fields are too large is answered without being executed, and the worker then
goes on behind its frame as if the frame had not been there (`over_limit_answered`).
-/

namespace Lrd.Daemon

open Foundation Rank Net Proto BinaryCodec

variable {D : Type} [BitCast D] {m : Type → Type} [Monad m]

/-- The loop of `serve_connection` for a connection that has been registered, with the buffer
that every body is read into. It ends when a frame cannot be read or is not understood, or a
reply cannot be sent. -/
def serveLoop (handle : Request D → m (Response D)) :
    Nat → Bytes → Incoming → Outgoing → m (Incoming × Outgoing)
  | 0, _, incoming, outgoing => pure (incoming, outgoing)
  | fuel + 1, buffer, incoming, outgoing =>
      let (frame, body, incoming) := readFrame buffer incoming
      if frame.status ≠ .ok then pure (incoming, outgoing)
      else
        match receive body with
        | .hangUp _ => pure (incoming, outgoing)
        | .reject rejection =>
            let (written, _, outgoing) := writeMessage (.response rejection) outgoing
            if written.status ≠ .ok then pure (incoming, outgoing)
            else serveLoop handle fuel body incoming outgoing
        | .execute request => do
            let response ← handle request
            let (written, _, outgoing) := writeMessage (.response response) outgoing
            if written.status ≠ .ok then pure (incoming, outgoing)
            else serveLoop handle fuel body incoming outgoing

/-- Every turn of the loop takes a frame, so as many turns as bytes are enough. -/
def serveConnection (handle : Request D → m (Response D)) (incoming : Incoming)
    (outgoing : Outgoing) : m (Incoming × Outgoing) :=
  serveLoop handle (incoming.bytes.length + 1) [] incoming outgoing

/-! ## Frames in a stream of bytes -/

/-- The first frame of a stream, with what follows it. -/
def nextFrame (bytes : Bytes) : Option (Bytes × Bytes) :=
  let length := loadBeU32 (bytes.take kLengthPrefixSize)
  if kLengthPrefixSize + length.toNat ≤ bytes.length ∧
      ¬ (length < kMinFrameSize ∨ kMaxFrameSize < length) then
    some ((bytes.drop kLengthPrefixSize).take length.toNat,
      bytes.drop (kLengthPrefixSize + length.toNat))
  else none

variable {bytes body rest : Bytes} {incoming : Incoming} {outgoing : Outgoing} {request : Request D}

/-- It is the frame that the stream begins with. -/
theorem nextFrame_eq_some_iff :
    nextFrame bytes = some (body, rest) ↔ Framable body ∧ bytes = frameBytes body ++ rest := by
  constructor
  · intro next
    simp only [nextFrame, Option.ite_none_right_eq_some, Option.some.injEq, Prod.mk.injEq] at next
    obtain ⟨⟨long, inside⟩, rfl, rfl⟩ := next
    generalize whole : loadBeU32 (bytes.take kLengthPrefixSize) = length at long inside
    have four : (bytes.take kLengthPrefixSize).length = kLengthPrefixSize := by
      rw [List.length_take]
      omega
    have size : ((bytes.drop kLengthPrefixSize).take length.toNat).length = length.toNat := by
      rw [List.length_take, List.length_drop]
      omega
    rw [not_or, UInt32.not_lt, UInt32.not_lt, UInt32.le_iff_toNat_le, UInt32.le_iff_toNat_le]
      at inside
    refine ⟨?_, ?_⟩
    · rw [Framable, size]
      exact inside
    · rw [frameBytes, size, UInt32.ofNat_toNat, ← whole, u32Bytes_loadBeU32 four, whole,
        List.append_assoc, ← List.drop_drop, List.take_append_drop, List.take_append_drop]
  · intro given
    obtain ⟨framable, rfl⟩ := given
    have four := length_u32Bytes (UInt32.ofNat body.length)
    have front : (frameBytes body ++ rest).take kLengthPrefixSize =
        u32Bytes (UInt32.ofNat body.length) := by
      rw [frameBytes, List.append_assoc, ← four, List.take_left]
    have behind : (frameBytes body ++ rest).drop kLengthPrefixSize = body ++ rest := by
      rw [frameBytes, List.append_assoc, ← four, List.drop_left]
    have long : kLengthPrefixSize + body.length ≤ (frameBytes body ++ rest).length := by
      rw [List.length_append, length_frameBytes]
      exact Nat.le_add_right _ _
    simp only [nextFrame, front, loadBeU32_u32Bytes, framable.toNat_length, long, framable.inRange,
      not_false_eq_true, and_self, ↓reduceIte, ← List.drop_drop, behind, List.take_left,
      List.drop_left]

/-- A frame takes something off the stream. -/
theorem nextFrame_shorter (next : nextFrame bytes = some (body, rest)) :
    rest.length < bytes.length := by
  obtain ⟨_, rfl⟩ := nextFrame_eq_some_iff.mp next
  rw [List.length_append, length_frameBytes, kLengthPrefixSize]
  omega

/-- A stream that begins with a whole frame has a next one. -/
theorem nextFrame_of_whole {taken body : Bytes} (whole : progress taken = .whole body)
    (rest : Bytes) : nextFrame (taken ++ rest) ≠ none := by
  unfold progress at whole
  split at whole
  · cases whole
  rename_i long
  dsimp only at whole
  split at whole
  · cases whole
  rename_i inside
  split at whole
  · cases whole
  rename_i full
  have front : (taken ++ rest).take kLengthPrefixSize = taken.take kLengthPrefixSize :=
    List.take_append_of_le_length (Nat.not_lt.mp long)
  have enough : kLengthPrefixSize + (loadBeU32 (taken.take kLengthPrefixSize)).toNat ≤
      (taken ++ rest).length := by
    rw [List.length_append]
    omega
  simp only [nextFrame, front, enough, inside, not_false_eq_true, and_self, ↓reduceIte, ne_eq,
    reduceCtorEq]

/-- What `read_frame` finds in a stream that does not fail is its next frame. -/
theorem readFrame_nextFrame (buffer : Bytes) (steady : incoming.Steady) :
    match nextFrame incoming.bytes with
    | some (body, rest) => ∃ later : Incoming, later.Steady ∧ later.bytes = rest ∧
        readFrame buffer incoming = (⟨.ok, none, UInt32.ofNat body.length⟩, body, later)
    | none => (readFrame buffer incoming).1.status ≠ .ok := by
  cases next : nextFrame incoming.bytes with
  | some found =>
      obtain ⟨framable, split⟩ := nextFrame_eq_some_iff.mp next
      exact readFrame_whole buffer steady framable split
  | none =>
      intro ok
      obtain ⟨taken, split, along⟩ := readFrame_progress buffer incoming
      cases arrived : progress taken with
      | whole body =>
          rw [split] at next
          exact nextFrame_of_whole arrived _ next
      | wants missing =>
          rw [arrived] at along
          exact along.1 ok
      | broken =>
          rw [arrived] at along
          have oversized : FrameStatus.ok = .oversized := ok.symm.trans along
          cases oversized

/-! ## Replies -/

/-- Send a reply and go on, unless it does not fit into a frame. -/
def sendThen (response : Response D) (next : m Bytes) : m Bytes :=
  if Framable (encodeResponse response []) then do
    let more ← next
    return frameBytes (encodeResponse response []) ++ more
  else pure []

/-- What the worker sends for a stream of bytes. -/
def replies (handle : Request D → m (Response D)) (bytes : Bytes) : m Bytes :=
  match _next : nextFrame bytes with
  | none => pure []
  | some (body, rest) =>
      match receive body with
      | .hangUp _ => pure []
      | .reject rejection => sendThen rejection (replies handle rest)
      | .execute request => do
          let response ← handle request
          sendThen response (replies handle rest)
termination_by bytes.length
decreasing_by
  all_goals exact nextFrame_shorter (by assumption)

/-- Without a frame there is no reply. -/
theorem replies_none (handle : Request D → m (Response D)) {bytes : Bytes}
    (next : nextFrame bytes = none) : replies handle bytes = pure [] := by
  rw [replies]
  split
  · rfl
  · rename_i found
    rw [next] at found
    cases found

/-- The reply to a frame, and what follows it. -/
theorem replies_some (handle : Request D → m (Response D))
    (next : nextFrame bytes = some (body, rest)) :
    replies handle bytes =
      match receive body with
      | .hangUp _ => pure []
      | .reject rejection => sendThen rejection (replies handle rest)
      | .execute request =>
          handle request >>= fun response => sendThen response (replies handle rest) := by
  rw [replies]
  split
  · rename_i missing
    rw [next] at missing
    cases missing
  · rename_i body' rest' found
    rw [next] at found
    cases found
    rfl

/-! ## The loop follows the replies -/

/-- Where every call takes something, a reply is sent whole or, if it does not fit into a
frame, not at all. -/
theorem writeMessage_willing (response : Response D) (willing : Willing outgoing.answers) :
    ∃ written buffer after, writeMessage (.response response) outgoing = (written, buffer, after) ∧
      Willing after.answers ∧
      if Framable (encodeResponse response []) then
        written.status = .ok ∧ after.sent = outgoing.sent ++ frameBytes (encodeResponse response [])
      else written.status ≠ .ok ∧ after.sent = outgoing.sent := by
  by_cases framable : Framable (encodeResponse response [])
  · obtain ⟨written, buffer, after, wrote, ok, calm, sent⟩ :=
      writeMessage_framable (.response response) framable willing
    refine ⟨written, buffer, after, wrote, calm, ?_⟩
    rw [if_pos framable]
    exact ⟨ok, sent⟩
  · obtain ⟨written, buffer, wrote, oversized⟩ :=
      writeMessage_oversized (.response response) framable outgoing
    refine ⟨written, buffer, outgoing, wrote, willing, ?_⟩
    rw [if_neg framable, oversized]
    exact ⟨by simp, rfl⟩

section Lawful

variable [LawfulMonad m] (handle : Request D → m (Response D))

/-- Sending a reply in the loop sends its frame before what follows. -/
theorem sent_sendThen (response : Response D) (willing : Willing outgoing.answers)
    (incoming : Incoming) {next : Outgoing → m (Incoming × Outgoing)} {more : m Bytes}
    (follows : ∀ after : Outgoing, Willing after.answers → (do return (← next after).2.sent) =
      (do return after.sent ++ (← more))) :
    (do
        let final ← (if (writeMessage (.response response) outgoing).1.status ≠ .ok then
            pure (incoming, (writeMessage (.response response) outgoing).2.2)
          else next (writeMessage (.response response) outgoing).2.2)
        return final.2.sent) =
      (do return outgoing.sent ++ (← sendThen response more)) := by
  obtain ⟨written, buffer, after, wrote, calm, sent⟩ := writeMessage_willing response willing
  rw [wrote, sendThen]
  by_cases framable : Framable (encodeResponse response [])
  · rw [if_pos framable] at sent
    simp only [if_pos framable, sent.1, ne_eq, not_true_eq_false, ↓reduceIte, follows after calm,
      sent.2, bind_assoc, pure_bind, List.append_assoc]
  · rw [if_neg framable] at sent
    simp only [if_neg framable, if_pos sent.1, pure_bind, sent.2, List.append_nil]

/-- On a socket that does not fail the loop sends the replies to what arrives. -/
theorem serveLoop_replies {fuel : Nat} (buffer : Bytes) (steady : incoming.Steady)
    (willing : Willing outgoing.answers) (enough : incoming.bytes.length < fuel) :
    (do return (← serveLoop handle fuel buffer incoming outgoing).2.sent) =
      (do return outgoing.sent ++ (← replies handle incoming.bytes)) := by
  induction fuel generalizing buffer incoming outgoing with
  | zero => omega
  | succ fuel ih =>
      have read := readFrame_nextFrame buffer steady
      cases next : nextFrame incoming.bytes with
      | none =>
          rw [next] at read
          rw [replies_none handle next, serveLoop]
          simp only [if_pos read, pure_bind, List.append_nil]
      | some found =>
          obtain ⟨body, rest⟩ := found
          rw [next] at read
          obtain ⟨later, calm, rfl, fetched⟩ := read
          have fewer : later.bytes.length < fuel := by
            have shorter := nextFrame_shorter next
            omega
          have follows : ∀ after : Outgoing, Willing after.answers →
              (do return (← serveLoop handle fuel body later after).2.sent) =
                (do return after.sent ++ (← replies handle later.bytes)) :=
            fun after ready => ih body calm ready fewer
          rw [replies_some handle next, serveLoop]
          simp only [fetched, ne_eq, not_true_eq_false, ↓reduceIte]
          cases (receive body : Received D) with
          | hangUp error => simp only [pure_bind, List.append_nil]
          | reject rejection => exact sent_sendThen rejection willing later follows
          | execute request =>
              simp only [bind_assoc]
              refine bind_congr fun response => ?_
              exact sent_sendThen response willing later follows

/-- Where no call of the socket fails, what a worker sends is what the bytes that arrive ask
for. -/
theorem serveConnection_replies (steady : incoming.Steady) (willing : Willing outgoing.answers) :
    (do return (← serveConnection handle incoming outgoing).2.sent) =
      (do return outgoing.sent ++ (← replies handle incoming.bytes)) :=
  serveLoop_replies handle [] steady willing (Nat.lt_succ_self _)

end Lawful

/-! ## Requests out of their limits -/

/-- The answer to a request that is out of its limits. -/
def tooLarge (requestId : UInt64) : Response D :=
  makeError requestId .invalidRequest (text "FieldTooLarge")

/-- A request that is out of its limits is rejected, with its own id. -/
theorem receive_outside (below : request.body.Below (2 ^ 32))
    (outside : ¬ request.body.WithinLimits) :
    (receive (encodeRequest request []) : Received D) = .reject (tooLarge request.requestId) := by
  rw [receive, decodeRequest_outside below outside]
  rfl

/-- The client takes it as the answer to its request. -/
theorem accepted_tooLarge (requestId : UInt64) :
    Accepted requestId (tooLarge requestId : Response D) := by
  refine accepted_of_limits rfl ?_ trivial
  change (text "FieldTooLarge").length ≤ kMaxMessageLength
  decide +kernel

/-- The rejection is one frame, and the rest of the stream is served as if it were all. -/
theorem replies_outside (below : request.body.Below (2 ^ 32))
    (outside : ¬ request.body.WithinLimits) (framable : Framable (encodeRequest request []))
    (handle : Request D → m (Response D)) (rest : Bytes) :
    replies handle (frameBytes (encodeRequest request []) ++ rest) =
      (do
        let more ← replies handle rest
        return frameBytes (encodeResponse (tooLarge request.requestId : Response D) []) ++ more) := by
  rw [replies_some handle (nextFrame_eq_some_iff.mpr ⟨framable, rfl⟩),
    receive_outside below outside]
  simp only [sendThen, if_pos (accepted_tooLarge (D := D) request.requestId).framable]

/-- A value computed from what a program returns costs no further step. -/
theorem run_return {S : Signature} {α β σ : Type} (program : Program S α) (f : α → β)
    (semantics : (op : S.Op) → σ → S.Answer op × σ) (state : σ) :
    ((do return f (← program)).run semantics state).2 = (program.run semantics state).2 := by
  rw [Program.run_bind]
  rfl

/-- The turn of the loop that meets the frame of such a request, whatever the socket does
later. -/
theorem serveLoop_outside (below : request.body.Below (2 ^ 32))
    (outside : ¬ request.body.WithinLimits) (handle : Request D → m (Response D)) (fuel : Nat)
    {buffer buffer' : Bytes} {incoming later : Incoming} {outgoing after : Outgoing}
    {read written : FrameResult}
    (fetched : readFrame buffer incoming = (read, encodeRequest request [], later))
    (whole : read.status = .ok)
    (wrote : writeMessage (.response (tooLarge request.requestId : Response D)) outgoing =
      (written, buffer', after)) (sent : written.status = .ok) :
    serveLoop handle (fuel + 1) buffer incoming outgoing =
      serveLoop handle fuel (encodeRequest request []) later after := by
  rw [serveLoop]
  simp only [fetched, whole, receive_outside below outside, wrote, sent, ne_eq, not_true_eq_false,
    ↓reduceIte]

/-- Requests that are out of their limits are answered. Such a request is refused as too
large, with its id. A worker that has read its frame and sent the error goes on with the next
frame. On a connection that does not fail it sends one error with that id, and then what it
would have sent without the frame; it takes the same steps of the handler as without it, so it
leaves the same state, and none if the stream ends there. -/
theorem over_limit_answered {D : Type} [Double D] {config : Config D} {request : Request D}
    (below : request.body.Below (2 ^ 32)) (outside : ¬ request.body.WithinLimits) :
    (∀ out : Request D, decodeRequest (encodeRequest request []) out =
      (.fieldTooLarge, ⟨request.requestId, defaultRequestBody⟩)) ∧
    (∀ (fuel : Nat) (buffer buffer' : Bytes) (incoming later : Incoming)
      (outgoing after : Outgoing) (read written : FrameResult),
      readFrame buffer incoming = (read, encodeRequest request [], later) → read.status = .ok →
      writeMessage (.response (tooLarge request.requestId : Response D)) outgoing =
        (written, buffer', after) → written.status = .ok →
      (serveLoop handle (fuel + 1) buffer incoming outgoing : Program (steps config) _) =
        serveLoop handle fuel (encodeRequest request []) later after) ∧
    (Framable (encodeRequest request []) → ∀ (rest : Bytes) (incoming other : Incoming)
      (outgoing : Outgoing) (buffer buffer' : Bytes) (fuel fuel' : Nat),
      incoming.Steady → other.Steady → Willing outgoing.answers →
      incoming.bytes = frameBytes (encodeRequest request []) ++ rest → other.bytes = rest →
      incoming.bytes.length < fuel → other.bytes.length < fuel' →
      let served : Program (steps config) (Incoming × Outgoing) :=
        serveLoop handle fuel buffer incoming outgoing
      let without : Program (steps config) (Incoming × Outgoing) :=
        serveLoop handle fuel' buffer' other outgoing
      ((do return (← served).2.sent) = do
        return outgoing.sent ++
          (frameBytes (encodeResponse (tooLarge request.requestId : Response D) []) ++
            (← replies handle rest))) ∧
      ((do return (← without).2.sent) = do return outgoing.sent ++ (← replies handle rest)) ∧
      (∀ clock state, (served.run (perform clock) state).2 =
        (without.run (perform clock) state).2) ∧
      (rest = [] → ∀ clock state, (served.run (perform clock) state).2 = state)) := by
  refine ⟨decodeRequest_outside below outside, ?_, ?_⟩
  · intro fuel buffer buffer' incoming later outgoing after read written fetched whole wrote sent
    exact serveLoop_outside below outside handle fuel fetched whole wrote sent
  intro framable rest incoming other outgoing buffer buffer' fuel fuel' steady steady' willing
    split split' enough enough' served without
  have here : (do return (← served).2.sent) = (do
      return outgoing.sent ++
        (frameBytes (encodeResponse (tooLarge request.requestId : Response D) []) ++
          (← replies handle rest))) := by
    rw [serveLoop_replies handle buffer steady willing enough, split,
      replies_outside below outside framable]
    simp only [bind_assoc, pure_bind]
  have there : (do return (← without).2.sent) = (do
      return outgoing.sent ++ (← replies handle rest)) := by
    rw [serveLoop_replies handle buffer' steady' willing enough', split']
  have same : ∀ clock state, (served.run (perform clock) state).2 =
      ((replies handle rest).run (perform clock) state).2 := by
    intro clock state
    rw [← run_return served (fun final => final.2.sent), here, run_return]
  refine ⟨here, there, ?_, ?_⟩
  · intro clock state
    rw [same, ← run_return without (fun final => final.2.sent), there, run_return]
  · intro ended clock state
    rw [same, ended, replies_none handle rfl]
    rfl

/-- A preview that asks for one entry too many. -/
def overfull : Request UInt64 := ⟨7, .recommend ⟨⟨[], []⟩, 101, true⟩⟩

/-- A worker that meets this preview and nothing else leaves the handler as it was. -/
theorem over_limit_answered_overfull :
    ((serveLoop handle 64 [] (Incoming.putBack (frameBytes (encodeRequest overfull [])) [])
      ⟨[], []⟩ : Program (steps wordDaemon) _).run (perform ⟨0⟩) (State.initial wordDaemon)).2 =
        State.initial wordDaemon := by
  have below : overfull.body.Below (2 ^ 32) := by
    refine ⟨?_, ?_, ?_, ?_⟩ <;> simp
  have outside : ¬ overfull.body.WithinLimits := by
    intro within
    exact absurd within.2 (by decide)
  obtain ⟨_, _, served⟩ := over_limit_answered below outside
  have steady : Incoming.Steady [] := by
    intro errno failed
    cases failed
  have willing : Willing [] := by
    intro answer member
    cases member
  obtain ⟨_, _, _, unchanged⟩ := served (by decide) []
    (Incoming.putBack (frameBytes (encodeRequest overfull [])) []) [] ⟨[], []⟩ [] [] 64 1
    (steady.putBack _) steady willing (Incoming.bytes_putBack _ []) rfl (by decide) (by decide)
  exact unchanged rfl ⟨0⟩ (State.initial wordDaemon)

end Lrd.Daemon
