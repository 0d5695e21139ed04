import Lrd.Daemon.Serving
import Lrd.Sdk.Restart

/-!
# Failures by their cause

What a failed call of the SDK is reported as. A cause passes through four vocabularies, of the
socket, of the frames, of a connection and of the client; and a connection knows one word for
every send or receive that fails. So a timeout is not told from a lost connection, and neither
is a request that is too large for a frame, which never leaves the client. All of these are
retried, and so is an attempt that gets no connection at all (`failures_classified`).
-/

namespace Lrd.Sdk

open Foundation Net Proto Daemon BinaryCodec Lrd.Client

variable {D : Type} [BitCast D]

/-! ## Causes on a connection -/

/-- The stream has ended, within a frame or not, or an error has come up. -/
def isLoss : FrameStatus → Bool
  | .peerClosed | .truncated | .ioError => true
  | _ => false

section Causes

variable (connection : Connection) (operation : Operation D)

/-- How the request of a method is sent. -/
def sending : FrameStatus :=
  (writeMessage (.request (connection.request operation)) connection.outgoing).1.status

/-- How the reply is received. -/
def receiving : FrameStatus :=
  (readFrame connection.readBuffer connection.incoming).1.status

/-- The request is not sent, or no reply is received. -/
def FailsInTransit : Prop :=
  operation.refusal? = none ∧ (sending connection operation ≠ .ok ∨ receiving connection ≠ .ok)

/-- The send or the receive of a call times out. -/
def TimesOut : Prop :=
  operation.refusal? = none ∧ (sending connection operation = .timedOut ∨
    sending connection operation = .ok ∧ receiving connection = .timedOut)

/-- The send or the receive of a call finds the connection closed or broken. -/
def LosesConnection : Prop :=
  operation.refusal? = none ∧ (isLoss (sending connection operation) = true ∨
    sending connection operation = .ok ∧ isLoss (receiving connection) = true)

/-- The request fits into a frame, and so does the reply by the length it announces. -/
def FitsFrames : Prop :=
  Framable (encodeRequest (connection.request operation) []) ∧
    (sending connection operation = .ok → receiving connection ≠ .oversized)

variable {connection operation}

/-- Sending gives up on the size of the request exactly if it does not fit into a frame. -/
theorem sending_oversized_iff :
    sending connection operation = .oversized ↔
      ¬ Framable (encodeRequest (connection.request operation) []) := by
  constructor
  · intro oversized framable
    have same : sending connection operation =
        (writeFrame (encodeRequest (connection.request operation) []) connection.outgoing).1.status :=
      congrArg (FrameResult.status ∘ Prod.fst)
        (Write.perform_message (.request (connection.request operation)) connection.outgoing)
    rw [same] at oversized
    exact writeFrame_ne_oversized framable connection.outgoing oversized
  · intro outside
    obtain ⟨written, _, wrote, oversized⟩ := writeMessage_oversized
      (.request (connection.request operation)) outside connection.outgoing
    rw [sending, wrote]
    exact oversized

/-- A timeout is a failure in transit. -/
theorem TimesOut.failsInTransit (late : TimesOut connection operation) :
    FailsInTransit connection operation := by
  obtain ⟨permitted, sending | ⟨_, receiving⟩⟩ := late
  · exact ⟨permitted, Or.inl (by rw [sending]; simp)⟩
  · exact ⟨permitted, Or.inr (by rw [receiving]; simp)⟩

/-- A connection that is lost is a failure in transit. -/
theorem LosesConnection.failsInTransit (loses : LosesConnection connection operation) :
    FailsInTransit connection operation := by
  obtain ⟨permitted, sending | ⟨_, receiving⟩⟩ := loses
  · refine ⟨permitted, Or.inl fun ok => ?_⟩
    rw [ok] at sending
    cases sending
  · refine ⟨permitted, Or.inr fun ok => ?_⟩
    rw [ok] at receiving
    cases receiving

/-- A failure in transit is a timeout or a loss, unless it is about the size of a frame. -/
theorem FailsInTransit.fitsFrames_iff (fails : FailsInTransit connection operation) :
    TimesOut connection operation ∨ LosesConnection connection operation ↔
      FitsFrames connection operation := by
  obtain ⟨permitted, unsent⟩ := fails
  rw [TimesOut, LosesConnection, FitsFrames, ← not_iff_comm.mp sending_oversized_iff.symm]
  simp only [permitted, true_and]
  cases sent : sending connection operation with
  | ok =>
      rw [sent] at unsent
      cases received : receiving connection with
      | ok => simp [received] at unsent
      | _ => simp [isLoss]
  | _ => simp [isLoss]

/-- A reply that was read does not lose the connection. -/
theorem conclude_not_lost (request : Request D) (out : Response D) (body : Bytes) :
    (conclude request out body).status ≠ .connectionLost := by
  unfold conclude
  simp only
  split
  · simp
  · split
    · simp
    · split
      · simp only
        split <;> simp
      · simp

omit [BitCast D] in
/-- Nor does what a method makes of it. -/
theorem settle_not_lost (operation : Operation D) {called : Called D}
    (held : called.status ≠ .connectionLost) :
    (operation.settle called).status ≠ .connectionLost := by
  rcases operation.settle_status called with same | absent | unexpected
  · rw [same]
    exact held
  · rw [absent]
    simp
  · rw [unexpected]
    simp

/-- A call whose request is not sent closes its connection. -/
theorem operate_unsent (permitted : operation.refusal? = none)
    (unsent : sending connection operation ≠ .ok) :
    (connection.operate operation).1 =
        sendFailed (sending connection operation) emptyResponse ∧
      (connection.operate operation).2.connected = false := by
  unfold sending at unsent
  unfold Connection.operate call
  simp only [permitted, if_pos unsent]
  refine ⟨operation.settle_failed ?_, rfl⟩
  simp [sendFailed]

/-- So does a call that receives no reply. -/
theorem operate_unanswered (permitted : operation.refusal? = none)
    (sent : sending connection operation = .ok) (unanswered : receiving connection ≠ .ok) :
    (connection.operate operation).1 = receiveFailed (receiving connection) emptyResponse ∧
      (connection.operate operation).2.connected = false := by
  unfold sending at sent
  unfold receiving at unanswered
  unfold Connection.operate call
  simp only [permitted, sent, ne_eq, not_true_eq_false, ↓reduceIte, if_pos unanswered]
  refine ⟨operation.settle_failed ?_, rfl⟩
  simp [receiveFailed]

/-- A call loses its connection exactly if it fails in transit. -/
theorem operate_lost_iff :
    (connection.operate operation).1.status = .connectionLost ↔
      FailsInTransit connection operation := by
  cases refused : operation.refusal? with
  | some message =>
      rw [operate_refused refused]
      simp [FailsInTransit, refused]
  | none =>
      rw [FailsInTransit]
      simp only [refused, true_and]
      by_cases sent : sending connection operation = .ok
      · by_cases answered : receiving connection = .ok
        · simp only [sent, answered, ne_eq, not_true_eq_false, or_self, iff_false]
          rw [Connection.operate_replied refused sent rfl answered]
          exact settle_not_lost _ (conclude_not_lost _ _ _)
        · rw [(operate_unanswered refused sent answered).1]
          exact iff_of_true rfl (Or.inr answered)
      · rw [(operate_unsent refused sent).1]
        exact iff_of_true rfl (Or.inl sent)

end Causes

/-! ## Requests out of their limits -/

section Limits

variable {connection : Connection} {operation : Operation D} {rest : Bytes}

/-- A request out of its limits on an open connection that takes what is sent, and on which
the daemon's answer arrives if the request can be sent. -/
structure Rejecting (connection : Connection) (operation : Operation D) (rest : Bytes) : Prop where
  outside : ¬ operation.body.WithinLimits
  connected : connection.connected = true
  willing : Willing connection.outgoing.answers
  steady : connection.incoming.Steady
  arrives : Framable (encodeRequest (connection.request operation) []) →
    connection.incoming.bytes =
      frameBytes (encodeResponse (tooLarge connection.nextRequestId : Response D) []) ++ rest

/-- The connection is open, and it is as it was, or a whole request has gone and its whole
reply has come. -/
def Usable (operation : Operation D) (connection after : Connection) (rest : Bytes) : Prop :=
  after.connected = true ∧ (after = connection ∨
    after.outgoing.sent =
      connection.outgoing.sent ++ frameBytes (encodeRequest (connection.request operation) []) ∧
    after.incoming.bytes = rest)

/-- A request that the daemon rejects was sent, and the rejection is read. -/
theorem Rejecting.operate_sent (rejecting : Rejecting connection operation rest)
    (permitted : operation.refusal? = none)
    (framable : Framable (encodeRequest (connection.request operation) [])) :
    (connection.operate operation).1.status = .invalidRequest ∧
      Usable operation connection (connection.operate operation).2 rest := by
  obtain ⟨written, _, after, wrote, ok, _, sent⟩ := writeMessage_framable
    (.request (connection.request operation)) framable rejecting.willing
  have accepted := accepted_tooLarge (D := D) connection.nextRequestId
  obtain ⟨later, _, rfl, fetched⟩ := readFrame_whole connection.readBuffer rejecting.steady
    accepted.framable (rejecting.arrives framable)
  have concluded : conclude (connection.request operation) emptyResponse
      (encodeResponse (tooLarge connection.nextRequestId : Response D) []) =
      ⟨.invalidRequest, tooLarge connection.nextRequestId, text "FieldTooLarge", true⟩ := by
    unfold conclude
    rw [accepted.decoded]
    simp [tooLarge, makeError, Connection.request]
  unfold Connection.operate call
  simp only [permitted, wrote, ok, fetched, concluded, ne_eq, not_true_eq_false, ↓reduceIte]
  rw [operation.settle_failed (by simp)]
  exact ⟨rfl, rfl, Or.inr ⟨sent, rfl⟩⟩

/-- A request that does not fit into a frame never leaves, and costs the connection. -/
theorem operate_oversized (permitted : operation.refusal? = none)
    (outside : ¬ Framable (encodeRequest (connection.request operation) [])) :
    (connection.operate operation).1 = sendFailed .oversized emptyResponse ∧
      (connection.operate operation).2.connected = false := by
  have status : sending connection operation = .oversized := sending_oversized_iff.mpr outside
  have unsent : sending connection operation ≠ .ok := by
    rw [status]
    simp
  rw [← status]
  exact operate_unsent permitted unsent

/-- A request out of its limits is reported as invalid, on a connection that stays usable,
exactly if it is refused before it is sent or fits into a frame. -/
theorem Rejecting.invalid_iff (rejecting : Rejecting connection operation rest) :
    ((connection.operate operation).1.status = .invalidRequest ∧
        Usable operation connection (connection.operate operation).2 rest) ↔
      operation.refusal? ≠ none ∨ Framable (encodeRequest (connection.request operation) []) := by
  cases refused : operation.refusal? with
  | some message =>
      rw [operate_refused refused]
      refine iff_of_true ⟨rfl, rejecting.connected, Or.inl rfl⟩ (Or.inl ?_)
      simp
  | none =>
      by_cases framable : Framable (encodeRequest (connection.request operation) [])
      · exact iff_of_true (rejecting.operate_sent refused framable) (Or.inr framable)
      · rw [(operate_oversized refused framable).1]
        refine iff_of_false ?_ ?_
        · intro invalid
          cases invalid.1
        · simp [framable]

end Limits

/-! ## Invocations -/

/-- What makes an attempt fail: no connection gets free in time, none can be opened, or the call
fails in transit. -/
inductive Attempt.Fails (operation : Operation D) : Attempt D → Prop where
  | waited : Fails operation .timedOut
  | unopened (failure : OpenFailure) : Fails operation (.unopened failure)
  | transit (link : Nat) (connection : Connection) (fails : FailsInTransit connection operation) :
      Fails operation (.called link (Connection.operate connection operation).1)

/-- The attempt is a call on a connection in some state that satisfies the condition. -/
def Attempt.CallsWhere (operation : Operation D) (made : Attempt D)
    (condition : Connection → Prop) : Prop :=
  ∃ link connection, made = .called link (Connection.operate connection operation).1 ∧
    condition connection

omit [BitCast D] in
/-- No attempt ends with a deadline that was exceeded. -/
theorem Attempt.code_ne_deadlineExceeded (made : Attempt D) :
    made.status.code ≠ .deadlineExceeded := by
  cases made with
  | called link outcome =>
      rw [status, code_reported]
      cases outcome.status <;> simp [mapStatus]
  | _ => simp [status]

variable {made : Attempt D}

omit [BitCast D] in
/-- Whatever may be retried is reported as unavailable. -/
theorem Attempt.code_of_isRetried (again : made.isRetried = true) :
    made.status.code = .unavailable := by
  have notLate := made.code_ne_deadlineExceeded
  unfold isRetried isRetryableFailure at again
  simpa [notLate] using again

/-- An attempt may be retried exactly if it failed. -/
theorem Attempt.isRetried_iff
    (onConnection : ∀ link outcome, made = .called link outcome → ∃ connection, outcome =
      (Connection.operate connection operation).1) :
    made.isRetried = true ↔ made.Fails operation := by
  cases made with
  | timedOut => exact iff_of_true rfl .waited
  | unopened failure => exact iff_of_true rfl (.unopened failure)
  | called link outcome =>
      rw [isRetried_called_iff]
      constructor
      · intro lost
        obtain ⟨connection, rfl⟩ := onConnection link outcome rfl
        exact .transit link connection (operate_lost_iff.mp lost)
      · intro fails
        cases fails with
        | transit _ connection inTransit => exact operate_lost_iff.mpr inTransit

omit [BitCast D] in
theorem mapStatus_invalidArgument {status : CallStatus} :
    mapStatus status = .invalidArgument ↔ status = .invalidRequest := by
  cases status <;> simp [mapStatus]

/-- A call that is retried timed out or lost its connection exactly if its frames fit. -/
theorem Attempt.callsWhere_fitsFrames_iff (again : made.isRetried = true) :
    made.CallsWhere operation (fun connection =>
        TimesOut connection operation ∨ LosesConnection connection operation) ↔
      made.CallsWhere operation fun connection => FitsFrames connection operation := by
  have inTransit : ∀ link connection,
      made = .called link (Connection.operate connection operation).1 →
        FailsInTransit connection operation := by
    intro link connection same
    rw [same, isRetried_called_iff] at again
    exact operate_lost_iff.mp again
  constructor
  · rintro ⟨link, connection, same, cause⟩
    exact ⟨link, connection, same, (inTransit link connection same).fitsFrames_iff.mp cause⟩
  · rintro ⟨link, connection, same, fits⟩
    exact ⟨link, connection, same, (inTransit link connection same).fitsFrames_iff.mpr fits⟩

/-- How the outcome of a call is reported, whatever happens to its sends and receives and to
the pool. It returns what its last attempt came to. If that timed out or lost its connection,
the daemon counts as unavailable, and no deadline is ever reported.

Where the calls are made on connections, an attempt is followed by another one exactly if one is
left and it got no connection in time, could not open one, or failed in transit. So what is
retried need not be a timeout or a loss of a connection: it is that exactly if it got a
connection and its frames fit.

A request out of its limits that gets a connection on which it would be rejected returns as
invalid from this first attempt, and leaves the connection usable, exactly if it is refused
before it is sent or fits into a frame. -/
theorem failures_classified (client : ClientConfig) (operation : Operation D) :
    (invoke client operation).Traces fun trace result => ∃ made : List (Attempt D),
      Invoked operation (attempts client operation).toNat
        (⟨.unavailable, text "no attempt was made"⟩, none) made trace result ∧
      (∀ final, made.getLast? = some final → result = final.result) ∧
      (∀ final, made.getLast? = some final →
        final.CallsWhere operation (fun connection =>
          TimesOut connection operation ∨ LosesConnection connection operation) →
        result.1.code = .unavailable) ∧
      result.1.code ≠ .deadlineExceeded ∧
      (∀ before attempt after, made = before ++ attempt :: after →
        (∀ link outcome, attempt = .called link outcome →
          ∃ connection, outcome = (Connection.operate connection operation).1) →
        (after ≠ [] ↔
          before.length + 1 < (attempts client operation).toNat ∧ attempt.Fails operation)) ∧
      (∀ before attempt after, made = before ++ attempt :: after → after ≠ [] →
        (attempt.CallsWhere operation (fun connection =>
            TimesOut connection operation ∨ LosesConnection connection operation) ↔
          attempt.CallsWhere operation fun connection => FitsFrames connection operation)) ∧
      (∀ link later connection rest,
        made = .called link (Connection.operate connection operation).1 :: later →
        Rejecting connection operation rest →
          (later = [] ∧ result.1.code = .invalidArgument ∧
              Usable operation connection (Connection.operate connection operation).2 rest ↔
            operation.refusal? ≠ none ∨
              Framable (encodeRequest (connection.request operation) []))) := by
  apply (traces_invokeLoop _ _).mono
  intro trace result explained
  obtain ⟨made, invoked⟩ := explained
  have last : ∀ final, made.getLast? = some final → result = final.result :=
    fun final ends => invoked.returns ends
  refine ⟨made, invoked, last, ?_, ?_, ?_, ?_, ?_⟩
  · rintro final ends ⟨link, connection, same, cause⟩
    have inTransit := cause.elim TimesOut.failsInTransit LosesConnection.failsInTransit
    rw [last final ends, same]
    apply Attempt.code_of_isRetried
    rw [Attempt.isRetried_called_iff]
    exact operate_lost_iff.mpr inTransit
  · cases ends : made.getLast? with
    | some final =>
        rw [last final ends]
        exact final.code_ne_deadlineExceeded
    | none =>
        obtain rfl := List.getLast?_eq_none_iff.mp ends
        rw [invoked.unattempted]
        simp
  · intro before attempt after split onConnection
    rw [invoked.goesOn_iff split, Attempt.isRetried_iff onConnection]
  · intro before attempt after split followed
    exact Attempt.callsWhere_fitsFrames_iff (invoked.retried split followed)
  · intro link later connection rest split rejecting
    rw [← rejecting.invalid_iff]
    constructor
    · intro returned
      obtain ⟨rfl, code, usable⟩ := returned
      rw [last _ (by rw [split]; rfl)] at code
      exact ⟨mapStatus_invalidArgument.mp ((code_reported _).symm.trans code), usable⟩
    · intro ⟨invalid, usable⟩
      have alone : later = [] := by
        by_contra followed
        have first : made = [] ++ .called link (connection.operate operation).1 :: later := split
        have lost := (Attempt.isRetried_called_iff _ _).mp (invoked.retried first followed)
        rw [invalid] at lost
        cases lost
      refine ⟨alone, ?_, usable⟩
      rw [last _ (by rw [split, alone]; rfl)]
      exact (code_reported _).trans (mapStatus_invalidArgument.mpr invalid)

/-- A preview with one excluded category of so many bytes. -/
def excluding (size : Nat) : Operation UInt64 := .recommend ⟨[], [List.replicate size 0]⟩ 3 true

/-- A long category is outside the limits. -/
theorem excluding_outside {size : Nat} (long : kMaxCategoryLength < size) :
    ¬ (excluding size).body.WithinLimits := by
  intro within
  have short := within.1.excludedCategories (List.replicate size 0) List.mem_cons_self
  rw [List.length_replicate] at short
  exact Nat.not_lt.mpr short long

/-- The size of the request. -/
theorem length_excluding (requestId : UInt64) (size : Nat) :
    (encodeRequest ⟨requestId, (excluding size).body⟩ []).length = size + 33 := by
  rw [encodeRequest_eq]
  simp only [List.nil_append, List.length_append, length_headerBytes, excluding, Operation.body,
    requestBodyBytes, recommendBytes, signalBytes, countedBytes, List.flatMap_cons,
    List.flatMap_nil, length_stringBytes, length_u32Bytes, kLengthPrefixSize, List.length_cons,
    List.length_nil, List.length_replicate]
  omega

/-- A connection on which the daemon's rejection arrives. -/
def rejected : Connection := .awaiting (tooLarge 1)

/-- The connection rejects the request. -/
theorem rejecting_rejected {size : Nat} (long : kMaxCategoryLength < size) :
    Rejecting rejected (excluding size) [] where
  outside := excluding_outside long
  connected := rfl
  willing := fun _ member => absurd member List.not_mem_nil
  steady := Incoming.Steady.putBack (fun _ failed => absurd failed List.not_mem_nil)
    (frameBytes (encodeResponse (tooLarge 1 : Response UInt64) []))
  arrives := fun _ =>
    Incoming.bytes_putBack (frameBytes (encodeResponse (tooLarge 1 : Response UInt64) [])) []

/-- A pool that hands out one connection in the same state each time. -/
def answering (connection : Connection) : (op : InvokeOp UInt64) → Unit → op.Answer × Unit
  | .acquire, _ => (.idle 0, ())
  | .open, _ => (.ok 0, ())
  | .call _ operation, _ => ((connection.operate operation).1, ())
  | .release _ _, _ => ((), ())

/-- What an attempt comes to with such a pool. -/
theorem Makes.calls {connection : Connection} {operation : Operation UInt64}
    {trace : List (Event (invokeSteps UInt64))} {made : Attempt UInt64}
    (makes : Makes operation trace made)
    (held : ∀ event ∈ trace, event.answer = (answering connection event.op ()).1) :
    made = .called 0 (connection.operate operation).1 := by
  cases makes with
  | pooled link called =>
      obtain rfl : link = 0 := Acquired.idle.inj (held ⟨.acquire, .idle link⟩ (by simp))
      obtain rfl : called = (connection.operate operation).1 :=
        held ⟨.call 0 operation, called⟩ (by simp)
      rfl
  | timedOut => cases held ⟨.acquire, .timedOut⟩ (by simp)
  | unopened failure => cases held ⟨.acquire, .room⟩ (by simp)
  | fresh link called => cases held ⟨.acquire, .room⟩ (by simp)

/-- So the first attempt of an invocation calls on its connection. -/
theorem Invoked.calls {connection : Connection} {operation : Operation UInt64} {left : Nat}
    {last result : Status × Option (Called UInt64)} {made : List (Attempt UInt64)}
    {trace : List (Event (invokeSteps UInt64))}
    (invoked : Invoked operation left last made trace result) (some : left ≠ 0)
    (held : ∀ event ∈ trace, event.answer = (answering connection event.op ()).1) :
    ∃ later, made = .called 0 (connection.operate operation).1 :: later := by
  cases invoked with
  | exhausted => exact absurd rfl some
  | stops makes final =>
      obtain rfl := makes.calls held
      exact ⟨[], rfl⟩
  | retries makes again goesOn =>
      obtain rfl := makes.calls fun event member => held event (List.mem_append_left _ member)
      exact ⟨_, rfl⟩

theorem failures_classified_rejected :
    Rejecting rejected (excluding 300) [] ∧ (excluding 300).refusal? = none ∧
      ((invoke {} (excluding 300)).run (answering rejected) ()).1.1.code = .invalidArgument ∧
      Usable (excluding 300) rejected (rejected.operate (excluding 300)).2 [] := by
  have rejecting : Rejecting rejected (excluding 300) [] := rejecting_rejected (by decide)
  refine ⟨rejecting, rfl, ?_⟩
  obtain ⟨trace, held, made, invoked, _, _, _, _, _, rejects⟩ :=
    (failures_classified {} (excluding 300)).of_run_forall (answering rejected)
      (fun event => event.answer = (answering rejected event.op ()).1) (fun _ _ => rfl) ()
  have framable : Framable (encodeRequest (rejected.request (excluding 300)) []) := by
    rw [Framable, Connection.request, length_excluding]
    decide
  obtain ⟨later, split⟩ := invoked.calls (by decide) held
  exact ((rejects 0 later rejected [] split rejecting).mpr (Or.inr framable)).2

/-! ## Two failures of other causes -/

/-- A call of the operation loses its connection. -/
def Loses (operation : Operation D) : Event (invokeSteps D) → Prop
  | ⟨.call _ called, outcome⟩ => called = operation → outcome.status = .connectionLost
  | _ => True

omit [BitCast D] in
/-- Then every attempt may be retried. -/
theorem Makes.isRetried {operation : Operation D} {trace : List (Event (invokeSteps D))}
    (makes : Makes operation trace made) (loses : ∀ event ∈ trace, Loses operation event) :
    made.isRetried = true := by
  cases makes with
  | timedOut => rfl
  | unopened failure => rfl
  | pooled link called =>
      exact (Attempt.isRetried_called_iff link called).mpr
        (loses ⟨.call link operation, called⟩ (by simp) rfl)
  | fresh link called =>
      exact (Attempt.isRetried_called_iff link called).mpr
        (loses ⟨.call link operation, called⟩ (by simp) rfl)

omit [BitCast D] in
/-- Where every call loses its connection, all attempts are made in vain. -/
theorem Invoked.lost {operation : Operation D} {left : Nat}
    {last result : Status × Option (Called D)} {made : List (Attempt D)}
    {trace : List (Event (invokeSteps D))}
    (invoked : Invoked operation left last made trace result)
    (loses : ∀ event ∈ trace, Loses operation event) (begun : last.1.code = .unavailable) :
    made.length = left ∧ result.1.code = .unavailable := by
  induction invoked with
  | exhausted => exact ⟨rfl, begun⟩
  | stops makes final =>
      rw [makes.isRetried loses] at final
      cases final
  | retries makes again goesOn ih =>
      obtain ⟨count, code⟩ := ih (fun event member => loses event (List.mem_append_right _ member))
        (Attempt.code_of_isRetried again)
      exact ⟨congrArg (· + 1) count, code⟩

/-- A request that never fits into a frame makes the daemon count as unavailable, whatever
the pool holds. -/
theorem oversized_unavailable (client : ClientConfig) {operation : Operation D}
    (permitted : operation.refusal? = none)
    (oversized : ∀ requestId, ¬ Framable (encodeRequest ⟨requestId, operation.body⟩ []))
    (opening : Except OpenFailure Connection) (store : Store) :
    ((invoke client operation).run (Store.serve client opening) store).1.1.code = .unavailable := by
  have loses : ∀ op state, Loses operation ⟨op, (Store.serve client opening op state).1⟩ := by
    intro op state
    cases op with
    | call link called =>
        intro same
        subst same
        rw [Store.serve]
        split
        · rw [(operate_oversized permitted (oversized _)).1]
          rfl
        · rfl
    | _ => trivial
  obtain ⟨trace, held, made, invoked⟩ := (traces_invokeLoop _ _).of_run_forall _ _ loses store
  exact (invoked.lost held rfl).2

/-- A connection on which nothing arrives in time. -/
def slow : Connection := ⟨[.failed .eagain], ⟨[], []⟩, [], 1, true⟩

theorem excluding_not_framable (requestId : UInt64) :
    ¬ Framable (encodeRequest ⟨requestId, (excluding (1024 * 1024)).body⟩ []) := by
  rw [Framable, length_excluding]
  decide

/-- A preview that is too large for a frame breaks a limit, but closes every connection it gets
and makes the daemon count as unavailable. So does a reply that is late. -/
theorem oversized_and_late_unavailable :
    ¬ (excluding (1024 * 1024)).body.WithinLimits ∧
    (∀ connection : Connection,
      (connection.operate (excluding (1024 * 1024))).2.connected = false) ∧
    (∀ opening store, ((invoke {} (excluding (1024 * 1024))).run (Store.serve {} opening)
      store).1.1.code = .unavailable) ∧
    TimesOut slow (.fetchStats : Operation UInt64) ∧
    reported (slow.operate (.fetchStats : Operation UInt64)).1 =
      ⟨.unavailable, text "receive failed: TimedOut"⟩ := by
  have permitted : (excluding (1024 * 1024)).refusal? = none := rfl
  refine ⟨excluding_outside (by decide), ?_, ?_, ?_, ?_⟩
  · intro connection
    exact (operate_oversized permitted (excluding_not_framable _)).2
  · intro opening store
    exact oversized_unavailable {} permitted excluding_not_framable opening store
  · exact ⟨rfl, Or.inr (by decide +kernel)⟩
  · decide +kernel

end Lrd.Sdk
