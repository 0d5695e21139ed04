import Lrd.Proto.FrameSteps
import Lrd.Proto.RoundTrip

/-!
# A client's connection

`Connection` (`client/connection.cpp`). A call writes one frame, reads one frame and
checks what it has read; after anything unexpected the connection is closed. The
operations of a connection are calls with a check of their arguments in front and a
check of the reply's kind behind. `call_progress` says what a call does along the steps
of its two frames, whatever the socket does.
-/

namespace Lrd.Client

open Foundation Net Proto Rank BinaryCodec

/-- How a call has ended. -/
inductive CallStatus where
  | ok
  | notFound
  | invalidRequest
  | serverError
  | connectionLost
  | protocolError
deriving DecidableEq, Repr

/-- What a call leaves: its status, the response it was given to fill, the last error and
whether the connection is still open. -/
structure Called (D : Type) where
  status : CallStatus
  response : Response D
  lastError : Bytes
  connected : Bool
deriving DecidableEq

section Calls

variable {D : Type} [BitCast D]

/-- The message of `Response{}`. -/
def emptyResponse : Response D := ⟨0, defaultResponseBody⟩

/-- The connection is lost while sending. -/
def sendFailed (status : FrameStatus) (response : Response D) : Called D :=
  ⟨.connectionLost, response, text ("send failed: " ++ status.toString), false⟩

/-- The connection is lost while receiving. -/
def receiveFailed (status : FrameStatus) (response : Response D) : Called D :=
  ⟨.connectionLost, response, text ("receive failed: " ++ status.toString), false⟩

/-- What a call makes of the body it has read. -/
def conclude (request : Request D) (out : Response D) (body : Bytes) : Called D :=
  let (error, response) := decodeResponse body out
  if error ≠ .none then
    ⟨.protocolError, response, text ("decode failed: " ++ error.toString), false⟩
  else if response.requestId ≠ request.requestId then
    ⟨.protocolError, response, text ("response id " ++ toString response.requestId ++
      " does not match request id " ++ toString request.requestId), false⟩
  else
    match response.body with
    | .failure status message =>
        ⟨if status = .invalidRequest then .invalidRequest else .serverError, response, message, true⟩
    | _ => ⟨.ok, response, [], true⟩

/-- `Connection::call` on an open stream, with the buffer it reads into. -/
def call (request : Request D) (out : Response D) (buffer : Bytes) (outgoing : Outgoing)
    (incoming : Incoming) : Called D × Bytes × Outgoing × Incoming :=
  let (written, _, outgoing) := writeMessage (.request request) outgoing
  if written.status ≠ .ok then (sendFailed written.status out, buffer, outgoing, incoming)
  else
    let (read, body, incoming) := readFrame buffer incoming
    if read.status ≠ .ok then (receiveFailed read.status out, body, outgoing, incoming)
    else (conclude request out body, body, outgoing, incoming)

/-- A call sends a front part of the frame of its request. Only if that is the whole
frame does it read, and it comes to a conclusion exactly on a whole frame. Otherwise the
connection is lost. -/
theorem call_progress (request : Request D) (out : Response D) (buffer : Bytes)
    (outgoing : Outgoing) (incoming : Incoming) :
    ∃ count taken, (call request out buffer outgoing incoming).2.2.1.sent =
        outgoing.sent ++ (frameBytes (encodeRequest request [])).take count ∧
      incoming.bytes = taken ++ (call request out buffer outgoing incoming).2.2.2.bytes ∧
      if Framable (encodeRequest request []) ∧
          (frameBytes (encodeRequest request [])).length ≤ count then
        match progress taken with
        | .whole body => (call request out buffer outgoing incoming).1 = conclude request out body
        | _ => ∃ status, (call request out buffer outgoing incoming).1 = receiveFailed status out
      else taken = [] ∧
        ∃ status, (call request out buffer outgoing incoming).1 = sendFailed status out := by
  obtain ⟨count, sent, complete⟩ := writeMessage_progress (.request request) outgoing
  have own : (Encoder.request request).body = encodeRequest request [] := rfl
  rw [own] at sent complete
  obtain ⟨taken, split, along⟩ := readFrame_progress buffer incoming
  refine ⟨count, ?_⟩
  unfold call
  rcases wrote : writeMessage (.request request) outgoing with ⟨written, _, after⟩
  rw [wrote] at sent complete
  simp only at sent complete ⊢
  by_cases failed : written.status ≠ .ok
  · refine ⟨[], ?_⟩
    rw [if_pos failed, if_neg fun all => failed (complete.mpr all)]
    exact ⟨sent, rfl, rfl, written.status, rfl⟩
  · refine ⟨taken, ?_⟩
    rw [if_neg failed, if_pos (complete.mp (not_not.mp failed))]
    rcases fetched : readFrame buffer incoming with ⟨read, body, later⟩
    rw [fetched] at split along
    simp only at split along ⊢
    cases arrived : progress taken with
    | wants missing =>
        rw [arrived] at along
        rw [if_pos along.1]
        exact ⟨sent, split, read.status, rfl⟩
    | whole wanted =>
        rw [arrived] at along
        obtain ⟨ok, rfl⟩ := along
        rw [if_neg (not_not.mpr ok)]
        exact ⟨sent, split, rfl⟩
    | broken =>
        rw [arrived] at along
        have failed : read.status ≠ .ok := by
          rw [along]
          nofun
        rw [if_pos failed]
        exact ⟨sent, split, read.status, rfl⟩

end Calls

/-! ## Operations -/

/-- The methods of a connection. -/
inductive Operation (D : Type) where
  | putItem (item : Item D)
  | getItem (id : ItemId)
  | deleteItem (id : ItemId)
  | recommend (signal : UserSignal D) (count : UInt32) (dryRun : Bool)
  | fetchStats
deriving DecidableEq

namespace Operation

variable {D : Type}

/-- The text with which the arguments are refused before anything is sent. -/
def refusal? : Operation D → Option Bytes
  | .putItem item =>
      if kMaxCategoryLength < item.category.length then
        some (text ("category is " ++ toString item.category.length ++ " bytes, limit is " ++
          toString kMaxCategoryLength))
      else if kMaxAdvertiserLength < item.advertiser.length then
        some (text ("advertiser is " ++ toString item.advertiser.length ++ " bytes, limit is " ++
          toString kMaxAdvertiserLength))
      else none
  | .recommend _ count _ =>
      if count = 0 ∨ kMaxRecommendCount < count then
        some (text ("count must be between 1 and " ++ toString kMaxRecommendCount))
      else none
  | _ => none

/-- The body of the request that is sent. -/
def body : Operation D → RequestBody D
  | .putItem item => .putItem item
  | .getItem id => .getItem id
  | .deleteItem id => .deleteItem id
  | .recommend signal count dryRun => .recommend ⟨signal, count, dryRun⟩
  | .fetchStats => .getStats

/-- What a method makes of its call: a reply of another kind than expected is an error,
and an absent item is reported as such. -/
def settle (operation : Operation D) (called : Called D) : Called D :=
  if called.status ≠ .ok then called
  else
    match operation, called.response.body with
    | .putItem _, .putItemResult _ => called
    | .getItem _, .getItemResult status _ =>
        if status = .notFound then { called with status := .notFound } else called
    | .deleteItem _, .deleteItemResult status =>
        if status = .notFound then { called with status := .notFound } else called
    | .recommend _ _ _, .recommendResult _ _ => called
    | .fetchStats, .statsResult _ _ => called
    | _, body =>
        { called with
          status := .protocolError
          lastError := text ("unexpected reply type " ++ body.typeOf.toString) }

end Operation

end Lrd.Client
