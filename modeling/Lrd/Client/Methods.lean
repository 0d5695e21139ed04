import Lrd.Client.Connection

/-!
# The methods of a connection

`put_item`, `get_item`, `delete_item`, `recommend` and `fetch_stats`
(`client/connection.cpp`) from the check of their arguments to the caller's output
argument. A connection is an object of its own here: both directions of its stream, its
buffer and the id of its next request.

Each method looks at the status inside the result it expects on its own: `get_item` and
`delete_item` know `NotFound`, and nobody looks for anything else. So a reply of the right
kind counts as a success whatever its status says, unless it says `NotFound` to one of
these two (`succeeds_only_on_ok_iff`).
-/

namespace Lrd.Client

open Foundation Net Proto Rank BinaryCodec

/-- A connection object. -/
structure Connection where
  incoming : Incoming
  outgoing : Outgoing
  readBuffer : Bytes
  nextRequestId : UInt64
  connected : Bool
deriving DecidableEq

/-- The output arguments of the methods. -/
structure Outputs (D : Type) where
  item : Item D
  items : List (RankedItem D)
  stats : Stats
deriving DecidableEq

variable {D : Type}

/-- What a result leaves in its method's output argument. -/
def Outputs.assign (outputs : Outputs D) : ResponseBody D → Outputs D
  | .getItemResult _ item => { outputs with item }
  | .recommendResult _ items => { outputs with items }
  | .statsResult _ stats => { outputs with stats }
  | _ => outputs

namespace Connection

/-- The request that a method sends. -/
def request (connection : Connection) (operation : Operation D) : Request D :=
  ⟨connection.nextRequestId, operation.body⟩

variable [BitCast D]

/-- A method, up to its output argument. -/
def operate (connection : Connection) (operation : Operation D) : Called D × Connection :=
  match operation.refusal? with
  | some message => (⟨.invalidRequest, emptyResponse, message, connection.connected⟩, connection)
  | none =>
      let (called, readBuffer, outgoing, incoming) :=
        call (connection.request operation) emptyResponse connection.readBuffer
          connection.outgoing connection.incoming
      (operation.settle called,
        ⟨incoming, outgoing, readBuffer, connection.nextRequestId + 1, called.connected⟩)

/-- A method with its output argument, which is assigned where it returns `Ok`. -/
def method (connection : Connection) (operation : Operation D) (outputs : Outputs D) :
    CallStatus × Outputs D × Connection :=
  let (called, after) := connection.operate operation
  (called.status,
    if called.status = .ok then outputs.assign called.response.body else outputs, after)

end Connection

/-! ## Which replies count -/

variable {operation : Operation D} {body : Bytes}

namespace Operation

/-- The status inside the result that the method expects. -/
def resultStatus? : Operation D → ResponseBody D → Option StatusCode
  | .putItem _, .putItemResult status => some status
  | .getItem _, .getItemResult status _ => some status
  | .deleteItem _, .deleteItemResult status => some status
  | .recommend _ _ _, .recommendResult status _ => some status
  | .fetchStats, .statsResult status _ => some status
  | _, _ => none

/-- The methods that report an absent item. -/
def reportsAbsence : Operation D → Bool
  | .getItem _ => true
  | .deleteItem _ => true
  | _ => false

/-- The method does not touch the response. -/
theorem settle_response (operation : Operation D) (called : Called D) :
    (operation.settle called).response = called.response := by
  unfold settle
  split
  · rfl
  · split <;> first | rfl | (split <;> rfl)

/-- A method changes the status of its call to report an absent item or another result than
expected. -/
theorem settle_status (operation : Operation D) (called : Called D) :
    (operation.settle called).status = called.status ∨
      (operation.settle called).status = .notFound ∨
      (operation.settle called).status = .protocolError := by
  unfold settle
  split
  · exact Or.inl rfl
  · split
    case h_2 | h_3 =>
      split
      · exact Or.inr (Or.inl rfl)
      · exact Or.inl rfl
    case h_6 => exact Or.inr (Or.inr rfl)
    all_goals exact Or.inl rfl

/-- A call that succeeded makes its method succeed if it brought the expected result, and
unless that reports an absent item. -/
theorem settle_ok_iff (operation : Operation D) {called : Called D} (succeeded : called.status = .ok) :
    (operation.settle called).status = .ok ↔
      ∃ status, operation.resultStatus? called.response.body = some status ∧
        ¬ (status = .notFound ∧ operation.reportsAbsence = true) := by
  unfold settle
  rw [if_neg (not_not.mpr succeeded)]
  cases operation with
  | putItem item =>
      cases called.response.body with
      | putItemResult status => simp [resultStatus?, reportsAbsence, succeeded]
      | _ => simp [resultStatus?]
  | getItem id =>
      cases called.response.body with
      | getItemResult status item =>
          by_cases absent : status = .notFound
          · simp [resultStatus?, reportsAbsence, absent]
          · simp [resultStatus?, absent, succeeded]
      | _ => simp [resultStatus?]
  | deleteItem id =>
      cases called.response.body with
      | deleteItemResult status =>
          by_cases absent : status = .notFound
          · simp [resultStatus?, reportsAbsence, absent]
          · simp [resultStatus?, absent, succeeded]
      | _ => simp [resultStatus?]
  | recommend signal count dryRun =>
      cases called.response.body with
      | recommendResult status items => simp [resultStatus?, reportsAbsence, succeeded]
      | _ => simp [resultStatus?]
  | fetchStats =>
      cases called.response.body with
      | statsResult status stats => simp [resultStatus?, reportsAbsence, succeeded]
      | _ => simp [resultStatus?]

/-- A reply with a result is not an error. -/
theorem not_failure {body : ResponseBody D} {status : StatusCode}
    (expected : operation.resultStatus? body = some status) :
    ∀ other message, body ≠ .failure other message := by
  intro other message failed
  rw [failed] at expected
  cases operation <;> cases expected

theorem settle_failed (operation : Operation D) {called : Called D} (failed : called.status ≠ .ok) :
    operation.settle called = called :=
  if_pos failed

end Operation

section Replies

variable [BitCast D]

/-- A decoded reply that bears the id of the request succeeds unless it is a failure. -/
theorem conclude_ok_iff (request : Request D) {out response : Response D}
    (decoded : decodeResponse body out = (.none, response)) :
    (conclude request out body).response = response ∧
      ((conclude request out body).status = .ok ↔
        response.requestId = request.requestId ∧
          ∀ status message, response.body ≠ .failure status message) := by
  unfold conclude
  rw [decoded]
  by_cases own : response.requestId = request.requestId
  · cases kind : response.body with
    | failure status message =>
        simp only [ne_eq, not_true_eq_false, ↓reduceIte, own, kind]
        refine ⟨trivial, ?_⟩
        split <;> simp
    | _ => simp [own, kind]
  · simp [own]

/-- On a decoded reply, a method succeeds if the reply bears its id and is the expected
result, and does not report an absent item to a method that looks for that. -/
theorem settle_conclude_ok_iff (operation : Operation D) {request : Request D}
    {out response : Response D} (decoded : decodeResponse body out = (.none, response)) :
    (operation.settle (conclude request out body)).status = .ok ↔
      response.requestId = request.requestId ∧
        ∃ status, operation.resultStatus? response.body = some status ∧
          ¬ (status = .notFound ∧ operation.reportsAbsence = true) := by
  obtain ⟨same, succeeds⟩ := conclude_ok_iff request decoded
  by_cases ok : (conclude request out body).status = .ok
  · rw [operation.settle_ok_iff ok, same]
    simp only [(succeeds.mp ok).1, true_and]
  · constructor
    · intro settled
      rw [operation.settle_failed ok] at settled
      exact absurd settled ok
    · intro ⟨own, status, expected, _⟩
      exact absurd (succeeds.mpr ⟨own, Operation.not_failure expected⟩) ok

namespace Connection

/-- A method that has sent its request and read a whole frame settles what it decodes. -/
theorem operate_replied {connection : Connection} (permitted : operation.refusal? = none)
    (written : (writeMessage (.request (connection.request operation)) connection.outgoing).1.status
      = .ok) {read : FrameResult} {later : Incoming}
    (received : readFrame connection.readBuffer connection.incoming = (read, body, later))
    (whole : read.status = .ok) :
    (connection.operate operation).1 =
      operation.settle (conclude (connection.request operation) emptyResponse body) := by
  unfold operate call
  simp only [permitted, written, received, whole, ne_eq, not_true_eq_false, ↓reduceIte]

/-- A method that got a decodable reply to its request. If the reply bears its id and is its
result with status `Ok`, the method returns `Ok` and assigns the output argument. That it
fails on any other reply and leaves the output argument alone holds exactly unless the
reply bears its id and is its result with another status, other than `NotFound` to `get_item`
or `delete_item`. -/
theorem succeeds_only_on_ok_iff {connection : Connection} (outputs : Outputs D)
    (permitted : operation.refusal? = none)
    (written : (writeMessage (.request (connection.request operation)) connection.outgoing).1.status
      = .ok) {read : FrameResult} {later : Incoming}
    (received : readFrame connection.readBuffer connection.incoming = (read, body, later))
    (whole : read.status = .ok) {response : Response D}
    (decoded : decodeResponse body emptyResponse = (.none, response)) :
    let result := connection.method operation outputs
    let own := response.requestId = connection.nextRequestId
    let status? := operation.resultStatus? response.body
    (own ∧ status? = some .ok →
        result.1 = .ok ∧ result.2.1 = outputs.assign response.body) ∧
      ((¬ (own ∧ status? = some .ok) → result.1 ≠ .ok ∧ result.2.1 = outputs) ↔
        ¬ (own ∧ ∃ status, status? = some status ∧ status ≠ .ok ∧
          ¬ (status = .notFound ∧ operation.reportsAbsence = true))) := by
  intro result own status?
  have called := operate_replied permitted written received whole
  have succeeds : result.1 = .ok ↔ own ∧ ∃ status, status? = some status ∧
      ¬ (status = .notFound ∧ operation.reportsAbsence = true) := by
    change (connection.operate operation).1.status = .ok ↔ _
    rw [called]
    exact settle_conclude_ok_iff operation decoded
  have assigned : result.2.1 = if result.1 = .ok then outputs.assign response.body else outputs := by
    have same : (connection.operate operation).1.response = response := by
      rw [called, operation.settle_response]
      exact (conclude_ok_iff _ decoded).1
    change (if (connection.operate operation).1.status = .ok then
      outputs.assign (connection.operate operation).1.response.body else outputs) = _
    rw [same]
    rfl
  refine ⟨?_, ?_, ?_⟩
  · intro ⟨isOwn, ok⟩
    have returns : result.1 = .ok := succeeds.mpr ⟨isOwn, .ok, ok, fun absent => by cases absent.1⟩
    rw [assigned, if_pos returns]
    exact ⟨returns, rfl⟩
  · intro fails ⟨isOwn, status, expected, different, overlooked⟩
    have other : ¬ (own ∧ status? = some .ok) := by
      intro ⟨_, ok⟩
      rw [expected] at ok
      exact different (Option.some.inj ok)
    exact (fails other).1 (succeeds.mpr ⟨isOwn, status, expected, overlooked⟩)
  · intro nothingOverlooked other
    have failed : result.1 ≠ .ok := by
      intro returns
      obtain ⟨isOwn, status, expected, overlooked⟩ := succeeds.mp returns
      by_cases fine : status = .ok
      · subst fine
        exact other ⟨isOwn, expected⟩
      · exact nothingOverlooked ⟨isOwn, status, expected, fine, overlooked⟩
    rw [assigned, if_neg failed]
    exact ⟨failed, rfl⟩

end Connection

end Replies

/-! ## A connection on 64-bit scalars -/

/-- A new connection on which a reply arrives. -/
def Connection.awaiting (reply : Response UInt64) : Connection where
  incoming := .putBack (frameBytes (encodeResponse reply [])) []
  outgoing := ⟨[], []⟩
  readBuffer := []
  nextRequestId := 1
  connected := true

/-- What the caller's variables held before. -/
def Outputs.before : Outputs UInt64 := ⟨⟨9, text "news", text "acme", 3, ⟨4⟩, ⟨0⟩⟩, [], {}⟩

/-- An item. -/
def foundItem : Item UInt64 := ⟨5, text "sport", text "acme", 8, ⟨2⟩, ⟨0⟩⟩

/-- The reply that finds it. -/
def foundReply : Response UInt64 := ⟨1, .getItemResult .ok foundItem⟩

theorem succeeds_only_on_ok_iff_found :
    ((Connection.awaiting foundReply).method (.getItem 5) Outputs.before).1 = .ok := by
  have written : (writeMessage (.request ((Connection.awaiting foundReply).request
      (.getItem 5 : Operation UInt64))) (Connection.awaiting foundReply).outgoing).1.status = .ok := by
    decide +kernel
  have received : readFrame (Connection.awaiting foundReply).readBuffer
      (Connection.awaiting foundReply).incoming =
        (⟨.ok, none, 66⟩, encodeResponse foundReply [], []) := by
    decide +kernel
  have decoded : decodeResponse (encodeResponse foundReply []) emptyResponse =
      (.none, foundReply) := by
    decide +kernel
  obtain ⟨succeeds, _⟩ :=
    Connection.succeeds_only_on_ok_iff Outputs.before rfl written received rfl decoded
  exact (succeeds ⟨rfl, rfl⟩).1

/-- An internal error inside the expected result counts as a success: the put as done, the
slate as delivered, and the caller's item is overwritten by an empty one. -/
theorem internal_error_succeeds :
    let reply : Response UInt64 := ⟨1, .getItemResult .internal (Item.empty 0)⟩
    let got := (Connection.awaiting reply).method (.getItem 5) Outputs.before
    let put := (Connection.awaiting ⟨1, .putItemResult .internal⟩).method
      (.putItem foundItem) Outputs.before
    let slate := (Connection.awaiting ⟨1, .recommendResult .internal []⟩).method
      (.recommend ⟨[], []⟩ 3 false) Outputs.before
    decodeResponse (encodeResponse reply []) emptyResponse = (.none, reply) ∧
      got.1 = .ok ∧ got.2.1.item = Item.empty 0 ∧ put.1 = .ok ∧ slate.1 = .ok := by
  decide +kernel

end Lrd.Client
