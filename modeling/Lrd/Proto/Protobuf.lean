import Lrd.Proto.Framing
import Lrd.Proto.Refusal

/-!
# The protobuf codec

`ProtobufCodec` (`proto/protobuf_codec.cpp`) over the messages of `lrd.proto`. The codec
converts a request or a response to an `Envelope`, which the protobuf runtime serialises, and
converts what the runtime parses back. The runtime is not part of the repository. What is
assumed of it is that it parses what it has serialised (`Serializer`).

The runtime is given sizes as an `int`, to which `append_serialized` and `parse` narrow them,
and it serialises nothing that is longer than an `int` can say. The codec does not look at
whether it has, so that such a message is encoded as so many zeros (`appendSerialized_beyond`).
-/

namespace Lrd.Proto

open Rank

/-! ## The schema -/

namespace Pb

/-- A proto3 enum is open: any number may arrive. -/
structure Status where
  number : Int32
deriving DecidableEq, Repr

namespace Status

/-- `STATUS_OK`. -/
def ok : Status := ⟨0⟩

/-- `STATUS_NOT_FOUND`. -/
def notFound : Status := ⟨1⟩

/-- `STATUS_INVALID_REQUEST`. -/
def invalidRequest : Status := ⟨2⟩

/-- `STATUS_INTERNAL`. -/
def internal : Status := ⟨3⟩

end Status

/-- The message `Item`. -/
structure Item (D : Type) where
  id : UInt64
  category : Bytes
  advertiser : Bytes
  baseScore : D
  createdAtMs : Int64
  expiresAtMs : Int64

/-- The message `CategoryAffinity`. -/
structure CategoryAffinity (D : Type) where
  category : Bytes
  weight : D

/-- The message `UserSignal`. -/
structure UserSignal (D : Type) where
  affinities : List (CategoryAffinity D) := []
  excludedCategories : List Bytes := []

/-- The message `RankedItem`. -/
structure RankedItem (D : Type) where
  id : UInt64
  score : D
  category : Bytes
  advertiser : Bytes

/-- The message `Stats`. -/
structure Stats where
  requests : UInt64 := 0
  gets : UInt64 := 0
  puts : UInt64 := 0
  deletes : UInt64 := 0
  recommends : UInt64 := 0
  hits : UInt64 := 0
  misses : UInt64 := 0
  evictions : UInt64 := 0
  entries : UInt64 := 0
  capacity : UInt64 := 0
  policyAllowed : UInt64 := 0
  policyExposureBlocked : UInt64 := 0
  policyFrequencyBlocked : UInt64 := 0
  policyStoreFull : UInt64 := 0
  policyTracked : UInt64 := 0

/-- The `oneof` of an envelope, each arm with the fields of its message. A message within a
message may be absent. -/
inductive Body (D : Type) where
  | notSet
  | getItemRequest (itemId : UInt64)
  | putItemRequest (item : Option (Item D))
  | deleteItemRequest (itemId : UInt64)
  | statsRequest
  | recommendRequest (signal : Option (UserSignal D)) (count : UInt32) (dryRun : Bool)
  | getItemResponse (status : Status) (item : Option (Item D))
  | putItemResponse (status : Status)
  | deleteItemResponse (status : Status)
  | statsResponse (status : Status) (stats : Option Stats)
  | recommendResponse (status : Status) (items : List (RankedItem D))
  | errorResponse (status : Status) (message : Bytes)

/-- The message `Envelope`: the id of a request and one of the bodies. -/
structure Envelope (D : Type) where
  requestId : UInt64
  body : Body D

end Pb

/-- The largest `int`. -/
def intMax : Nat := 2 ^ 31 - 1

/-- The protobuf runtime for one type of message, which parses what it has serialised if its
length is an `int`. -/
structure Serializer (M : Type) where
  serialize : M → Bytes
  parse : Bytes → Option M
  parse_serialize : ∀ message, (serialize message).length ≤ intMax →
    parse (serialize message) = some message

namespace Serializer

variable {M : Type} (runtime : Serializer M)

/-- `ByteSizeLong`: how many bytes the message takes. -/
def byteSizeLong (message : M) : Nat := (runtime.serialize message).length

/-- Whether a message is written to the array, and the array after that. It is not if it is
longer than an `int` can say, or than the given size. -/
def serializeToArray (message : M) (array : Bytes) (size : Int32) : Bool × Bytes :=
  if intMax < runtime.byteSizeLong message ∨ size.toInt < runtime.byteSizeLong message then
    (false, array)
  else (true, runtime.serialize message ++ array.drop (runtime.byteSizeLong message))

/-- The message in the first bytes of an array. A negative size is refused. -/
def parseFromArray (array : Bytes) (size : Int32) : Option M :=
  if size < 0 then none else runtime.parse (array.take size.toInt.toNat)

end Serializer

namespace ProtobufCodec

variable {D : Type}

/-! ## Conversions -/

/-- The wire's name of a status; what has none is reported as an internal error. -/
def toWireStatus (status : StatusCode) : Pb.Status :=
  if status = .ok then .ok
  else if status = .notFound then .notFound
  else if status = .invalidRequest then .invalidRequest
  else if status = .internal then .internal
  else .internal

/-- The status of a wire name; what is unknown is an internal error. -/
def fromWireStatus (status : Pb.Status) : StatusCode :=
  if status = .ok then .ok
  else if status = .notFound then .notFound
  else if status = .invalidRequest then .invalidRequest
  else if status = .internal then .internal
  else .internal

/-- An item as it is sent. -/
def toWireItem (item : Item D) : Pb.Item D :=
  ⟨item.id, item.category, item.advertiser, item.baseScore, toEpochMillis item.createdAt,
    toEpochMillis item.expiresAt⟩

/-- An item as it was received. -/
def fromWireItem (item : Pb.Item D) : Item D :=
  ⟨item.id, item.category, item.advertiser, item.baseScore, fromEpochMillis item.createdAtMs,
    fromEpochMillis item.expiresAtMs⟩

/-- A signal as it is sent. -/
def toWireSignal (signal : UserSignal D) : Pb.UserSignal D where
  affinities := signal.affinities.map fun affinity => ⟨affinity.category, affinity.weight⟩
  excludedCategories := signal.excludedCategories

/-- Refuses where the source returns `false`: both sizes are looked at before either list. -/
def fromWireSignal (signal : Pb.UserSignal D) : Option (UserSignal D) :=
  if kMaxAffinities.toNat < signal.affinities.length ∨
      kMaxExcluded.toNat < signal.excludedCategories.length then none
  else do
    let affinities ← signal.affinities.mapM fun entry =>
      if kMaxCategoryLength < entry.category.length then none
      else some (⟨entry.category, entry.weight⟩ : CategoryAffinity D)
    let excluded ← signal.excludedCategories.mapM fun category =>
      if kMaxCategoryLength < category.length then none else some category
    return ⟨affinities, excluded⟩

/-- An entry of a slate as it is sent. -/
def toWireRanked (ranked : RankedItem D) : Pb.RankedItem D :=
  ⟨ranked.id, ranked.score, ranked.category, ranked.advertiser⟩

/-- An entry of a slate as it was received. -/
def fromWireRanked (entry : Pb.RankedItem D) : RankedItem D :=
  ⟨entry.id, entry.score, entry.category, entry.advertiser⟩

/-- The counters as they are sent. -/
def toWireStats (stats : Stats) : Pb.Stats where
  requests := stats.requests
  gets := stats.gets
  puts := stats.puts
  deletes := stats.deletes
  recommends := stats.recommends
  hits := stats.hits
  misses := stats.misses
  evictions := stats.evictions
  entries := stats.entries
  capacity := stats.capacity
  policyAllowed := stats.policyAllowed
  policyExposureBlocked := stats.policyExposureBlocked
  policyFrequencyBlocked := stats.policyFrequencyBlocked
  policyStoreFull := stats.policyStoreFull
  policyTracked := stats.policyTracked

/-- The counters as they were received. -/
def fromWireStats (stats : Pb.Stats) : Stats where
  requests := stats.requests
  gets := stats.gets
  puts := stats.puts
  deletes := stats.deletes
  recommends := stats.recommends
  hits := stats.hits
  misses := stats.misses
  evictions := stats.evictions
  entries := stats.entries
  capacity := stats.capacity
  policyAllowed := stats.policyAllowed
  policyExposureBlocked := stats.policyExposureBlocked
  policyFrequencyBlocked := stats.policyFrequencyBlocked
  policyStoreFull := stats.policyStoreFull
  policyTracked := stats.policyTracked

/-! ## Encoding -/

/-- The body of a request as it is sent. -/
def toWireRequest : RequestBody D → Pb.Body D
  | .getItem itemId => .getItemRequest itemId
  | .putItem item => .putItemRequest (some (toWireItem item))
  | .deleteItem itemId => .deleteItemRequest itemId
  | .getStats => .statsRequest
  | .recommend asked =>
      .recommendRequest (some (toWireSignal asked.signal)) asked.count asked.dryRun

/-- The body of a response as it is sent; only an item that was found travels. -/
def toWireResponse : ResponseBody D → Pb.Body D
  | .getItemResult status item =>
      .getItemResponse (toWireStatus status) (if status = .ok then some (toWireItem item) else none)
  | .putItemResult status => .putItemResponse (toWireStatus status)
  | .deleteItemResult status => .deleteItemResponse (toWireStatus status)
  | .statsResult status stats => .statsResponse (toWireStatus status) (some (toWireStats stats))
  | .recommendResult status items =>
      .recommendResponse (toWireStatus status) (items.map toWireRanked)
  | .failure status message => .errorResponse (toWireStatus status) message

/-- The envelope of a request. -/
def ofRequest (request : Request D) : Pb.Envelope D :=
  ⟨request.requestId, toWireRequest request.body⟩

/-- The envelope of a response. -/
def ofResponse (response : Response D) : Pb.Envelope D :=
  ⟨response.requestId, toWireResponse response.body⟩

section Serialization

variable (runtime : Serializer (Pb.Envelope D))

/-- The buffer after an envelope is appended to it. -/
def appendSerialized (envelope : Pb.Envelope D) (out : Bytes) : Bytes :=
  let size := runtime.byteSizeLong envelope
  let offset := out.length
  let out := resize out (offset + size)
  if 0 < size then
    -- whether the envelope has been written is not looked at
    out.take offset ++ (runtime.serializeToArray envelope (out.drop offset) (Int32.ofNat size)).2
  else out

/-- `parse`: what was not a message, or is too long for an `int`, is no envelope. -/
def parse (body : Bytes) : Option (Pb.Envelope D) :=
  runtime.parseFromArray body (Int32.ofNat body.length)

/-- The buffer after a request is encoded into it. -/
def encodeRequest (request : Request D) (out : Bytes) : Bytes :=
  appendSerialized runtime (ofRequest request) out

/-- The buffer after a response is encoded into it. -/
def encodeResponse (response : Response D) (out : Bytes) : Bytes :=
  appendSerialized runtime (ofResponse response) out

end Serialization

/-! ## Decoding -/

variable [BitCast D]

/-- The fields of a message that is absent. -/
def absentItem : Pb.Item D := ⟨0, [], [], bitsToDouble 0, 0, 0⟩

/-- Items are checked by a function of the same text as that of the binary codec. -/
def fromWireRequest : Pb.Body D → DecodeError × RequestBody D
  | .getItemRequest itemId => (.none, .getItem itemId)
  | .deleteItemRequest itemId => (.none, .deleteItem itemId)
  | .putItemRequest given =>
      let item := fromWireItem (given.getD absentItem)
      if itemWithinLimits item then (.none, .putItem item)
      else (.fieldTooLarge, defaultRequestBody)
  | .statsRequest => (.none, .getStats)
  | .recommendRequest given count dryRun =>
      match fromWireSignal (given.getD {}) with
      | none => (.fieldTooLarge, defaultRequestBody)
      | some signal =>
          if kMaxRecommendCount < count then (.fieldTooLarge, defaultRequestBody)
          else (.none, .recommend ⟨signal, count, dryRun⟩)
  | .notSet => (.unknownType, defaultRequestBody)
  | _ => (.wrongDirection, defaultRequestBody)

/-- What becomes of a body that was received where a response is expected. -/
def fromWireResponse : Pb.Body D → DecodeError × ResponseBody D
  | .getItemResponse wireStatus given =>
      let status := fromWireStatus wireStatus
      if status = .ok then
        let item := fromWireItem (given.getD absentItem)
        if itemWithinLimits item then (.none, .getItemResult status item)
        else (.fieldTooLarge, defaultResponseBody)
      else (.none, .getItemResult status defaultItem)
  | .putItemResponse status => (.none, .putItemResult (fromWireStatus status))
  | .deleteItemResponse status => (.none, .deleteItemResult (fromWireStatus status))
  | .statsResponse status given =>
      (.none, .statsResult (fromWireStatus status) (fromWireStats (given.getD {})))
  | .recommendResponse status items =>
      if kMaxRecommendCount.toNat < items.length then (.fieldTooLarge, defaultResponseBody)
      else (.none, .recommendResult (fromWireStatus status) (items.map fromWireRanked))
  | .errorResponse status message =>
      if kMaxMessageLength < message.length then (.fieldTooLarge, defaultResponseBody)
      else (.none, .failure (fromWireStatus status) message)
  | .notSet => (.unknownType, defaultResponseBody)
  | _ => (.wrongDirection, defaultResponseBody)

/-- The error a body is refused with, and the request it leaves. -/
def decodeRequest (runtime : Serializer (Pb.Envelope D)) (body : Bytes) (out : Request D) :
    DecodeError × Request D :=
  match parse runtime body with
  | none => (.truncated, out)
  | some envelope =>
      ((fromWireRequest envelope.body).1, ⟨envelope.requestId, (fromWireRequest envelope.body).2⟩)

/-- The error a body is refused with, and the response it leaves. -/
def decodeResponse (runtime : Serializer (Pb.Envelope D)) (body : Bytes) (out : Response D) :
    DecodeError × Response D :=
  match parse runtime body with
  | none => (.truncated, out)
  | some envelope =>
      ((fromWireResponse envelope.body).1,
        ⟨envelope.requestId, (fromWireResponse envelope.body).2⟩)

end ProtobufCodec

/-! ## What comes back -/

/-- The status is one of the four that have names. -/
def StatusCode.Declared (status : StatusCode) : Prop :=
  status = .ok ∨ status = .notFound ∨ status = .invalidRequest ∨ status = .internal

namespace ProtobufCodec

variable {D : Type}

/-- The four statuses are received as they were sent. -/
theorem fromWireStatus_toWireStatus {status : StatusCode} (declared : status.Declared) :
    fromWireStatus (toWireStatus status) = status := by
  obtain rfl | rfl | rfl | rfl := declared
  · rfl
  · rfl
  · rfl
  · rfl

/-- A list of which each value is checked comes back if all of them pass. -/
theorem mapM_checked {α β : Type} (rejected : α → Prop) [DecidablePred rejected] (build : α → β)
    (values : List α) (passed : ∀ value ∈ values, ¬ rejected value) :
    values.mapM (fun value => if rejected value then none else some (build value)) =
      some (values.map build) := by
  induction values with
  | nil => rfl
  | cons value values ih =>
      rw [List.mapM_cons, if_neg (passed value List.mem_cons_self),
        ih fun other member => passed other (List.mem_cons_of_mem value member)]
      rfl

/-- One value that is rejected makes the whole list fail. -/
theorem mapM_rejected {α β : Type} (rejected : α → Prop) [DecidablePred rejected] (build : α → β)
    {values : List α} {value : α} (member : value ∈ values) (isRejected : rejected value) :
    values.mapM (fun value => if rejected value then none else some (build value)) = none := by
  induction values with
  | nil => exact absurd member List.not_mem_nil
  | cons first values ih =>
      rw [List.mapM_cons]
      by_cases here : rejected first
      · rw [if_pos here]
        rfl
      · rw [if_neg here]
        obtain rfl | later := List.mem_cons.mp member
        · exact absurd isRejected here
        · rw [ih later]
          rfl

/-- The affinities of a signal are received as they were sent. -/
theorem affinities_toWireSignal (signal : UserSignal D) :
    (toWireSignal signal).affinities.map
      (fun entry => (⟨entry.category, entry.weight⟩ : CategoryAffinity D)) = signal.affinities := by
  rw [toWireSignal, List.map_map]
  exact List.map_id _

variable {signal : UserSignal D}

/-- An affinity that is sent is one of the signal's. -/
theorem mem_affinities_toWireSignal {entry : Pb.CategoryAffinity D}
    (member : entry ∈ (toWireSignal signal).affinities) :
    ⟨entry.category, entry.weight⟩ ∈ signal.affinities := by
  rw [← affinities_toWireSignal signal]
  exact List.mem_map_of_mem member

/-- A signal within its limits comes back. -/
theorem fromWireSignal_within (within : SignalWithinLimits signal) :
    fromWireSignal (toWireSignal signal) = some signal := by
  have affinities := mapM_checked
    (fun entry : Pb.CategoryAffinity D => kMaxCategoryLength < entry.category.length)
    (fun entry => (⟨entry.category, entry.weight⟩ : CategoryAffinity D))
    (toWireSignal signal).affinities fun entry member =>
      Nat.not_lt.mpr (within.affinityCategories _ (mem_affinities_toWireSignal member))
  have excluded := mapM_checked (fun category : Bytes => kMaxCategoryLength < category.length) id
    (toWireSignal signal).excludedCategories fun category member =>
      Nat.not_lt.mpr (within.excludedCategories category member)
  have few : ¬ (kMaxAffinities.toNat < (toWireSignal signal).affinities.length ∨
      kMaxExcluded.toNat < (toWireSignal signal).excludedCategories.length) := by
    rw [toWireSignal, List.length_map, not_or, Nat.not_lt, Nat.not_lt]
    exact ⟨within.affinities, within.excluded⟩
  rw [fromWireSignal, if_neg few, affinities, affinities_toWireSignal]
  change (Option.bind (List.mapM (fun category : Bytes =>
    if kMaxCategoryLength < category.length then none else some (id category)) _) _) = _
  rw [excluded, List.map_id]
  rfl

/-- A signal out of its limits is refused. -/
theorem fromWireSignal_outside (outside : ¬ SignalWithinLimits signal) :
    fromWireSignal (toWireSignal signal) = none := by
  rw [fromWireSignal]
  by_cases many : kMaxAffinities.toNat < (toWireSignal signal).affinities.length ∨
      kMaxExcluded.toNat < (toWireSignal signal).excludedCategories.length
  · rw [if_pos many]
  rw [if_neg many]
  rw [toWireSignal, List.length_map, not_or, Nat.not_lt, Nat.not_lt] at many
  by_cases affinities : ∀ affinity ∈ signal.affinities,
      affinity.category.length ≤ kMaxCategoryLength
  · have excluded : ∃ category ∈ signal.excludedCategories,
        kMaxCategoryLength < category.length := by
      by_contra short
      push Not at short
      exact outside ⟨many.1, affinities, many.2, short⟩
    obtain ⟨category, member, long⟩ := excluded
    have refused := mapM_rejected (fun category : Bytes => kMaxCategoryLength < category.length) id
      member long
    refine Option.bind_eq_none_iff.mpr fun entries _ => ?_
    change Option.bind (signal.excludedCategories.mapM fun category =>
      if kMaxCategoryLength < category.length then none else some (id category)) _ = _
    rw [refused]
    rfl
  · push Not at affinities
    obtain ⟨affinity, member, long⟩ := affinities
    have refused := mapM_rejected
      (fun entry : Pb.CategoryAffinity D => kMaxCategoryLength < entry.category.length)
      (fun entry => (⟨entry.category, entry.weight⟩ : CategoryAffinity D))
      (List.mem_map_of_mem (f := fun affinity : CategoryAffinity D =>
        (⟨affinity.category, affinity.weight⟩ : Pb.CategoryAffinity D)) member) long
    rw [toWireSignal, refused]
    rfl

variable [BitCast D]

section Requests

variable {body : RequestBody D}

/-- A request within the limits is received as it was sent. -/
theorem fromWireRequest_within (within : body.WithinLimits) :
    fromWireRequest (toWireRequest body) = (.none, body) := by
  cases body with
  | putItem item =>
      simp only [toWireRequest, fromWireRequest, Option.getD_some]
      exact if_pos within
  | recommend asked =>
      simp only [toWireRequest, fromWireRequest, Option.getD_some, fromWireSignal_within within.1]
      exact if_neg (UInt32.not_lt.mpr within.2)
  | _ => rfl

/-- A request outside the limits is refused as too large. -/
theorem fromWireRequest_outside (outside : ¬ body.WithinLimits) :
    fromWireRequest (toWireRequest body) = (.fieldTooLarge, defaultRequestBody) := by
  cases body with
  | putItem item =>
      simp only [toWireRequest, fromWireRequest, Option.getD_some]
      exact if_neg outside
  | recommend asked =>
      simp only [toWireRequest, fromWireRequest, Option.getD_some]
      by_cases within : SignalWithinLimits asked.signal
      · simp only [fromWireSignal_within within]
        exact if_pos (UInt32.not_le.mp fun few => outside ⟨within, few⟩)
      · simp only [fromWireSignal_outside within]
  | _ => exact absurd trivial outside

theorem fromWireResponse_toWireRequest (body : RequestBody D) :
    (fromWireResponse (toWireRequest body)).1 = .wrongDirection := by
  cases body <;> rfl

end Requests

section Responses

variable {body : ResponseBody D}

/-- A response within the limits is received as it was sent, up to an item that does not travel.
-/
theorem fromWireResponse_within (declared : body.status.Declared)
    (within : body.settled.WithinLimits) :
    fromWireResponse (toWireResponse body) = (.none, body.settled) := by
  have known := fromWireStatus_toWireStatus declared
  cases body with
  | getItemResult status item =>
      dsimp only [ResponseBody.status] at known
      simp only [toWireResponse, fromWireResponse, known]
      by_cases ok : status = .ok
      · simp only [ResponseBody.settled, ok, ↓reduceIte] at within
        simp only [ResponseBody.settled, ok, ↓reduceIte, Option.getD_some]
        exact if_pos within.1
      · simp only [ResponseBody.settled, ok, ↓reduceIte]
  | recommendResult status items =>
      have few : ¬ kMaxRecommendCount.toNat < (items.map toWireRanked).length := by
        rw [List.length_map]
        exact Nat.not_lt.mpr within
      have same : (items.map toWireRanked).map fromWireRanked = items := by
        rw [List.map_map]
        exact List.map_id items
      dsimp only [ResponseBody.status] at known
      simp only [toWireResponse, fromWireResponse, known, few, ↓reduceIte, same,
        ResponseBody.settled]
  | failure status message =>
      dsimp only [ResponseBody.status] at known
      simp only [toWireResponse, fromWireResponse, known]
      exact if_neg (Nat.not_lt.mpr within)
  | statsResult status stats =>
      dsimp only [ResponseBody.status] at known
      simp only [toWireResponse, fromWireResponse, known]
      rfl
  | _ =>
      dsimp only [ResponseBody.status] at known
      simp only [toWireResponse, fromWireResponse, known, ResponseBody.settled]

/-- A response outside the limits is refused as too large. -/
theorem fromWireResponse_outside (declared : body.status.Declared)
    (outside : ¬ body.settled.WithinLimits) :
    fromWireResponse (toWireResponse body) = (.fieldTooLarge, defaultResponseBody) := by
  have known := fromWireStatus_toWireStatus declared
  cases body with
  | getItemResult status item =>
      dsimp only [ResponseBody.status] at known
      simp only [toWireResponse, fromWireResponse, known]
      by_cases ok : status = .ok
      · simp only [ResponseBody.settled, ok, ↓reduceIte] at outside
        simp only [ok, ↓reduceIte, Option.getD_some]
        exact if_neg fun within => outside ⟨within, fun other => absurd rfl other⟩
      · simp only [ResponseBody.settled, ok, ↓reduceIte] at outside
        exact absurd ⟨rfl, fun _ => rfl⟩ outside
  | recommendResult status items =>
      have many : kMaxRecommendCount.toNat < (items.map toWireRanked).length := by
        rw [List.length_map]
        exact Nat.not_le.mp outside
      simp only [toWireResponse, fromWireResponse, many, ↓reduceIte]
  | failure status message => exact if_pos (Nat.not_le.mp outside)
  | _ => exact absurd trivial outside

theorem fromWireRequest_toWireResponse (body : ResponseBody D) :
    (fromWireRequest (toWireResponse body)).1 = .wrongDirection := by
  cases body <;> rfl

end Responses

/-! ## Messages -/

section Messages

variable (runtime : Serializer (Pb.Envelope D)) {envelope : Pb.Envelope D}

omit [BitCast D] in
theorem resize_longer (out : Bytes) (size : Nat) :
    resize out (out.length + size) = out ++ List.replicate size 0 := by
  rw [resize, List.take_of_length_le (Nat.le_add_right _ _), Nat.add_sub_cancel_left]

omit [BitCast D] in
/-- An envelope whose length is an `int` is appended to the buffer. -/
theorem appendSerialized_fits (fits : runtime.byteSizeLong envelope ≤ intMax) (out : Bytes) :
    appendSerialized runtime envelope out = out ++ runtime.serialize envelope := by
  have narrowed : (Int32.ofNat (runtime.byteSizeLong envelope)).toInt =
      runtime.byteSizeLong envelope := by
    apply Int32.toInt_ofNat_of_lt
    rw [intMax] at fits
    omega
  have written : ¬ (intMax < runtime.byteSizeLong envelope ∨
      (runtime.byteSizeLong envelope : Int) < runtime.byteSizeLong envelope) := by
    omega
  unfold appendSerialized
  simp only [resize_longer, List.take_left, List.drop_left, Serializer.serializeToArray, narrowed,
    if_neg written]
  split
  · rw [List.drop_of_length_le (by rw [List.length_replicate]), List.append_nil]
  · rename_i empty
    have nothing : runtime.serialize envelope = [] :=
      List.length_eq_zero_iff.mp (Nat.eq_zero_of_not_pos empty)
    rw [Serializer.byteSizeLong, nothing]
    rfl

omit [BitCast D] in
/-- A longer one is not, and leaves as many zeros. -/
theorem appendSerialized_beyond (beyond : intMax < runtime.byteSizeLong envelope) (out : Bytes) :
    appendSerialized runtime envelope out =
      out ++ List.replicate (runtime.byteSizeLong envelope) 0 := by
  unfold appendSerialized
  simp only [resize_longer, List.take_left, List.drop_left, Serializer.serializeToArray,
    if_pos (Or.inl beyond), ite_self]

omit [BitCast D] in
/-- An envelope whose size is an `int` is parsed as it was serialised. -/
theorem parse_serialize (fits : runtime.byteSizeLong envelope ≤ intMax) :
    parse runtime (runtime.serialize envelope) = some envelope := by
  have narrowed : (Int32.ofNat (runtime.serialize envelope).length).toInt =
      (runtime.serialize envelope).length := by
    apply Int32.toInt_ofNat_of_lt
    rw [Serializer.byteSizeLong, intMax] at fits
    omega
  have positive : ¬ Int32.ofNat (runtime.serialize envelope).length < 0 := by
    rw [Int32.lt_iff_toInt_lt, narrowed]
    simp
  rw [parse, Serializer.parseFromArray, if_neg positive, narrowed, Int.toNat_natCast,
    List.take_length]
  exact runtime.parse_serialize envelope fits

/-- An envelope whose length is an `int` is decoded to what its fields stand for. -/
theorem decodeRequest_appended (fits : runtime.byteSizeLong envelope ≤ intMax)
    (out : Request D) :
    decodeRequest runtime (appendSerialized runtime envelope []) out =
      ((fromWireRequest envelope.body).1,
        ⟨envelope.requestId, (fromWireRequest envelope.body).2⟩) := by
  rw [appendSerialized_fits runtime fits, List.nil_append, decodeRequest,
    parse_serialize runtime fits]

/-- Decoding a response that was appended to an empty buffer reads its envelope. -/
theorem decodeResponse_appended (fits : runtime.byteSizeLong envelope ≤ intMax)
    (out : Response D) :
    decodeResponse runtime (appendSerialized runtime envelope []) out =
      ((fromWireResponse envelope.body).1,
        ⟨envelope.requestId, (fromWireResponse envelope.body).2⟩) := by
  rw [appendSerialized_fits runtime fits, List.nil_append, decodeResponse,
    parse_serialize runtime fits]

end Messages

end ProtobufCodec

end Lrd.Proto
