import Lrd.Rank.Item

/-!
# Messages

Requests, responses and the protocol's limits (`proto/message.hpp`).
-/

namespace Lrd.Proto

open Rank

/-- The first four bytes of every body, the letters LRD1. -/
def kMagic : UInt32 := 0x4C524431

/-- The one version of the protocol that is spoken. -/
def kVersion : UInt8 := 3

/-- The bytes of the length in front of a body. -/
def kLengthPrefixSize : Nat := 4

/-- The longest body of a frame. -/
def kMaxFrameSize : UInt32 := 1024 * 1024

/-- The shortest body of a frame. -/
def kMinFrameSize : UInt32 := 1

/-- The longest category. -/
def kMaxCategoryLength : Nat := 64

/-- The longest advertiser. -/
def kMaxAdvertiserLength : Nat := 64

/-- How many affinities a signal may have. -/
def kMaxAffinities : UInt32 := 64

/-- How many categories a signal may exclude. -/
def kMaxExcluded : UInt32 := 64

/-- How many items may be asked for at once. -/
def kMaxRecommendCount : UInt32 := 100

/-- The longest text of an error. -/
def kMaxMessageLength : Nat := 1024

/-- The bit that tells the types of responses from those of requests. -/
def kResponseBit : UInt8 := 0x80

/-- The types of messages. -/
inductive MessageType where
  | getItemRequest
  | putItemRequest
  | deleteItemRequest
  | statsRequest
  | recommendRequest
  | getItemResponse
  | putItemResponse
  | deleteItemResponse
  | statsResponse
  | recommendResponse
  | errorResponse
deriving DecidableEq, Repr

namespace MessageType

/-- The type byte on the wire. -/
def code : MessageType → UInt8
  | getItemRequest => 0x01
  | putItemRequest => 0x02
  | deleteItemRequest => 0x03
  | statsRequest => 0x04
  | recommendRequest => 0x05
  | getItemResponse => 0x81
  | putItemResponse => 0x82
  | deleteItemResponse => 0x83
  | statsResponse => 0x84
  | recommendResponse => 0x85
  | errorResponse => 0xFF

/-- The known types, by their bytes; `none` is a byte that `is_known_type`
refuses. -/
def ofCode (raw : UInt8) : Option MessageType :=
  if raw = 0x01 then some getItemRequest
  else if raw = 0x02 then some putItemRequest
  else if raw = 0x03 then some deleteItemRequest
  else if raw = 0x04 then some statsRequest
  else if raw = 0x05 then some recommendRequest
  else if raw = 0x81 then some getItemResponse
  else if raw = 0x82 then some putItemResponse
  else if raw = 0x83 then some deleteItemResponse
  else if raw = 0x84 then some statsResponse
  else if raw = 0x85 then some recommendResponse
  else if raw = 0xFF then some errorResponse
  else none

/-- The name that the logs and the client's errors use. -/
def toString : MessageType → String
  | getItemRequest => "GetItemRequest"
  | putItemRequest => "PutItemRequest"
  | deleteItemRequest => "DeleteItemRequest"
  | statsRequest => "StatsRequest"
  | recommendRequest => "RecommendRequest"
  | getItemResponse => "GetItemResponse"
  | putItemResponse => "PutItemResponse"
  | deleteItemResponse => "DeleteItemResponse"
  | statsResponse => "StatsResponse"
  | recommendResponse => "RecommendResponse"
  | errorResponse => "ErrorResponse"

/-- Whether the type is one of a response. -/
def isResponse (type : MessageType) : Bool := (type.code &&& kResponseBit) != 0

end MessageType

/-- A status byte. Four values have names; a peer may send any other. -/
structure StatusCode where
  code : UInt8
deriving DecidableEq, Repr

namespace StatusCode

/-- The request was carried out. -/
def ok : StatusCode := ⟨0⟩

/-- There is no such item. -/
def notFound : StatusCode := ⟨1⟩

/-- The request was refused as it stands. -/
def invalidRequest : StatusCode := ⟨2⟩

/-- The daemon failed. -/
def internal : StatusCode := ⟨3⟩

end StatusCode

/-- Why a body was not decoded. -/
inductive DecodeError where
  | none
  | truncated
  | badMagic
  | unsupportedVersion
  | reservedFlags
  | unknownType
  | wrongDirection
  | trailingBytes
  | fieldTooLarge
deriving DecidableEq, Repr

/-- The name by which an error is reported. -/
def DecodeError.toString : DecodeError → String
  | none => "None"
  | truncated => "Truncated"
  | badMagic => "BadMagic"
  | unsupportedVersion => "UnsupportedVersion"
  | reservedFlags => "ReservedFlags"
  | unknownType => "UnknownType"
  | wrongDirection => "WrongDirection"
  | trailingBytes => "TrailingBytes"
  | fieldTooLarge => "FieldTooLarge"

/-- What stands in front of every message, after the magic number. -/
structure Header where
  version : UInt8
  type : MessageType
  flags : UInt16
  requestId : UInt64

/-- The counters that the daemon reports. -/
structure Stats where
  requests : UInt64 := 0
  gets : UInt64 := 0
  puts : UInt64 := 0
  deletes : UInt64 := 0
  recommends : UInt64 := 0
  hits : UInt64 := 0
  misses : UInt64 := 0
  evictions : UInt64 := 0
  entries : UInt64 := 0
  capacity : UInt64 := 0
  policyAllowed : UInt64 := 0
  policyExposureBlocked : UInt64 := 0
  policyFrequencyBlocked : UInt64 := 0
  policyStoreFull : UInt64 := 0
  policyTracked : UInt64 := 0
deriving DecidableEq, Repr

/-- The arguments of a recommendation. -/
structure Recommend (D : Type) where
  signal : UserSignal D
  count : UInt32
  dryRun : Bool
deriving DecidableEq, Repr

/-- What is asked of the daemon. -/
inductive RequestBody (D : Type) where
  | getItem (itemId : ItemId)
  | putItem (item : Item D)
  | deleteItem (itemId : ItemId)
  | getStats
  | recommend (recommend : Recommend D)
deriving DecidableEq, Repr

/-- A request with the id that its response repeats. -/
structure Request (D : Type) where
  requestId : UInt64
  body : RequestBody D
deriving DecidableEq, Repr

/-- A `getItemResult`'s item means something only when its status is `Ok`. -/
inductive ResponseBody (D : Type) where
  | getItemResult (status : StatusCode) (item : Item D)
  | putItemResult (status : StatusCode)
  | deleteItemResult (status : StatusCode)
  | statsResult (status : StatusCode) (stats : Stats)
  | recommendResult (status : StatusCode) (items : List (RankedItem D))
  | failure (status : StatusCode) (message : Bytes)
deriving DecidableEq, Repr

/-- A response with the id of the request it answers. -/
structure Response (D : Type) where
  requestId : UInt64
  body : ResponseBody D
deriving DecidableEq, Repr

/-- A response that reports an error. -/
def makeError {D : Type} (requestId : UInt64) (status : StatusCode) (message : Bytes) :
    Response D :=
  ⟨requestId, .failure status message⟩

/-- The type under which a request is sent. -/
def RequestBody.typeOf {D : Type} : RequestBody D → MessageType
  | getItem _ => .getItemRequest
  | putItem _ => .putItemRequest
  | deleteItem _ => .deleteItemRequest
  | getStats => .statsRequest
  | recommend _ => .recommendRequest

/-- The type under which a response is sent. -/
def ResponseBody.typeOf {D : Type} : ResponseBody D → MessageType
  | getItemResult _ _ => .getItemResponse
  | putItemResult _ => .putItemResponse
  | deleteItemResult _ => .deleteItemResponse
  | statsResult _ _ => .statsResponse
  | recommendResult _ _ => .recommendResponse
  | failure _ _ => .errorResponse

end Lrd.Proto
