import Lrd.Proto.Message
import Lrd.Proto.Wire

/-!
# The binary codec

`BinaryCodec` (`proto/codec.cpp`). An encoder writes the header and the fields of a
message. A decoder reads them back from a received body and returns the first thing
it finds wrong, next to what it has left in the message it was given.
-/

namespace Lrd.Proto

open Foundation Rank

/-- Doubles and their 64 bits, which `std::bit_cast` takes to each other. -/
class BitCast (D : Type) where
  doubleToBits : D → UInt64
  bitsToDouble : UInt64 → D
  bitsToDouble_doubleToBits : ∀ value, bitsToDouble (doubleToBits value) = value
  doubleToBits_bitsToDouble : ∀ bits, doubleToBits (bitsToDouble bits) = bits

export BitCast (doubleToBits bitsToDouble)

instance : BitCast UInt64 := ⟨id, id, fun _ => rfl, fun _ => rfl⟩

variable {D : Type}

/-- Both strings of an item keep their limits. -/
def itemWithinLimits (item : Item D) : Bool :=
  item.category.length ≤ kMaxCategoryLength && item.advertiser.length ≤ kMaxAdvertiserLength

/-- The body of `Request{}`. -/
def defaultRequestBody : RequestBody D := .getItem 0

variable [BitCast D]

/-- The value-initialised item; all bits of `0.0` are clear. -/
def defaultItem : Item D := .empty (bitsToDouble 0)

/-- The body of `Response{}`. -/
def defaultResponseBody : ResponseBody D := .getItemResult .ok defaultItem

/-! ## Encoding -/

section Encoding

open ByteWriter

/-- The fields of an item, in the order in which they are sent. -/
def writeItem (item : Item D) : ByteWriter := do
  u64 item.id
  string item.category
  string item.advertiser
  u64 (doubleToBits item.baseScore)
  u64 (toEpochMillis item.createdAt).toUInt64
  u64 (toEpochMillis item.expiresAt).toUInt64

/-- A category and its weight. -/
def writeAffinity (affinity : CategoryAffinity D) : ByteWriter := do
  string affinity.category
  u64 (doubleToBits affinity.weight)

/-- The affinities and the excluded categories, each with their number in front. -/
def writeSignal (signal : UserSignal D) : ByteWriter := do
  u32 (UInt32.ofNat signal.affinities.length)
  signal.affinities.forM writeAffinity
  u32 (UInt32.ofNat signal.excludedCategories.length)
  signal.excludedCategories.forM string

/-- An entry of a slate. -/
def writeRanked (ranked : RankedItem D) : ByteWriter := do
  u64 ranked.id
  u64 (doubleToBits ranked.score)
  string ranked.category
  string ranked.advertiser

/-- All counters, in the order in which they are sent. -/
def writeStats (stats : Stats) : ByteWriter := do
  u64 stats.requests
  u64 stats.gets
  u64 stats.puts
  u64 stats.deletes
  u64 stats.recommends
  u64 stats.hits
  u64 stats.misses
  u64 stats.evictions
  u64 stats.entries
  u64 stats.capacity
  u64 stats.policyAllowed
  u64 stats.policyExposureBlocked
  u64 stats.policyFrequencyBlocked
  u64 stats.policyStoreFull
  u64 stats.policyTracked

/-- The header, with the magic number in front. -/
def encodeHeader (header : Header) : ByteWriter := do
  u32 kMagic
  u8 header.version
  u8 header.type.code
  u16 header.flags
  u64 header.requestId

/-- The arguments of a request. -/
def writeRequestBody : RequestBody D → ByteWriter
  | .getItem itemId => u64 itemId
  | .putItem item => writeItem item
  | .deleteItem itemId => u64 itemId
  | .getStats => pure ()
  | .recommend recommend => do
      writeSignal recommend.signal
      u32 recommend.count
      u8 (if recommend.dryRun then 1 else 0)

/-- The status of a response and what it carries. -/
def writeResponseBody : ResponseBody D → ByteWriter
  | .getItemResult status item => do
      u8 status.code
      if status = .ok then writeItem item else pure ()
  | .putItemResult status => u8 status.code
  | .deleteItemResult status => u8 status.code
  | .statsResult status stats => do
      u8 status.code
      writeStats stats
  | .recommendResult status items => do
      u8 status.code
      u32 (UInt32.ofNat items.length)
      items.forM writeRanked
  | .failure status message => do
      u8 status.code
      string message

/-- A whole request. -/
def writeRequest (request : Request D) : ByteWriter := do
  encodeHeader ⟨kVersion, request.body.typeOf, 0, request.requestId⟩
  writeRequestBody request.body

/-- A whole response. -/
def writeResponse (response : Response D) : ByteWriter := do
  encodeHeader ⟨kVersion, response.body.typeOf, 0, response.requestId⟩
  writeResponseBody response.body

end Encoding

/-! ## Decoding -/

section Decoding

open ByteReader

variable {data : Bytes}

/-- Read an item; what is missing is zero or empty. -/
def readItem : Reader data (Item D) := do
  let id ← u64
  let category ← string
  let advertiser ← string
  let baseScore ← u64
  let createdAt ← u64
  let expiresAt ← u64
  return ⟨id, category, advertiser, bitsToDouble baseScore, fromEpochMillis createdAt.toInt64,
    fromEpochMillis expiresAt.toInt64⟩

/-- A list behind its count. The count is bounded before the loop, and in the loop
a value that does not fit ends it. -/
def readCounted {α : Type} (max : UInt32) (readOne : Reader data α) (fits : α → Bool) :
    Parser Unit data (List α) := do
  let count ← .ofReader u32
  if ← .ofReader failed then throw ()
  else if max < count then throw ()
  else Parser.repeated (.ofReader readOne) fits () count.toNat

/-- Read an affinity. -/
def readAffinity : Reader data (CategoryAffinity D) := do
  let category ← string
  let weight ← u64
  return ⟨category, bitsToDouble weight⟩

/-- Refuses, without a reason, where the source returns `false`. -/
def readSignal : Parser Unit data (UserSignal D) := do
  let affinities ← readCounted kMaxAffinities readAffinity
    fun affinity => affinity.category.length ≤ kMaxCategoryLength
  let excluded ← readCounted kMaxExcluded string fun category =>
    category.length ≤ kMaxCategoryLength
  return ⟨affinities, excluded⟩

/-- Read an entry of a slate. -/
def readRanked : Reader data (RankedItem D) := do
  let id ← u64
  let score ← u64
  let category ← string
  let advertiser ← string
  return ⟨id, bitsToDouble score, category, advertiser⟩

/-- Read the counters. -/
def readStats : Reader data Stats := do
  let requests ← u64
  let gets ← u64
  let puts ← u64
  let deletes ← u64
  let recommends ← u64
  let hits ← u64
  let misses ← u64
  let evictions ← u64
  let entries ← u64
  let capacity ← u64
  let policyAllowed ← u64
  let policyExposureBlocked ← u64
  let policyFrequencyBlocked ← u64
  let policyStoreFull ← u64
  let policyTracked ← u64
  return { requests, gets, puts, deletes, recommends, hits, misses, evictions, entries, capacity,
           policyAllowed, policyExposureBlocked, policyFrequencyBlocked, policyStoreFull,
           policyTracked }

/-- How decoding ends: everything was read, and nothing is left. -/
def finish : Reader data DecodeError := fun reader =>
  if reader.failed then (.truncated, reader)
  else if !reader.exhausted then (.trailingBytes, reader)
  else (.none, reader)

/-- Read the header; the first field that is wrong decides the error. -/
def decodeHeader : Parser DecodeError data Header := do
  let magic ← .ofReader u32
  if ← .ofReader failed then throw .truncated
  else if magic ≠ kMagic then throw .badMagic
  else
    let version ← .ofReader u8
    let rawType ← .ofReader u8
    let flags ← .ofReader u16
    let requestId ← .ofReader u64
    if ← .ofReader failed then throw .truncated
    else if version ≠ kVersion then throw .unsupportedVersion
    else if flags ≠ 0 then throw .reservedFlags
    else
      match MessageType.ofCode rawType with
      | none => throw .unknownType
      | some type => return ⟨version, type, flags, requestId⟩

section Payload

variable {α B : Type}

/-- A body that is set as soon as its fields are read, whatever the end of the input
is like. -/
def assigned (fields : Reader data α) (body : α → B) : Reader data (DecodeError × B) := do
  let value ← fields
  let error ← finish
  return (error, body value)

/-- A body that is set only once its fields are accepted: nothing is refused in
between, the input ends with them and they are within their limits. Until then the
body stays as it was. -/
def accepted (before : B) (fields : Parser Unit data α) (within : α → Bool) (body : α → B) :
    Reader data (DecodeError × B) := do
  match ← fields.run with
  | .error () => return (if ← failed then .truncated else .fieldTooLarge, before)
  | .ok value =>
      match ← finish with
      | .none => return if within value then (.none, body value) else (.fieldTooLarge, before)
      | error => return (error, before)

end Payload

/-- The fields of a `Recommend`, the flag as its byte. -/
def readRecommend : Parser Unit data (UserSignal D × UInt32 × UInt8) := do
  let signal ← readSignal
  let count ← .ofReader u32
  let dryRun ← .ofReader u8
  return (signal, count, dryRun)

/-- Read the arguments of a request of the given type. -/
def decodeRequestBody : MessageType → Reader data (DecodeError × RequestBody D)
  | .getItemRequest => assigned u64 .getItem
  | .deleteItemRequest => assigned u64 .deleteItem
  | .putItemRequest => accepted defaultRequestBody (.ofReader readItem) itemWithinLimits .putItem
  | .statsRequest => assigned (pure ()) fun _ => .getStats
  | .recommendRequest =>
      accepted defaultRequestBody readRecommend (fun fields => fields.2.1 ≤ kMaxRecommendCount)
        fun fields => .recommend ⟨fields.1, fields.2.1, fields.2.2 != 0⟩
  | _ => return (.unknownType, defaultRequestBody)

/-- The body of a response, after its status. -/
def decodeResult (status : StatusCode) :
    MessageType → Reader data (DecodeError × ResponseBody D)
  | .getItemResponse =>
      accepted defaultResponseBody
        (.ofReader (if status = .ok then readItem else pure defaultItem)) itemWithinLimits
        (.getItemResult status)
  | .putItemResponse => assigned (pure ()) fun _ => .putItemResult status
  | .deleteItemResponse => assigned (pure ()) fun _ => .deleteItemResult status
  | .statsResponse => assigned readStats (.statsResult status)
  | .recommendResponse =>
      accepted defaultResponseBody (readCounted kMaxRecommendCount readRanked fun _ => true)
        (fun _ => true) (.recommendResult status)
  | .errorResponse =>
      accepted defaultResponseBody (.ofReader string)
        (fun message => message.length ≤ kMaxMessageLength) (.failure status)
  | _ => return (.unknownType, defaultResponseBody)

/-- Read the status of a response and what it carries. -/
def decodeResponseBody (type : MessageType) : Reader data (DecodeError × ResponseBody D) := do
  let status ← u8
  decodeResult ⟨status⟩ type

/-- Read the header, refuse types of the other direction and read the rest. The
message is left alone until its type is known to be the right one. -/
def decodeMessage {B M : Type} (body : Bytes) (foreign : MessageType → Bool)
    (payload : MessageType → Reader body (DecodeError × B)) (message : UInt64 → B → M) (out : M) :
    DecodeError × M :=
  match decodeHeader.run (Cursor.start body) with
  | (.error error, _) => (error, out)
  | (.ok header, reader) =>
      if foreign header.type then (.wrongDirection, out)
      else
        let (error, read) := (payload header.type reader).1
        (error, message header.requestId read)

end Decoding

namespace BinaryCodec

/-- The buffer after a request is encoded into it. -/
def encodeRequest (request : Request D) (out : Bytes) : Bytes :=
  (writeRequest request out).2

/-- The buffer after a response is encoded into it. -/
def encodeResponse (response : Response D) (out : Bytes) : Bytes :=
  (writeResponse response out).2

/-- The error a body is refused with, and the request it leaves. -/
def decodeRequest (body : Bytes) (out : Request D) : DecodeError × Request D :=
  decodeMessage body MessageType.isResponse decodeRequestBody Request.mk out

/-- The error a body is refused with, and the response it leaves. -/
def decodeResponse (body : Bytes) (out : Response D) : DecodeError × Response D :=
  decodeMessage body (fun type => !type.isResponse) decodeResponseBody Response.mk out

end BinaryCodec

end Lrd.Proto
