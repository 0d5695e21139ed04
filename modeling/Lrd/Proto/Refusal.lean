import Lrd.Proto.Unique

/-!
# What the binary decoder refuses of its own encodings

Encoders check no limits. A message that is out of its limits, but whose lengths fit into
their 32 bits, is refused when it is decoded, always with the same error and with the id of
its header (`BinaryCodec.decodeRequest_outside`, `BinaryCodec.decodeResponse_outside`). It does
not matter which limits are broken, or how many.
-/

namespace Lrd.Proto

open Foundation Rank

variable {D : Type}

/-! ## Lengths -/

/-- The lengths of the strings and lists of a signal are below a bound. -/
structure SignalBelow (bound : Nat) (signal : UserSignal D) : Prop where
  affinities : signal.affinities.length < bound
  affinityCategories : ∀ affinity ∈ signal.affinities, affinity.category.length < bound
  excluded : signal.excludedCategories.length < bound
  excludedCategories : ∀ category ∈ signal.excludedCategories, category.length < bound

theorem SignalBelow.measured {signal : UserSignal D} (below : SignalBelow (2 ^ 32) signal) :
    SignalMeasured signal :=
  ⟨below.affinities, below.affinityCategories, below.excluded, below.excludedCategories⟩

/-- The strings of an item are shorter than the bound. -/
def ItemBelow (bound : Nat) (item : Item D) : Prop :=
  item.category.length < bound ∧ item.advertiser.length < bound

/-- The lengths of the strings and lists of a request are below a bound. -/
def RequestBody.Below (bound : Nat) : RequestBody D → Prop
  | .putItem item => ItemBelow bound item
  | .recommend asked => SignalBelow bound asked.signal
  | _ => True

/-- The lengths of the strings and lists of a response are below a bound. -/
def ResponseBody.Below (bound : Nat) : ResponseBody D → Prop
  | .getItemResult _ item => ItemBelow bound item
  | .recommendResult _ items => items.length < bound ∧ ∀ ranked ∈ items,
      ranked.category.length < bound ∧ ranked.advertiser.length < bound
  | .failure _ message => message.length < bound
  | _ => True

/-- A larger bound is kept as well. -/
theorem RequestBody.Below.mono {bound larger : Nat} {body : RequestBody D}
    (below : body.Below bound) (least : bound ≤ larger) : body.Below larger := by
  cases body with
  | putItem item => exact ⟨below.1.trans_le least, below.2.trans_le least⟩
  | recommend asked =>
      exact ⟨below.affinities.trans_le least,
        fun affinity member => (below.affinityCategories affinity member).trans_le least,
        below.excluded.trans_le least,
        fun category member => (below.excludedCategories category member).trans_le least⟩
  | _ => exact trivial

variable {body : ResponseBody D}

/-- A larger bound is kept as well, by responses too. -/
theorem ResponseBody.Below.mono {bound larger : Nat} (below : body.Below bound)
    (least : bound ≤ larger) : body.Below larger := by
  cases body with
  | getItemResult status item => exact ⟨below.1.trans_le least, below.2.trans_le least⟩
  | recommendResult status items =>
      exact ⟨below.1.trans_le least, fun ranked member =>
        ⟨(below.2 ranked member).1.trans_le least, (below.2 ranked member).2.trans_le least⟩⟩
  | failure status message => exact Nat.lt_of_lt_of_le below least
  | _ => exact trivial

variable [BitCast D]

/-! ## Parsers that refuse -/

section Declines

variable {data : Bytes}

/-- A list behind its count is refused if it is too long, or if one of its values does not
fit. -/
theorem declines_counted {α : Type} {readOne : Reader data α} {print : α → Bytes}
    {valid : α → Prop} (reads : Reads (.ofReader readOne : Parser Unit data α) print valid)
    (max : UInt32) (fits : α → Bool) :
    Declines (readCounted max readOne fits) (countedBytes print) (fun values =>
      values.length < 2 ^ 32 ∧ (∀ value ∈ values, valid value) ∧
        (max.toNat < values.length ∨ ∃ value ∈ values, fits value = false)) := by
  unfold readCounted countedBytes
  refine Declines.second reads_u32 (fun values : List α => UInt32.ofNat values.length)
    (fun count => ?_) fun _ _ => trivial
  refine Declines.unlessFailed ?_ _
  by_cases exceeds : max < count
  · rw [if_pos exceeds]
    exact Declines.throw ()
  · rw [if_neg exceeds]
    refine (Declines.repeated reads fits () count.toNat).imp ?_
    intro values given
    obtain ⟨⟨measured, each, refused⟩, same⟩ := given
    have length : values.length = count.toNat := by
      rw [← same, UInt32.toNat_ofNat_of_lt' measured]
    obtain tooLong | unfit := refused
    · rw [UInt32.lt_iff_toNat_lt] at exceeds
      omega
    · exact ⟨length, each, unfit⟩

/-- Too many affinities, or one whose category is too long. -/
theorem declines_affinities :
    Declines (readSignal : Parser Unit data (UserSignal D)) signalBytes (fun signal =>
      SignalMeasured signal ∧ (kMaxAffinities.toNat < signal.affinities.length ∨
        ∃ affinity ∈ signal.affinities, kMaxCategoryLength < affinity.category.length)) := by
  refine ((declines_counted reads_affinity _ _).first _ UserSignal.affinities fun signal =>
    countedBytes stringBytes signal.excludedCategories).imp ?_
  intro signal given
  obtain ⟨measured, tooMany | ⟨affinity, member, long⟩⟩ := given
  · exact ⟨measured.affinities, measured.affinityCategories, .inl tooMany⟩
  · exact ⟨measured.affinities, measured.affinityCategories,
      .inr ⟨affinity, member, decide_eq_false (Nat.not_le.mpr long)⟩⟩

/-- Affinities within their limits, but too many exclusions or one that is too long. -/
theorem declines_excluded :
    Declines (readSignal : Parser Unit data (UserSignal D)) signalBytes (fun signal =>
      SignalMeasured signal ∧
        (signal.affinities.length ≤ kMaxAffinities.toNat ∧
          ∀ affinity ∈ signal.affinities, affinity.category.length ≤ kMaxCategoryLength) ∧
        (kMaxExcluded.toNat < signal.excludedCategories.length ∨
          ∃ category ∈ signal.excludedCategories, kMaxCategoryLength < category.length)) := by
  apply Declines.second (reads_counted reads_affinity _ _) UserSignal.affinities
  · intro affinities
    refine (((declines_counted reads_string _ _).first _ UserSignal.excludedCategories
      fun _ => []).congr fun _ => List.append_nil _).imp ?_
    intro signal given
    obtain ⟨⟨measured, _, tooMany | ⟨category, member, long⟩⟩, _⟩ := given
    · exact ⟨measured.excluded, measured.excludedCategories, .inl tooMany⟩
    · exact ⟨measured.excluded, measured.excludedCategories,
        .inr ⟨category, member, decide_eq_false (Nat.not_le.mpr long)⟩⟩
  · intro signal given
    obtain ⟨_, ⟨few, short⟩, _⟩ := given
    exact ⟨few, fun affinity member => ⟨measured_of_short_category (short affinity member),
      decide_eq_true (short affinity member)⟩⟩

/-- A signal outside the limits is turned down. -/
theorem declines_signal :
    Declines (readSignal : Parser Unit data (UserSignal D)) signalBytes
      (fun signal => SignalMeasured signal ∧ ¬ SignalWithinLimits signal) := by
  intro cursor signal later fine given split
  obtain ⟨measured, outside⟩ := given
  by_cases within : signal.affinities.length ≤ kMaxAffinities.toNat ∧
      ∀ affinity ∈ signal.affinities, affinity.category.length ≤ kMaxCategoryLength
  · apply declines_excluded cursor signal later fine ⟨measured, within, ?_⟩ split
    by_contra fine
    push Not at fine
    exact outside ⟨within.1, within.2, fine.1, fine.2⟩
  · apply declines_affinities cursor signal later fine ⟨measured, ?_⟩ split
    by_contra fine
    push Not at fine
    exact within fine

/-- A recommendation whose signal is outside the limits is turned down. -/
theorem declines_recommend :
    Declines (readRecommend : Parser Unit data (UserSignal D × UInt32 × UInt8)) recommendBytes
      (fun fields => SignalMeasured fields.1 ∧ ¬ SignalWithinLimits fields.1) := by
  refine (declines_signal.first _ Prod.fst fun fields => u32Bytes fields.2.1 ++ [fields.2.2]).congr ?_
  intro fields
  rw [recommendBytes, List.append_assoc]

end Declines

/-! ## Payloads -/

section Payload

variable {data : Bytes} {α B : Type} {print : α → Bytes} {valid turned : α → Prop}
  {cursor : Cursor data} {value : α}

/-- What the reader of the fields turns down is refused as too large. -/
theorem accepted_declined {fields : Parser Unit data α} (declines : Declines fields print turned)
    (before : B) (within : α → Bool) (body : α → B) (fine : cursor.failed = false)
    (given : turned value) (split : cursor.rest = print value) :
    (accepted before fields within body cursor).1 = (.fieldTooLarge, before) := by
  rw [← List.append_nil (print value)] at split
  obtain ⟨reason, after, run, sound⟩ := declines cursor value [] fine given split
  rw [accepted_eq, run]
  simp only [sound, Bool.false_eq_true, ↓reduceIte]

/-- What is read but outside the limits is refused as too large. -/
theorem accepted_outside {fields : Parser Unit data α} (reads : Reads fields print valid)
    (before : B) {within : α → Bool} (body : α → B) (fine : cursor.failed = false)
    (isValid : valid value) (outside : within value = false) (split : cursor.rest = print value) :
    (accepted before fields within body cursor).1 = (.fieldTooLarge, before) := by
  obtain ⟨after, run, ended⟩ := (reads.complete cursor value).mpr ⟨fine, isValid, split⟩
  have isNone := (finish_eq_none after).mpr ended
  rw [accepted_eq, run]
  simp only [isNone, outside, Bool.false_eq_true, ↓reduceIte]

/-- A request outside the limits is refused as too large, whatever its kind. -/
theorem decodeRequestBody_outside {body : RequestBody D} (below : body.Below (2 ^ 32))
    (outside : ¬ body.WithinLimits) (fine : cursor.failed = false)
    (split : cursor.rest = requestBodyBytes body) :
    (decodeRequestBody body.typeOf cursor).1 =
      (.fieldTooLarge, (defaultRequestBody : RequestBody D)) := by
  cases body with
  | putItem item =>
      exact accepted_outside reads_item _ _ fine below (Bool.eq_false_iff.mpr outside) split
  | recommend asked =>
      by_cases within : SignalWithinLimits asked.signal
      · refine accepted_outside reads_recommend _ _ fine within ?_ split
        exact decide_eq_false fun few => outside ⟨within, few⟩
      · exact accepted_declined declines_recommend _ _ _ fine
          ⟨below.measured, within⟩ split
  | _ => exact absurd trivial outside

/-- What is left of a response on the wire: an item that means nothing is not sent. -/
def ResponseBody.settled : ResponseBody D → ResponseBody D
  | .getItemResult status item => .getItemResult status (if status = .ok then item else defaultItem)
  | body => body

theorem ResponseBody.typeOf_settled (body : ResponseBody D) :
    body.settled.typeOf = body.typeOf := by
  cases body <;> rfl

theorem ResponseBody.status_settled (body : ResponseBody D) :
    body.settled.status = body.status := by
  cases body <;> rfl

/-- What settling drops is not sent. -/
theorem resultBytes_settled (body : ResponseBody D) :
    resultBytes body.settled = resultBytes body := by
  cases body with
  | getItemResult status item =>
      simp only [ResponseBody.settled, resultBytes]
      split
      · rfl
      · rfl
  | _ => rfl

/-- What is left of a response below 2^32 fits its fields. -/
theorem ResponseBody.measured_settled (below : body.Below (2 ^ 32)) :
    body.settled.Measured := by
  cases body with
  | recommendResult status items => exact below.2
  | _ => exact trivial

/-- A result outside the limits is refused as too large, whatever its kind. -/
theorem decodeResult_outside (below : body.Below (2 ^ 32)) (outside : ¬ body.settled.WithinLimits)
    (fine : cursor.failed = false) (split : cursor.rest = resultBytes body) :
    (decodeResult body.status body.typeOf cursor).1 =
      (.fieldTooLarge, (defaultResponseBody : ResponseBody D)) := by
  cases body with
  | getItemResult status item =>
      by_cases ok : status = .ok
      · simp only [ResponseBody.settled, ok, ↓reduceIte, ResponseBody.WithinLimits] at outside
        simp only [resultBytes, ok, ↓reduceIte] at split
        have large : itemWithinLimits item = false := by
          rw [Bool.eq_false_iff]
          intro within
          exact outside ⟨within, fun other => absurd rfl other⟩
        simp only [decodeResult, ResponseBody.typeOf, ResponseBody.status, ok, ↓reduceIte]
        exact accepted_outside reads_item _ _ fine below large split
      · refine absurd ?_ outside
        simp only [ResponseBody.settled, ok, ↓reduceIte]
        exact ⟨rfl, fun _ => rfl⟩
  | recommendResult status items =>
      refine accepted_declined (declines_counted reads_ranked _ _) _ _ _ fine ?_ split
      exact ⟨below.1, below.2, .inl (Nat.not_le.mp outside)⟩
  | failure status message =>
      exact accepted_outside reads_string _ _ fine below (decide_eq_false outside) split
  | _ => exact absurd trivial outside

/-- A response outside the limits is refused as too large, its status having been read. -/
theorem decodeResponseBody_outside (below : body.Below (2 ^ 32))
    (outside : ¬ body.settled.WithinLimits) (fine : cursor.failed = false)
    (split : cursor.rest = [body.status.code] ++ resultBytes body) :
    (decodeResponseBody body.typeOf cursor).1 =
      (.fieldTooLarge, (defaultResponseBody : ResponseBody D)) := by
  obtain ⟨after, run, afterFine, rest⟩ := (reads_u8 (ε := Unit)).accepts fine trivial split
  obtain ⟨sameStatus, rfl⟩ := Prod.mk.inj run
  have status : (ByteReader.u8 cursor).1 = body.status.code := Except.ok.inj sameStatus
  change (decodeResult ⟨(ByteReader.u8 cursor).1⟩ body.typeOf (ByteReader.u8 cursor).2).1 = _
  rw [status]
  exact decodeResult_outside below outside afterFine rest

end Payload

/-! ## Messages -/

/-- A message of the right direction is decoded from behind its header. -/
theorem decodeMessage_payload {B M : Type} {b : Bytes} (foreign : MessageType → Bool)
    {payload : MessageType → Reader b (DecodeError × B)} {message : UInt64 → B → M}
    {type : MessageType} (ours : foreign type = false) {requestId : UInt64} {later : Bytes}
    (split : b = headerBytes ⟨kVersion, type, 0, requestId⟩ ++ later) (out : M) :
    ∃ reader : Cursor b, reader.failed = false ∧ reader.rest = later ∧
      decodeMessage b foreign payload message out =
        ((payload type reader).1.1, message requestId (payload type reader).1.2) := by
  obtain ⟨reader, run, fine, rest⟩ :=
    reads_header.accepts (Cursor.failed_start b) ⟨rfl, rfl⟩ split
  refine ⟨reader, fine, rest, ?_⟩
  unfold decodeMessage
  simp only [run, ours, Bool.false_eq_true, ↓reduceIte]

namespace BinaryCodec

/-- A request that is out of its limits is refused for that, and its id is read. -/
theorem decodeRequest_outside {request : Request D} (below : request.body.Below (2 ^ 32))
    (outside : ¬ request.body.WithinLimits) (out : Request D) :
    decodeRequest (encodeRequest request []) out =
      (.fieldTooLarge, ⟨request.requestId, defaultRequestBody⟩) := by
  obtain ⟨reader, fine, rest, decoded⟩ := decodeMessage_payload MessageType.isResponse
    (isResponse_request request.body) (encodeRequest_eq request []) out
  rw [decodeRequest, decoded, decodeRequestBody_outside below outside fine rest]

/-- A response that is out of its limits is refused for that, and its id is read. -/
theorem decodeResponse_outside {response : Response D} (below : response.body.Below (2 ^ 32))
    (outside : ¬ response.body.settled.WithinLimits) (out : Response D) :
    decodeResponse (encodeResponse response []) out =
      (.fieldTooLarge, ⟨response.requestId, defaultResponseBody⟩) := by
  obtain ⟨reader, fine, rest, decoded⟩ := decodeMessage_payload (fun type => !type.isResponse)
    (not_isResponse_response response.body) (encodeResponse_eq response []) out
  rw [decodeResponse, decoded, decodeResponseBody_outside below outside fine rest]

/-- A response within its limits is decoded, up to an item that means nothing. -/
theorem decodeResponse_settled {response : Response D} (below : response.body.Below (2 ^ 32))
    (within : response.body.settled.WithinLimits) (out : Response D) :
    decodeResponse (encodeResponse response []) out =
      (.none, ⟨response.requestId, response.body.settled⟩) := by
  refine (decodeResponse_iff ..).mpr ⟨within, ResponseBody.measured_settled below, ?_⟩
  simp only [encodeResponse_eq, responseHeader, ResponseBody.typeOf_settled,
    ResponseBody.status_settled, resultBytes_settled]

end BinaryCodec

end Lrd.Proto
