import Lrd.Proto.Refusal

/-!
# Truncated bodies and trailing bytes

What the decoders make of a body that is cut short or that goes on. A failed read returns
zeros and empty strings and decoding carries on with them: through counted loops, and past a
status whose byte is missing and which then counts as `Ok`. Still every cut is noticed. The
readers do not look ahead (`Online`), so on a shorter input they run out where they would
have read on, and each decoder looks at the failure flag before it reports anything else.
-/

namespace Lrd.Proto

open Foundation Rank

variable {D : Type} [BitCast D]

/-! ## Readers do not look ahead -/

section Online

variable {ε : Type}

theorem online_u8 : Online fun data => (.ofReader ByteReader.u8 : Parser ε data UInt8) :=
  .fetch ..

theorem online_u16 : Online fun data => (.ofReader ByteReader.u16 : Parser ε data UInt16) :=
  .fetch ..

theorem online_u32 : Online fun data => (.ofReader ByteReader.u32 : Parser ε data UInt32) :=
  .fetch ..

theorem online_u64 : Online fun data => (.ofReader ByteReader.u64 : Parser ε data UInt64) :=
  .fetch ..

/-- Reading a string looks at no more than it consumes. -/
theorem online_string : Online fun data => (.ofReader ByteReader.string : Parser ε data Bytes) := by
  apply Online.read online_u32
  intro length
  simp only [Parser.ofReader_bind, Parser.ofReader_ite]
  exact Online.unlessFailed (.fetch length.toNat [] id) fun _ _ => rfl

theorem online_item : Online fun data => (.ofReader readItem : Parser ε data (Item D)) :=
  online_u64.read fun _ => online_string.read fun _ => online_string.read fun _ =>
    online_u64.read fun _ => online_u64.read fun _ => online_u64.read fun _ => .pure _

theorem online_affinity :
    Online fun data => (.ofReader readAffinity : Parser ε data (CategoryAffinity D)) :=
  online_string.read fun _ => online_u64.read fun _ => .pure _

/-- Reading an entry of a slate looks at no more than it consumes. -/
theorem online_ranked :
    Online fun data => (.ofReader readRanked : Parser ε data (RankedItem D)) :=
  online_u64.read fun _ => online_u64.read fun _ => online_string.read fun _ =>
    online_string.read fun _ => .pure _

/-- Reading the counters looks at no more than it consumes. -/
theorem online_stats : Online fun data => (.ofReader readStats : Parser ε data Stats) :=
  online_u64.read fun _ => online_u64.read fun _ => online_u64.read fun _ =>
    online_u64.read fun _ => online_u64.read fun _ => online_u64.read fun _ =>
    online_u64.read fun _ => online_u64.read fun _ => online_u64.read fun _ =>
    online_u64.read fun _ => online_u64.read fun _ => online_u64.read fun _ =>
    online_u64.read fun _ => online_u64.read fun _ => online_u64.read fun _ => .pure _

/-- Reading a list with its number in front looks at no more than it consumes. -/
theorem online_counted {α : Type} {readOne : (data : Bytes) → Reader data α}
    (online : Online fun data => (.ofReader (readOne data) : Parser Unit data α)) (max : UInt32)
    (fits : α → Bool) : Online fun data => readCounted max (readOne data) fits := by
  apply online_u32.bind
  intro count
  apply Online.unlessFailed _ fun _ _ => rfl
  by_cases exceeds : max < count
  · simp only [exceeds, ↓reduceIte]
    exact .throw ()
  · simp only [exceeds, ↓reduceIte]
    exact online.repeated fits () count.toNat

theorem online_signal : Online fun data => (readSignal : Parser Unit data (UserSignal D)) :=
  (online_counted online_affinity ..).bind fun _ =>
    (online_counted online_string ..).bind fun _ => .pure _

theorem online_recommend :
    Online fun data => (readRecommend : Parser Unit data (UserSignal D × UInt32 × UInt8)) :=
  online_signal.bind fun _ => online_u32.bind fun _ => online_u8.bind fun _ => .pure _

/-- Reading a header looks at no more than it consumes. -/
theorem online_header : Online fun data => (decodeHeader : Parser DecodeError data Header) := by
  apply online_u32.bind
  intro magic
  apply Online.unlessFailed _ fun _ _ => rfl
  by_cases foreign : magic ≠ kMagic
  · simp only [if_pos foreign]
    exact .throw _
  simp only [if_neg foreign]
  apply online_u8.bind
  intro version
  apply online_u8.bind
  intro rawType
  apply online_u16.bind
  intro flags
  apply online_u64.bind
  intro requestId
  apply Online.unlessFailed _ fun _ _ => rfl
  by_cases skewed : version ≠ kVersion
  · simp only [if_pos skewed]
    exact .throw _
  simp only [if_neg skewed]
  by_cases reserved : flags ≠ 0
  · simp only [if_pos reserved]
    exact .throw _
  simp only [if_neg reserved]
  cases MessageType.ofCode rawType with
  | none => exact .throw _
  | some type => exact .pure _

/-- The item of a `GetItemResult`, which is sent only if its status is `Ok`. -/
theorem online_result (status : StatusCode) : Online fun data =>
    (.ofReader (if status = .ok then readItem else pure defaultItem) : Parser ε data (Item D)) := by
  by_cases ok : status = .ok
  · simp only [if_pos ok]
    exact online_item
  · simp only [if_neg ok]
    exact .pure defaultItem

end Online

/-- The item of a result is read back, or is left out with any other status. -/
theorem reads_result {ε : Type} {data : Bytes} (status : StatusCode) :
    Reads (.ofReader (if status = .ok then readItem else pure defaultItem) : Parser ε data (Item D))
      (fun item => if status = .ok then itemBytes item else [])
      (fun item => (item.category.length < 2 ^ 32 ∧ item.advertiser.length < 2 ^ 32) ∧
        (status ≠ .ok → item = defaultItem)) := by
  by_cases ok : status = .ok
  · simp only [if_pos ok]
    apply reads_item.congr (fun _ => rfl)
    intro item
    simp only [ne_eq, ok, not_true_eq_false, false_implies, and_true]
  · simp only [if_neg ok]
    apply (reads_nothing defaultItem).congr (fun _ => rfl)
    intro item
    constructor
    · intro same
      subst same
      exact ⟨⟨Nat.two_pow_pos 32, Nat.two_pow_pos 32⟩, fun _ => rfl⟩
    · intro given
      exact given.2 ok

/-- A header that is cut short is reported as such. -/
theorem header_reports {data : Bytes} :
    (decodeHeader : Parser DecodeError data Header).Reports .truncated := by
  apply Parser.Reports.bind
  intro magic
  apply Parser.Reports.unlessFailed
  intro cursor after result sound run failed
  by_cases foreign : magic ≠ kMagic
  · rw [if_pos foreign] at run
    cases run
    rw [sound] at failed
    cases failed
  rw [if_neg foreign] at run
  refine Parser.Reports.bind _ (fun version => Parser.Reports.bind _ fun rawType =>
    Parser.Reports.bind _ fun flags => Parser.Reports.bind _ fun requestId =>
    Parser.Reports.unlessFailed ?_) cursor after result run failed
  -- What is left looks at the fields only.
  intro place final outcome fine ran stuck
  have same : final = place := by
    split at ran
    · cases ran
      rfl
    split at ran
    · cases ran
      rfl
    split at ran
    · cases ran
      rfl
    · cases ran
      rfl
  rw [same, fine] at stuck
  cases stuck

/-! ## Payloads -/

variable {extra : Bytes} {body : ResponseBody D}

section Payload

variable {α B : Type} {print : α → Bytes} {valid : α → Prop} {value : α}

section Flagged

variable {data : Bytes} {cursor : Cursor data}

theorem finish_flagged (failed : cursor.failed = true) : (finish cursor).1 = .truncated := by
  simp only [finish, failed, ↓reduceIte]

/-- Bytes that are left are trailing. -/
theorem finish_trailing (fine : cursor.failed = false) (left : cursor.rest ≠ []) :
    (finish cursor).1 = .trailingBytes := by
  have more : cursor.exhausted = false := by
    rw [← Bool.not_eq_true, Cursor.exhausted_iff]
    exact left
  simp only [finish, fine, more, Bool.false_eq_true, ↓reduceIte, Bool.not_false]

/-- Running out of input is what a body is refused for, whatever its fields came to. -/
theorem assigned_flagged {fields : Reader data α} (body : α → B)
    (failed : (fields cursor).2.failed = true) :
    (assigned fields body cursor).1.1 = .truncated :=
  finish_flagged failed

/-- If the fields were cut off the body was truncated, whatever was read of them. -/
theorem accepted_flagged (before : B) {fields : Parser Unit data α} (within : α → Bool)
    (body : α → B) (failed : (fields.run cursor).2.failed = true) :
    (accepted before fields within body cursor).1.1 = .truncated := by
  rw [accepted_eq]
  rcases run : fields.run cursor with ⟨reason | found, after⟩
  · rw [run] at failed
    simp only at failed
    simp only [failed, ↓reduceIte]
  · rw [run] at failed
    simp only [finish_flagged failed]

/-- What follows the fields of an assigned body is trailing. -/
theorem assigned_trailing {fields : Reader data α}
    (reads : Reads (.ofReader fields : Parser Unit data α) print valid) (body : α → B)
    (fine : cursor.failed = false) (isValid : valid value) (goesOn : extra ≠ [])
    (split : cursor.rest = print value ++ extra) :
    (assigned fields body cursor).1.1 = .trailingBytes := by
  obtain ⟨after, run, sound, rest⟩ := reads.accepts fine isValid split
  obtain ⟨_, rfl⟩ := Prod.mk.inj run
  exact finish_trailing sound (rest ▸ goesOn)

/-- What follows the fields of a checked body is trailing, whether they keep the limits or not. -/
theorem accepted_trailing {fields : Parser Unit data α} (reads : Reads fields print valid)
    (before : B) (within : α → Bool) (body : α → B) (fine : cursor.failed = false)
    (isValid : valid value) (goesOn : extra ≠ []) (split : cursor.rest = print value ++ extra) :
    (accepted before fields within body cursor).1.1 = .trailingBytes := by
  obtain ⟨after, run, sound, rest⟩ := reads.accepts fine isValid split
  rw [accepted_eq, run]
  simp only [finish_trailing sound (rest ▸ goesOn)]

end Flagged

variable {front more : Bytes} {cursor : Cursor front}

/-- Fields of which a part is missing run out of input. -/
theorem runsOut_of_reads {fields : (data : Bytes) → Parser Unit data α} (online : Online fields)
    (reads : ∀ data, Reads (fields data) print valid) (cut : more ≠ [])
    (fine : cursor.failed = false) (isValid : valid value)
    (split : cursor.rest ++ more = print value) :
    ((fields front).run cursor).2.failed = true := by
  rw [← Cursor.rest_extend, ← List.append_nil (print value)] at split
  have sound : (cursor.extend more).failed = false := fine
  obtain ⟨after, run, _, ended⟩ := (reads _).accepts sound isValid split
  exact online.runsOut cut run ended

/-- The arguments of a request, cut off anywhere. -/
theorem decodeRequestBody_truncated {body : RequestBody D} (within : body.WithinLimits)
    (cut : more ≠ []) (fine : cursor.failed = false)
    (split : cursor.rest ++ more = requestBodyBytes body) :
    (decodeRequestBody body.typeOf cursor : (DecodeError × RequestBody D) × _).1.1 =
      .truncated := by
  cases body with
  | getItem itemId =>
      exact assigned_flagged _ (runsOut_of_reads online_u64 (fun _ => reads_u64) cut fine trivial split)
  | putItem item =>
      exact accepted_flagged _ _ _ (runsOut_of_reads online_item (fun _ => reads_item) cut fine
        (measured_of_withinLimits within) split)
  | deleteItem itemId =>
      exact assigned_flagged _ (runsOut_of_reads online_u64 (fun _ => reads_u64) cut fine trivial split)
  | getStats => exact absurd (List.append_eq_nil_iff.mp split).2 cut
  | recommend asked =>
      exact accepted_flagged _ _ _ (runsOut_of_reads online_recommend (fun _ => reads_recommend)
        cut fine within.1 split)

/-- The arguments of a request with something behind them. -/
theorem decodeRequestBody_trailing {data : Bytes} {cursor : Cursor data} {body : RequestBody D}
    (within : body.WithinLimits) (fine : cursor.failed = false) (goesOn : extra ≠ [])
    (split : cursor.rest = requestBodyBytes body ++ extra) :
    (decodeRequestBody body.typeOf cursor : (DecodeError × RequestBody D) × _).1.1 =
      .trailingBytes := by
  cases body with
  | getItem itemId => exact assigned_trailing reads_u64 _ fine trivial goesOn split
  | putItem item =>
      exact accepted_trailing reads_item _ _ _ fine (measured_of_withinLimits within) goesOn split
  | deleteItem itemId => exact assigned_trailing reads_u64 _ fine trivial goesOn split
  | getStats => exact assigned_trailing (reads_nothing ()) _ fine rfl goesOn split
  | recommend asked => exact accepted_trailing reads_recommend _ _ _ fine within.1 goesOn split

/-- Nothing but the missing input is reported of a result that is read after a failure. -/
theorem decodeResult_failed {data : Bytes} {cursor : Cursor data} (failed : cursor.failed = true)
    (status : StatusCode) (body : ResponseBody D) :
    (decodeResult status body.typeOf cursor : (DecodeError × ResponseBody D) × _).1.1 =
      .truncated := by
  cases body with
  | getItemResult _ item =>
      exact accepted_flagged _ _ _ ((online_result (ε := Unit) status).sticky rfl failed)
  | putItemResult _ => exact assigned_flagged _ failed
  | deleteItemResult _ => exact assigned_flagged _ failed
  | statsResult _ stats => exact assigned_flagged _ ((online_stats (ε := Unit)).sticky rfl failed)
  | recommendResult _ items =>
      exact accepted_flagged _ _ _ ((online_counted online_ranked _ _).sticky rfl failed)
  | failure _ message =>
      exact accepted_flagged _ _ _ ((online_string (ε := Unit)).sticky rfl failed)

/-- A result that is cut off anywhere. -/
theorem decodeResult_truncated (within : body.WithinLimits) (measured : body.Measured)
    (cut : more ≠ []) (fine : cursor.failed = false)
    (split : cursor.rest ++ more = resultBytes body) :
    (decodeResult body.status body.typeOf cursor : (DecodeError × ResponseBody D) × _).1.1 =
      .truncated := by
  cases body with
  | getItemResult status item =>
      exact accepted_flagged _ _ _ (runsOut_of_reads (online_result status)
        (fun _ => reads_result status) cut fine ⟨measured_of_withinLimits within.1, within.2⟩ split)
  | putItemResult status => exact absurd (List.append_eq_nil_iff.mp split).2 cut
  | deleteItemResult status => exact absurd (List.append_eq_nil_iff.mp split).2 cut
  | statsResult status stats =>
      exact assigned_flagged _ (runsOut_of_reads online_stats (fun _ => reads_stats) cut fine
        trivial split)
  | recommendResult status items =>
      exact accepted_flagged _ _ _ (runsOut_of_reads (online_counted online_ranked _ _)
        (fun _ => reads_counted reads_ranked _ _) cut fine
        ⟨within, fun ranked member => ⟨measured ranked member, rfl⟩⟩ split)
  | failure status message =>
      exact accepted_flagged _ _ _ (runsOut_of_reads online_string (fun _ => reads_string) cut fine
        (Nat.lt_of_le_of_lt within (by decide)) split)

/-- A result with something behind it. -/
theorem decodeResult_trailing {data : Bytes} {cursor : Cursor data} (within : body.WithinLimits)
    (measured : body.Measured) (fine : cursor.failed = false) (goesOn : extra ≠ [])
    (split : cursor.rest = resultBytes body ++ extra) :
    (decodeResult body.status body.typeOf cursor : (DecodeError × ResponseBody D) × _).1.1 =
      .trailingBytes := by
  cases body with
  | getItemResult status item =>
      exact accepted_trailing (reads_result status) _ _ _ fine
        ⟨measured_of_withinLimits within.1, within.2⟩ goesOn split
  | putItemResult status => exact assigned_trailing (reads_nothing ()) _ fine rfl goesOn split
  | deleteItemResult status => exact assigned_trailing (reads_nothing ()) _ fine rfl goesOn split
  | statsResult status stats => exact assigned_trailing reads_stats _ fine trivial goesOn split
  | recommendResult status items =>
      exact accepted_trailing (reads_counted reads_ranked _ _) _ _ _ fine
        ⟨within, fun ranked member => ⟨measured ranked member, rfl⟩⟩ goesOn split
  | failure status message =>
      exact accepted_trailing reads_string _ _ _ fine
        (Nat.lt_of_le_of_lt within (by decide)) goesOn split

/-- A status whose byte is missing counts as `Ok`, but the failure stays. -/
theorem decodeResponseBody_truncated (within : body.WithinLimits) (measured : body.Measured)
    (cut : more ≠ []) (fine : cursor.failed = false)
    (split : cursor.rest ++ more = [body.status.code] ++ resultBytes body) :
    (decodeResponseBody body.typeOf cursor : (DecodeError × ResponseBody D) × _).1.1 =
      .truncated := by
  change (decodeResult ⟨(ByteReader.u8 cursor).1⟩ body.typeOf (ByteReader.u8 cursor).2).1.1 = _
  cases left : cursor.rest with
  | nil =>
      apply decodeResult_failed
      have short : cursor.rest.length < 1 := by
        rw [left]
        exact Nat.one_pos
      rw [ByteReader.u8, Cursor.fetch_short _ _ fine short]
  | cons first rest =>
      rw [left] at split
      obtain ⟨rfl, later⟩ := List.cons.inj split
      obtain ⟨after, run, afterFine, afterRest⟩ :=
        (reads_u8 (ε := Unit)).accepts fine trivial left
      obtain ⟨sameStatus, rfl⟩ := Prod.mk.inj run
      rw [show (ByteReader.u8 cursor).1 = body.status.code from Except.ok.inj sameStatus]
      apply decodeResult_truncated within measured cut afterFine
      rw [afterRest]
      exact later

/-- A response with something behind it, its status having been read. -/
theorem decodeResponseBody_trailing {data : Bytes} {cursor : Cursor data}
    (within : body.WithinLimits) (measured : body.Measured) (fine : cursor.failed = false)
    (goesOn : extra ≠ []) (split : cursor.rest = [body.status.code] ++ resultBytes body ++ extra) :
    (decodeResponseBody body.typeOf cursor : (DecodeError × ResponseBody D) × _).1.1 =
      .trailingBytes := by
  rw [List.append_assoc] at split
  obtain ⟨after, run, afterFine, rest⟩ := (reads_u8 (ε := Unit)).accepts fine trivial split
  obtain ⟨sameStatus, rfl⟩ := Prod.mk.inj run
  change (decodeResult ⟨(ByteReader.u8 cursor).1⟩ body.typeOf (ByteReader.u8 cursor).2).1.1 = _
  rw [show (ByteReader.u8 cursor).1 = body.status.code from Except.ok.inj sameStatus]
  exact decodeResult_trailing within measured afterFine goesOn rest

end Payload

/-! ## Messages -/

/-- A message that is cut short is refused for that, if its payload is behind its header. -/
theorem decodeMessage_truncated {B M : Type} (foreign : MessageType → Bool)
    {payload : (data : Bytes) → MessageType → Reader data (DecodeError × B)}
    (message : UInt64 → B → M) {type : MessageType} (ours : foreign type = false)
    {requestId : UInt64} {front more later : Bytes}
    (split : front ++ more = headerBytes ⟨kVersion, type, 0, requestId⟩ ++ later)
    (noticed : ∀ cursor : Cursor front, cursor.failed = false → cursor.rest ++ more = later →
      (payload front type cursor).1.1 = .truncated) (out : M) :
    (decodeMessage front foreign (payload front) message out).1 = .truncated := by
  unfold decodeMessage
  rcases short : decodeHeader.run (Cursor.start front) with ⟨result, after⟩
  cases failed : after.failed with
  | true =>
      obtain rfl := header_reports _ _ _ short failed
      rfl
  | false =>
      obtain ⟨reader, run, _, rest⟩ :=
        reads_header.accepts (Cursor.failed_start (front ++ more)) ⟨rfl, rfl⟩ split
      have same := run.symm.trans (online_header.stable short failed more)
      obtain ⟨rfl, rfl⟩ := Prod.mk.inj same
      rw [Cursor.rest_extend] at rest
      simp only [ours, Bool.false_eq_true, ↓reduceIte]
      exact noticed after failed rest

namespace BinaryCodec

/-- A request that is cut off anywhere is truncated. -/
theorem decodeRequest_truncated {request : Request D} (within : request.body.WithinLimits)
    {front more : Bytes} (split : encodeRequest request [] = front ++ more) (cut : more ≠ [])
    (out : Request D) : (decodeRequest front out).1 = .truncated := by
  rw [encodeRequest_eq, List.nil_append] at split
  refine decodeMessage_truncated _ _ (isResponse_request request.body) split.symm ?_ out
  intro cursor fine rest
  exact decodeRequestBody_truncated within cut fine rest

/-- A request with something behind it has trailing bytes. -/
theorem decodeRequest_trailing {request : Request D} (within : request.body.WithinLimits)
    (goesOn : extra ≠ []) (out : Request D) :
    (decodeRequest (encodeRequest request [] ++ extra) out).1 = .trailingBytes := by
  have split : encodeRequest request [] ++ extra =
      headerBytes (requestHeader request) ++ (requestBodyBytes request.body ++ extra) := by
    rw [encodeRequest_eq, List.nil_append, List.append_assoc]
  obtain ⟨reader, fine, rest, decoded⟩ := decodeMessage_payload MessageType.isResponse
    (isResponse_request request.body) split out
  rw [decodeRequest, decoded]
  exact decodeRequestBody_trailing within fine goesOn rest

/-- A response that is cut off anywhere is truncated. -/
theorem decodeResponse_truncated {response : Response D} (within : response.body.WithinLimits)
    (measured : response.body.Measured) {front more : Bytes}
    (split : encodeResponse response [] = front ++ more) (cut : more ≠ []) (out : Response D) :
    (decodeResponse front out).1 = .truncated := by
  rw [encodeResponse_eq, List.nil_append] at split
  refine decodeMessage_truncated _ _ (not_isResponse_response response.body) split.symm ?_ out
  intro cursor fine rest
  exact decodeResponseBody_truncated within measured cut fine rest

/-- A response with something behind it has trailing bytes. -/
theorem decodeResponse_trailing {response : Response D} (within : response.body.WithinLimits)
    (measured : response.body.Measured) (goesOn : extra ≠ []) (out : Response D) :
    (decodeResponse (encodeResponse response [] ++ extra) out).1 = .trailingBytes := by
  have split : encodeResponse response [] ++ extra = headerBytes (responseHeader response) ++
      ([response.body.status.code] ++ resultBytes response.body ++ extra) := by
    rw [encodeResponse_eq, List.nil_append, List.append_assoc]
  obtain ⟨reader, fine, rest, decoded⟩ := decodeMessage_payload (fun type => !type.isResponse)
    (not_isResponse_response response.body) split out
  rw [decodeResponse, decoded]
  exact decodeResponseBody_trailing within measured fine goesOn rest

/-- Truncation and trailing bytes are told apart from everything else. A proper front part of
the encoding of a message within the limits is refused as truncated, wherever it is cut, and
an encoding that goes on is refused for its trailing bytes. -/
theorem truncation_named :
    (∀ request : Request D, request.body.WithinLimits → ∀ out : Request D,
      (∀ front more, encodeRequest request [] = front ++ more → more ≠ [] →
        (decodeRequest front out).1 = .truncated) ∧
      ∀ extra, extra ≠ [] →
        (decodeRequest (encodeRequest request [] ++ extra) out).1 = .trailingBytes) ∧
    ∀ response : Response D, response.body.WithinLimits → response.body.Measured →
      ∀ out : Response D,
        (∀ front more, encodeResponse response [] = front ++ more → more ≠ [] →
          (decodeResponse front out).1 = .truncated) ∧
        ∀ extra, extra ≠ [] →
          (decodeResponse (encodeResponse response [] ++ extra) out).1 = .trailingBytes := by
  constructor
  · intro request within out
    exact ⟨fun front more split cut => decodeRequest_truncated within split cut out,
      fun extra goesOn => decodeRequest_trailing within goesOn out⟩
  · intro response within measured out
    exact ⟨fun front more split cut => decodeResponse_truncated within measured split cut out,
      fun extra goesOn => decodeResponse_trailing within measured goesOn out⟩

/-- The strings of `slateOfOne` fit their lengths. -/
theorem slateOfOne_measured : slateOfOne.body.Measured := by
  intro ranked member
  rw [List.mem_singleton.mp member]
  decide

theorem truncation_named_preview :
    (decodeRequest ((encodeRequest preview []).take 20) preview).1 = .truncated ∧
      (decodeResponse (encodeResponse slateOfOne [] ++ [0]) slateOfOne).1 = .trailingBytes := by
  have few : slateOfOne.body.WithinLimits := by
    change _ ≤ _
    decide
  constructor
  · exact (truncation_named.1 preview preview_withinLimits preview).1 _ _
      (List.take_append_drop 20 _).symm (by decide +kernel)
  · exact (truncation_named.2 slateOfOne few slateOfOne_measured slateOfOne).2 [0] (by decide)

end BinaryCodec

end Lrd.Proto
