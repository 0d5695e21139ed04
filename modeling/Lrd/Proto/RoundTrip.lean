import Lrd.Proto.Grammar

/-!
# What the binary decoder accepts

A body is accepted exactly if it is the encoding of a message within the limits, up
to the byte of a request's `dry_run` flag, and then that message is what is decoded.
Encoding and decoding are therefore inverse to each other, and no body is both a
request and a response.
-/

namespace Lrd.Proto

open Foundation Rank

variable {D : Type} [BitCast D]

/-! ## Payloads -/

section Payload

variable {data : Bytes} {α B : Type} {print : α → Bytes} {valid : α → Prop}

/-- The decoder accepts with a body exactly if nothing has failed and what is left of
the input belongs to the body. -/
def Decodes (reader : Reader data (DecodeError × B)) (language : B → Bytes → Prop) : Prop :=
  ∀ cursor body,
    (reader cursor).1 = (.none, body) ↔ cursor.failed = false ∧ language body cursor.rest

/-- The language of a decoder may be written in another way. -/
theorem Decodes.congr {reader : Reader data (DecodeError × B)} {language language' : B → Bytes → Prop}
    (decodes : Decodes reader language)
    (same : ∀ body bytes, language body bytes ↔ language' body bytes) :
    Decodes reader language' := by
  intro cursor body
  rw [decodes cursor body, same]

/-- Decoding ends well exactly if everything was there and everything was read. -/
theorem finish_eq_none (cursor : Cursor data) :
    (finish cursor).1 = .none ↔ cursor.failed = false ∧ cursor.rest = [] := by
  rw [← Cursor.exhausted_iff, finish]
  cases failed : cursor.failed with
  | true => simp
  | false => cases ended : cursor.exhausted <;> simp

/-- A body that is assigned as it is read: the decoder accepts what is printed and nothing else.
-/
theorem decodes_assigned {fields : Reader data α}
    (reads : Reads (.ofReader fields : Parser Unit data α) print valid) (body : α → B) :
    Decodes (assigned fields body)
      (fun result bytes => ∃ value, result = body value ∧ valid value ∧ bytes = print value) := by
  intro cursor result
  change ((finish (fields cursor).2).1, body (fields cursor).1) = (.none, result) ↔ _
  rw [Prod.mk.injEq, finish_eq_none]
  constructor
  · intro given
    obtain ⟨⟨fine, empty⟩, rfl⟩ := given
    obtain ⟨sound, isValid, split⟩ := (reads.complete cursor _).mp ⟨_, rfl, fine, empty⟩
    exact ⟨sound, _, rfl, isValid, split⟩
  · intro given
    obtain ⟨sound, value, rfl, isValid, split⟩ := given
    obtain ⟨after, run, fine, empty⟩ := (reads.complete cursor value).mpr ⟨sound, isValid, split⟩
    obtain ⟨sameValue, rfl⟩ := Prod.mk.inj run
    rw [Except.ok.inj sameValue]
    exact ⟨⟨fine, empty⟩, rfl⟩

/-- What `accepted` comes to, by what the reader of the fields comes to. -/
theorem accepted_eq (before : B) (fields : Parser Unit data α) (within : α → Bool)
    (body : α → B) (cursor : Cursor data) :
    (accepted before fields within body cursor).1 =
      match fields.run cursor with
      | (.error _, after) => (if after.failed then .truncated else .fieldTooLarge, before)
      | (.ok value, after) =>
          match (finish after).1 with
          | .none => if within value then (.none, body value) else (.fieldTooLarge, before)
          | error => (error, before) := by
  unfold accepted
  change (StateT.bind fields.run _ cursor).1 = _
  simp only [StateT.bind]
  rcases fields.run cursor with ⟨_ | value, after⟩
  · rfl
  · change (StateT.bind finish _ after).1 = _
    simp only [StateT.bind]
    rcases finish after with ⟨_ | _, _⟩ <;> rfl

/-- A body that is checked before it is assigned: the decoder accepts what is printed within the
limits. -/
theorem decodes_accepted {fields : Parser Unit data α} (reads : Reads fields print valid)
    (before : B) (within : α → Bool) (body : α → B) :
    Decodes (accepted before fields within body) (fun result bytes =>
      ∃ value, result = body value ∧ (valid value ∧ within value = true) ∧
        bytes = print value) := by
  intro cursor result
  rw [accepted_eq]
  constructor
  · intro isNone
    rcases run : fields.run cursor with ⟨reason | value, after⟩
    · rw [run] at isNone
      simp only at isNone
      split at isNone <;> cases isNone
    · rw [run] at isNone
      simp only at isNone
      have ended : (finish after).1 = .none := by
        split at isNone
        · assumption
        · exact congrArg Prod.fst isNone
      simp only [ended] at isNone
      split at isNone
      · rename_i fits
        cases isNone
        obtain ⟨sound, isValid, split⟩ :=
          (reads.complete cursor value).mp ⟨after, run, (finish_eq_none after).mp ended⟩
        exact ⟨sound, value, rfl, ⟨isValid, fits⟩, split⟩
      · cases isNone
  · intro given
    obtain ⟨sound, value, rfl, ⟨isValid, fits⟩, split⟩ := given
    obtain ⟨after, run, ended⟩ := (reads.complete cursor value).mpr ⟨sound, isValid, split⟩
    have isNone := (finish_eq_none after).mpr ended
    simp only [run, isNone, fits, ↓reduceIte]

/-- A decoder behind a field accepts the field's bytes and what the decoder of its value accepts.
-/
theorem Decodes.bind {first : Reader data α} {next : α → Reader data (DecodeError × B)}
    {language : α → B → Bytes → Prop}
    (reads : Reads (.ofReader first : Parser Unit data α) print valid)
    (decodes : ∀ value, Decodes (next value) (language value)) :
    Decodes (do next (← first)) (fun body bytes =>
      ∃ value later, valid value ∧ bytes = print value ++ later ∧ language value body later) := by
  intro cursor body
  change (next (first cursor).1 (first cursor).2).1 = (.none, body) ↔ _
  rw [decodes]
  constructor
  · intro given
    obtain ⟨fine, belongs⟩ := given
    obtain ⟨isValid, split⟩ := reads.inverts rfl fine
    exact ⟨reads.sound rfl fine, _, _, isValid, split, belongs⟩
  · intro given
    obtain ⟨sound, value, later, isValid, split, belongs⟩ := given
    obtain ⟨after, run, fine, rest⟩ := reads.accepts sound isValid split
    obtain ⟨sameValue, rfl⟩ := Prod.mk.inj run
    rw [Except.ok.inj sameValue, rest]
    exact ⟨fine, belongs⟩

/-- A decoder that returns an error accepts nothing. -/
theorem decodes_never {error : DecodeError} (isError : error ≠ .none) (before : B)
    {language : B → Bytes → Prop} (none : ∀ body bytes, ¬ language body bytes) :
    Decodes (pure (error, before) : Reader data (DecodeError × B)) language := by
  intro cursor body
  constructor
  · intro same
    exact absurd (congrArg Prod.fst same) isError
  · intro given
    obtain ⟨_, belongs⟩ := given
    exact absurd belongs (none body cursor.rest)

/-- The bytes stand for the body of a request. Any non-zero byte sets `dry_run`. -/
def SpellsBody : RequestBody D → Bytes → Prop
  | .recommend asked, bytes =>
      ∃ flag : UInt8, (flag != 0) = asked.dryRun ∧
        bytes = recommendBytes (asked.signal, asked.count, flag)
  | body, bytes => bytes = requestBodyBytes body

/-- What the decoder of arguments accepts, for every type of request. -/
theorem decodes_requestBody (type : MessageType) :
    Decodes (decodeRequestBody type : Reader data (DecodeError × RequestBody D))
      (fun body bytes => body.typeOf = type ∧ body.WithinLimits ∧ SpellsBody body bytes) := by
  cases type with
  | getItemRequest | deleteItemRequest =>
      refine (decodes_assigned reads_u64 _).congr fun body bytes => ⟨?_, ?_⟩
      · intro given
        obtain ⟨itemId, rfl, _, rfl⟩ := given
        exact ⟨rfl, trivial, rfl⟩
      · intro given
        obtain ⟨isType, _, spelled⟩ := given
        cases body <;> cases isType
        exact ⟨_, rfl, trivial, spelled⟩
  | putItemRequest =>
      refine (decodes_accepted reads_item _ _ _).congr fun body bytes => ⟨?_, ?_⟩
      · intro given
        obtain ⟨item, rfl, ⟨_, within⟩, rfl⟩ := given
        exact ⟨rfl, within, rfl⟩
      · intro given
        obtain ⟨isType, within, spelled⟩ := given
        cases body <;> cases isType
        exact ⟨_, rfl, ⟨measured_of_withinLimits within, within⟩, spelled⟩
  | statsRequest =>
      refine (decodes_assigned (reads_nothing ()) _).congr fun body bytes => ⟨?_, ?_⟩
      · intro given
        obtain ⟨_, rfl, _, rfl⟩ := given
        exact ⟨rfl, trivial, rfl⟩
      · intro given
        obtain ⟨isType, _, spelled⟩ := given
        cases body <;> cases isType
        exact ⟨_, rfl, rfl, spelled⟩
  | recommendRequest =>
      refine (decodes_accepted reads_recommend _ _ _).congr fun body bytes => ⟨?_, ?_⟩
      · intro given
        obtain ⟨⟨signal, count, flag⟩, rfl, ⟨limits, few⟩, rfl⟩ := given
        exact ⟨rfl, ⟨limits, of_decide_eq_true few⟩, flag, rfl, rfl⟩
      · intro given
        obtain ⟨isType, within, spelled⟩ := given
        cases body <;> cases isType
        obtain ⟨flag, set, rfl⟩ := spelled
        refine ⟨_, ?_, ⟨within.1, decide_eq_true within.2⟩, rfl⟩
        rw [set]
  | _ =>
      apply decodes_never (by decide) _
      intro body bytes given
      obtain ⟨isType, _⟩ := given
      cases body <;> cases isType

/-- What the decoder of a result accepts, for every type of response. -/
theorem decodes_result (status : StatusCode) (type : MessageType) :
    Decodes (decodeResult status type : Reader data (DecodeError × ResponseBody D))
      (fun body bytes => body.typeOf = type ∧ body.status = status ∧ body.WithinLimits ∧
        body.Measured ∧ bytes = resultBytes body) := by
  cases type with
  | getItemResponse =>
      unfold decodeResult
      by_cases ok : status = .ok
      · rw [if_pos ok]
        refine (decodes_accepted reads_item _ _ _).congr fun body bytes => ⟨?_, ?_⟩
        · intro given
          obtain ⟨item, rfl, ⟨_, within⟩, rfl⟩ := given
          exact ⟨rfl, rfl, ⟨within, fun other => absurd ok other⟩, trivial, (if_pos ok).symm⟩
        · intro given
          obtain ⟨isType, rfl, within, _, spelled⟩ := given
          cases body <;> cases isType
          exact ⟨_, rfl, ⟨measured_of_withinLimits within.1, within.1⟩,
            spelled.trans (if_pos ok)⟩
      · rw [if_neg ok]
        refine (decodes_accepted (reads_nothing defaultItem) _ _ _).congr
          fun body bytes => ⟨?_, ?_⟩
        · intro given
          obtain ⟨item, rfl, ⟨rfl, within⟩, rfl⟩ := given
          exact ⟨rfl, rfl, ⟨within, fun _ => rfl⟩, trivial, (if_neg ok).symm⟩
        · intro given
          obtain ⟨isType, rfl, within, _, spelled⟩ := given
          cases body <;> cases isType
          exact ⟨_, rfl, ⟨within.2 ok, within.1⟩, spelled.trans (if_neg ok)⟩
  | putItemResponse | deleteItemResponse =>
      refine (decodes_assigned (reads_nothing ()) _).congr fun body bytes => ⟨?_, ?_⟩
      · intro given
        obtain ⟨_, rfl, _, rfl⟩ := given
        exact ⟨rfl, rfl, trivial, trivial, rfl⟩
      · intro given
        obtain ⟨isType, rfl, _, _, spelled⟩ := given
        cases body <;> cases isType
        exact ⟨_, rfl, rfl, spelled⟩
  | statsResponse =>
      refine (decodes_assigned reads_stats _).congr fun body bytes => ⟨?_, ?_⟩
      · intro given
        obtain ⟨_, rfl, _, rfl⟩ := given
        exact ⟨rfl, rfl, trivial, trivial, rfl⟩
      · intro given
        obtain ⟨isType, rfl, _, _, spelled⟩ := given
        cases body <;> cases isType
        exact ⟨_, rfl, trivial, spelled⟩
  | recommendResponse =>
      refine (decodes_accepted (reads_counted reads_ranked _ _) _ _ _).congr
        fun body bytes => ⟨?_, ?_⟩
      · intro given
        obtain ⟨items, rfl, ⟨⟨few, each⟩, _⟩, rfl⟩ := given
        exact ⟨rfl, rfl, few, fun ranked member => (each ranked member).1, rfl⟩
      · intro given
        obtain ⟨isType, rfl, few, measured, spelled⟩ := given
        cases body <;> cases isType
        exact ⟨_, rfl, ⟨⟨few, fun ranked member => ⟨measured ranked member, rfl⟩⟩, rfl⟩, spelled⟩
  | errorResponse =>
      refine (decodes_accepted reads_string _ _ _).congr fun body bytes => ⟨?_, ?_⟩
      · intro given
        obtain ⟨message, rfl, ⟨_, short⟩, rfl⟩ := given
        have bounded : message.length ≤ kMaxMessageLength := of_decide_eq_true short
        exact ⟨rfl, rfl, bounded, trivial, rfl⟩
      · intro given
        obtain ⟨isType, rfl, short, _, spelled⟩ := given
        cases body <;> cases isType
        change List.length _ ≤ kMaxMessageLength at short
        exact ⟨_, rfl, ⟨short.trans_lt (by decide), decide_eq_true short⟩, spelled⟩
  | _ =>
      apply decodes_never (by decide) _
      intro body bytes given
      obtain ⟨isType, _⟩ := given
      cases body <;> cases isType

/-- What the decoder of a response accepts behind the header. -/
theorem decodes_responseBody (type : MessageType) :
    Decodes (decodeResponseBody type : Reader data (DecodeError × ResponseBody D))
      (fun body bytes => body.typeOf = type ∧ body.WithinLimits ∧ body.Measured ∧
        bytes = [body.status.code] ++ resultBytes body) := by
  refine (Decodes.bind reads_u8 fun status => decodes_result ⟨status⟩ type).congr
    fun body bytes => ⟨?_, ?_⟩
  · intro given
    obtain ⟨status, later, _, rfl, isType, isStatus, within, measured, rfl⟩ := given
    exact ⟨isType, within, measured, by rw [isStatus]⟩
  · intro given
    obtain ⟨isType, within, measured, rfl⟩ := given
    exact ⟨_, _, trivial, rfl, isType, rfl, within, measured, rfl⟩

/-- The end of decoding is never a refusal of a field. -/
theorem finish_ne_fieldTooLarge (cursor : Cursor data) : (finish cursor).1 ≠ .fieldTooLarge := by
  rw [finish]
  split
  · nofun
  · split
    · nofun
    · nofun

/-- Fields are found too large only if all of them were there. -/
theorem accepted_fieldTooLarge {fields : Parser Unit data α} (reads : Reads fields print valid)
    {before : B} {within : α → Bool} {body : α → B} {cursor : Cursor data}
    (refused : (accepted before fields within body cursor).1.1 = .fieldTooLarge) :
    cursor.failed = false := by
  rw [accepted_eq] at refused
  rcases run : fields.run cursor with ⟨reason | value, after⟩
  · rw [run] at refused
    apply reads.sound run
    cases failed : after.failed with
    | false => rfl
    | true =>
        simp only [failed] at refused
        cases refused
  · rw [run] at refused
    apply reads.sound run
    have ended : (finish after).1 = .none := by
      simp only at refused
      split at refused
      · assumption
      · exact absurd refused (finish_ne_fieldTooLarge after)
    exact ((finish_eq_none after).mp ended).1

/-- A field is refused only when all of it was there. -/
theorem decodeRequestBody_fieldTooLarge {type : MessageType} {cursor : Cursor data}
    (refused : ((decodeRequestBody type cursor).1 : DecodeError × RequestBody D).1 =
      .fieldTooLarge) : cursor.failed = false := by
  cases type with
  | getItemRequest | deleteItemRequest | statsRequest =>
      exact absurd refused (finish_ne_fieldTooLarge _)
  | putItemRequest => exact accepted_fieldTooLarge reads_item refused
  | recommendRequest => exact accepted_fieldTooLarge reads_recommend refused
  | _ => cases refused

end Payload

/-! ## Messages -/

section Message

variable {B M : Type} {b : Bytes} {foreign : MessageType → Bool}
  {payload : MessageType → Reader b (DecodeError × B)} {message : UInt64 → B → M}
  {language : MessageType → B → Bytes → Prop}

/-- A bad header is neither a success nor a refusal of a field. -/
theorem decodeHeader_refuses {data : Bytes} :
    (decodeHeader : Parser DecodeError data Header).Refuses
      fun error => error ≠ .none ∧ error ≠ .fieldTooLarge := by
  refine .bind (.ofReader _) fun magic => .bind (.ofReader _) fun failed => ?_
  split
  · exact .throw (by decide)
  split
  · exact .throw (by decide)
  refine .bind (.ofReader _) fun version => .bind (.ofReader _) fun rawType =>
    .bind (.ofReader _) fun flags => .bind (.ofReader _) fun requestId =>
    .bind (.ofReader _) fun failed => ?_
  split
  · exact .throw (by decide)
  split
  · exact .throw (by decide)
  split
  · exact .throw (by decide)
  split
  · exact .throw (by decide)
  · exact .pure _

/-- A message is accepted exactly if it starts with the header of a type of its
direction and the rest belongs to a body of that type. -/
theorem decodeMessage_iff (decodes : ∀ type, Decodes (payload type) (language type)) (out m : M) :
    decodeMessage b foreign payload message out = (.none, m) ↔
      ∃ type requestId body later, foreign type = false ∧ m = message requestId body ∧
        b = headerBytes ⟨kVersion, type, 0, requestId⟩ ++ later ∧ language type body later := by
  unfold decodeMessage
  constructor
  · intro isNone
    rcases run : decodeHeader.run (Cursor.start b) with ⟨error | header, reader⟩
    · simp only [run] at isNone
      exact absurd (congrArg Prod.fst isNone) (decodeHeader_refuses _ _ _ run).1
    · simp only [run] at isNone
      split at isNone
      · cases isNone
      · rename_i ours
        obtain ⟨noError, rfl⟩ := Prod.mk.inj isNone
        obtain ⟨fine, belongs⟩ := (decodes header.type reader _).mp (Prod.ext noError rfl)
        obtain ⟨⟨current, clear⟩, split⟩ := reads_header.inverts run fine
        refine ⟨header.type, header.requestId, _, reader.rest, ?_, rfl, ?_, belongs⟩
        · exact Bool.eq_false_iff.mpr ours
        · rw [← current, ← clear]
          exact split
  · intro given
    obtain ⟨type, requestId, body, later, ours, rfl, split, belongs⟩ := given
    obtain ⟨reader, run, fine, rest⟩ :=
      reads_header.accepts (Cursor.failed_start b) ⟨rfl, rfl⟩ split
    have read := (decodes type reader body).mpr ⟨fine, rest ▸ belongs⟩
    simp only [run, ours, Bool.false_eq_true, ↓reduceIte, read]

/-- A message of the other direction is refused, whatever follows its header. -/
theorem decodeMessage_foreign {type : MessageType} (isForeign : foreign type = true)
    {requestId : UInt64} {later : Bytes}
    (split : b = headerBytes ⟨kVersion, type, 0, requestId⟩ ++ later) (out : M) :
    decodeMessage b foreign payload message out = (.wrongDirection, out) := by
  obtain ⟨reader, run, _⟩ := reads_header.accepts (Cursor.failed_start b) ⟨rfl, rfl⟩ split
  unfold decodeMessage
  simp only [run, isForeign, ↓reduceIte]

end Message

namespace BinaryCodec

omit [BitCast D] in
theorem isResponse_request (body : RequestBody D) : body.typeOf.isResponse = false := by
  cases body <;> rw [RequestBody.typeOf] <;> decide

omit [BitCast D] in
theorem isResponse_response (body : ResponseBody D) : body.typeOf.isResponse = true := by
  cases body <;> rw [ResponseBody.typeOf] <;> decide

omit [BitCast D] in
theorem not_isResponse_response (body : ResponseBody D) : (!body.typeOf.isResponse) = false := by
  rw [isResponse_response, Bool.not_true]

/-- The bytes are the encoding of the request, except that any non-zero byte may stand
for a `dry_run` flag that is set. The flag is the last byte. -/
def Spells (request : Request D) (bytes : Bytes) : Prop :=
  bytes = encodeRequest request [] ∨
    ∃ asked flag, request.body = .recommend asked ∧ asked.dryRun = true ∧ flag ≠ 0 ∧
      bytes = (encodeRequest request []).dropLast ++ [flag]

/-- A request is spelled by its header and a spelling of its arguments. -/
theorem spells_iff (request : Request D) (bytes : Bytes) :
    Spells request bytes ↔
      ∃ later, bytes = headerBytes (requestHeader request) ++ later ∧
        SpellsBody request.body later := by
  obtain ⟨requestId, body⟩ := request
  rw [Spells, encodeRequest_eq, List.nil_append]
  cases body with
  | recommend asked =>
      have glue : ∀ flag, headerBytes (requestHeader ⟨requestId, .recommend asked⟩) ++
          recommendBytes (asked.signal, asked.count, flag) =
            headerBytes (requestHeader ⟨requestId, .recommend asked⟩) ++
              (signalBytes asked.signal ++ u32Bytes asked.count) ++ [flag] := by
        intro flag
        simp only [recommendBytes, List.append_assoc]
      simp only [requestBodyBytes, glue, List.dropLast_concat]
      constructor
      · intro given
        rcases given with rfl | ⟨_, flag, same, set, nonzero, rfl⟩
        · refine ⟨_, (glue _).symm, _, ?_, rfl⟩
          cases asked.dryRun <;> rfl
        · cases same
          refine ⟨_, (glue flag).symm, flag, ?_, rfl⟩
          rw [set, bne_iff_ne]
          exact nonzero
      · intro given
        obtain ⟨_, rfl, flag, set, rfl⟩ := given
        rw [glue]
        by_cases zero : flag = 0
        · left
          have clear : asked.dryRun = false := by
            rw [← set, zero]
            rfl
          rw [zero, clear]
          rfl
        · right
          refine ⟨asked, flag, rfl, ?_, zero, rfl⟩
          rw [← set, bne_iff_ne]
          exact zero
  | _ =>
      constructor
      · intro given
        rcases given with rfl | ⟨_, _, same, _⟩
        · exact ⟨_, rfl, rfl⟩
        · cases same
      · intro given
        obtain ⟨_, rfl, rfl⟩ := given
        exact Or.inl rfl

/-- Requests are decoded exactly from their spellings within the limits. -/
theorem decodeRequest_iff (bytes : Bytes) (out request : Request D) :
    decodeRequest bytes out = (.none, request) ↔
      request.body.WithinLimits ∧ Spells request bytes := by
  rw [decodeRequest, decodeMessage_iff decodes_requestBody, spells_iff]
  constructor
  · intro given
    obtain ⟨_, requestId, body, later, _, rfl, rfl, rfl, within, spelled⟩ := given
    exact ⟨within, later, rfl, spelled⟩
  · intro given
    obtain ⟨within, later, rfl, spelled⟩ := given
    exact ⟨_, _, _, later, isResponse_request request.body, rfl, rfl, rfl, within, spelled⟩

/-- A request whose fields are too large is left with the id of its header. -/
theorem decodeRequest_fieldTooLarge {bytes : Bytes} {out request : Request D}
    (refused : decodeRequest bytes out = (.fieldTooLarge, request)) :
    ∃ type later, bytes = headerBytes ⟨kVersion, type, 0, request.requestId⟩ ++ later := by
  unfold decodeRequest decodeMessage at refused
  rcases run : decodeHeader.run (Cursor.start bytes) with ⟨error | header, reader⟩
  · simp only [run] at refused
    exact absurd (congrArg Prod.fst refused) (decodeHeader_refuses _ _ _ run).2
  · simp only [run] at refused
    split at refused
    · cases refused
    · obtain ⟨isError, rfl⟩ := Prod.mk.inj refused
      obtain ⟨⟨current, clear⟩, split⟩ :=
        reads_header.inverts run (decodeRequestBody_fieldTooLarge isError)
      refine ⟨header.type, reader.rest, ?_⟩
      rw [← current, ← clear]
      exact split

/-- Responses are decoded exactly from their encodings within the limits. -/
theorem decodeResponse_iff (bytes : Bytes) (out response : Response D) :
    decodeResponse bytes out = (.none, response) ↔
      response.body.WithinLimits ∧ response.body.Measured ∧
        bytes = encodeResponse response [] := by
  rw [decodeResponse, decodeMessage_iff decodes_responseBody, encodeResponse_eq, List.nil_append]
  constructor
  · intro given
    obtain ⟨_, requestId, body, later, _, rfl, rfl, rfl, within, measured, rfl⟩ := given
    exact ⟨within, measured, rfl⟩
  · intro given
    obtain ⟨within, measured, rfl⟩ := given
    exact ⟨_, _, _, _, not_isResponse_response response.body, rfl, rfl, rfl, within, measured, rfl⟩

/-- A request is refused where a response is expected, and nothing is written. -/
theorem decodeResponse_spells {request : Request D} {bytes : Bytes}
    (spelled : Spells request bytes) (out : Response D) :
    decodeResponse bytes out = (.wrongDirection, out) := by
  obtain ⟨later, split, _⟩ := (spells_iff request bytes).mp spelled
  refine decodeMessage_foreign ?_ split out
  rw [isResponse_request, Bool.not_false]

theorem decodeRequest_encodeResponse (response : Response D) (out : Request D) :
    decodeRequest (encodeResponse response []) out = (.wrongDirection, out) :=
  decodeMessage_foreign (isResponse_response response.body) (encodeResponse_eq response []) out

/-- A short body leaves no room for a string whose length does not fit its prefix. -/
theorem measured_of_short {response : Response D}
    (short : (encodeResponse response []).length < 2 ^ 32) : response.body.Measured := by
  obtain ⟨requestId, body⟩ := response
  cases body with
  | recommendResult status items =>
      intro ranked member
      have bounded := length_print_le rankedBytes member
      have own : ranked.category.length + ranked.advertiser.length ≤
          (rankedBytes ranked).length := by
        simp only [rankedBytes, stringBytes, List.length_append]
        omega
      rw [encodeResponse_eq] at short
      simp only [resultBytes, List.length_append] at short
      omega
  | _ => exact trivial

/-- Decoding takes the encoding of a message within its limits back to the message,
provided that the strings of a slate have lengths of 32 bits. Encoding only appends. -/
theorem decode_encode :
    (∀ request out : Request D, request.body.WithinLimits →
      decodeRequest (encodeRequest request []) out = (.none, request)) ∧
    (∀ response out : Response D, response.body.WithinLimits → response.body.Measured →
      decodeResponse (encodeResponse response []) out = (.none, response)) ∧
    (∀ (request : Request D) (buffer : Bytes),
      encodeRequest request buffer = buffer ++ encodeRequest request []) ∧
    (∀ (response : Response D) (buffer : Bytes),
      encodeResponse response buffer = buffer ++ encodeResponse response []) := by
  refine ⟨?_, ?_, encodeRequest_append, encodeResponse_append⟩
  · intro request out within
    exact (decodeRequest_iff _ out request).mpr ⟨within, Or.inl rfl⟩
  · intro response out within measured
    exact (decodeResponse_iff _ out response).mpr ⟨within, measured, rfl⟩

/-- A preview of three items for a signal with one affinity and one exclusion. -/
def preview : Request UInt64 := ⟨7, .recommend ⟨⟨[⟨[110], 5⟩], [[]]⟩, 3, true⟩⟩

theorem preview_withinLimits : preview.body.WithinLimits := by
  refine ⟨⟨?_, ?_, ?_, ?_⟩, ?_⟩ <;> decide

/-- A slate of one item, with a zero byte for its category. -/
def slateOfOne : Response UInt64 := ⟨7, .recommendResult .ok [⟨9, 1, [0], [255]⟩]⟩

theorem decode_encode_preview :
    decodeRequest (encodeRequest preview []) preview = (.none, preview) ∧
      decodeResponse (encodeResponse slateOfOne []) slateOfOne = (.none, slateOfOne) := by
  have few : 1 ≤ kMaxRecommendCount.toNat := by decide
  refine ⟨decode_encode.1 preview preview preview_withinLimits,
    decode_encode.2.1 slateOfOne slateOfOne few ?_⟩
  intro ranked member
  rw [List.mem_singleton.mp member]
  decide

/-- A slate within its limits whose only category is too long for its length prefix. -/
def unmeasuredSlate : Response UInt64 :=
  ⟨0, .recommendResult .ok [⟨1, 0, List.replicate (2 ^ 32) 0, []⟩]⟩

theorem decode_encode_unmeasured :
    unmeasuredSlate.body.WithinLimits ∧
      ∀ out, decodeResponse (encodeResponse unmeasuredSlate []) out ≠ (.none, unmeasuredSlate) := by
  have few : 1 ≤ kMaxRecommendCount.toNat := by decide
  refine ⟨few, ?_⟩
  intro out same
  obtain ⟨_, measured, _⟩ := (decodeResponse_iff _ out unmeasuredSlate).mp same
  obtain ⟨fits, _⟩ := measured _ List.mem_cons_self
  rw [List.length_replicate] at fits
  exact Nat.lt_irrefl _ fits

/-- What the decoders accept are the encodings of messages within their limits, up to
the byte of `dry_run`, and the message is what they return. So a body stands for at
most one message, and none is accepted in both directions. -/
theorem accepts_exactly (b : Bytes) (short : b.length < 2 ^ 32) :
    (∀ out request : Request D, decodeRequest b out = (.none, request) ↔
      request.body.WithinLimits ∧ Spells request b) ∧
    (∀ out response : Response D, decodeResponse b out = (.none, response) ↔
      response.body.WithinLimits ∧ b = encodeResponse response []) ∧
    (∀ request request' : Request D, request.body.WithinLimits → request'.body.WithinLimits →
      Spells request b → Spells request' b → request = request') ∧
    (∀ response response' : Response D,
      response.body.WithinLimits → response'.body.WithinLimits →
        b = encodeResponse response [] → b = encodeResponse response' [] →
          response = response') ∧
    (∀ (request : Request D) (out : Response D), Spells request b →
      decodeResponse b out = (.wrongDirection, out)) ∧
    (∀ (response : Response D) (out : Request D), b = encodeResponse response [] →
      decodeRequest b out = (.wrongDirection, out)) := by
  have onResponse : ∀ out response : Response D, decodeResponse b out = (.none, response) ↔
      response.body.WithinLimits ∧ b = encodeResponse response [] := by
    intro out response
    rw [decodeResponse_iff]
    constructor
    · intro given
      obtain ⟨within, _, same⟩ := given
      exact ⟨within, same⟩
    · intro given
      obtain ⟨within, rfl⟩ := given
      exact ⟨within, measured_of_short short, rfl⟩
  refine ⟨decodeRequest_iff b, onResponse, ?_, ?_, ?_, ?_⟩
  · intro request request' within within' spelled spelled'
    have first := (decodeRequest_iff b request request).mpr ⟨within, spelled⟩
    have second := (decodeRequest_iff b request request').mpr ⟨within', spelled'⟩
    exact congrArg Prod.snd (first.symm.trans second)
  · intro response response' within within' encoded encoded'
    have first := (onResponse response response).mpr ⟨within, encoded⟩
    have second := (onResponse response response').mpr ⟨within', encoded'⟩
    exact congrArg Prod.snd (first.symm.trans second)
  · exact fun request out spelled => decodeResponse_spells spelled out
  · intro response out same
    obtain rfl := same
    exact decodeRequest_encodeResponse response out

/-- The flag of a preview may be sent as a two. -/
theorem accepts_exactly_preview :
    decodeRequest ((encodeRequest preview []).dropLast ++ [2]) preview = (.none, preview) := by
  refine ((accepts_exactly ((encodeRequest preview []).dropLast ++ [2]) ?_).1 preview
    preview).mpr ⟨preview_withinLimits, Or.inr ⟨_, 2, rfl, rfl, ?_, rfl⟩⟩
  · decide +kernel
  · decide

end BinaryCodec

end Lrd.Proto
