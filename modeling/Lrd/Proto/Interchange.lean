import Lrd.Proto.Envelope

/-!
# The two codecs are interchangeable

Whatever one codec makes of its own encoding of a message, the other makes of its own: the
message, if it is within its limits, and otherwise the same error with the same id
(`codecs_agree`). The binary decoder looks at limits before it reads, while it reads and
after it has come to the end, the protobuf decoder after the runtime has parsed everything;
what is out of one limit or several is refused with one error by both.

They do so as long as the runtime serialises the message at all. Of a message that is longer
than an `int` can say, nothing is left to parse (`codecs_disagree`).
-/

namespace Lrd.Proto

open Foundation Rank

section Agreement

variable {D : Type} [BitCast D]

/-- The codecs agree on every message whose strings and lists are shorter than 2^31, whose
status, if it is a response, has a name, and whose envelope is serialised to a length that is an
`int`. Decoding the encoding of either gives the same error and leaves the same message,
whatever was in it before. In the wrong direction both refuse. -/
theorem codecs_agree (runtime : Serializer (Pb.Envelope D)) :
    (∀ request out out' : Request D, request.body.Below (2 ^ 31) →
      runtime.byteSizeLong (ProtobufCodec.ofRequest request) ≤ intMax →
      ProtobufCodec.decodeRequest runtime (ProtobufCodec.encodeRequest runtime request []) out =
        BinaryCodec.decodeRequest (BinaryCodec.encodeRequest request []) out') ∧
    (∀ response out out' : Response D, response.body.Below (2 ^ 31) →
      response.body.status.Declared →
      runtime.byteSizeLong (ProtobufCodec.ofResponse response) ≤ intMax →
      ProtobufCodec.decodeResponse runtime (ProtobufCodec.encodeResponse runtime response []) out =
        BinaryCodec.decodeResponse (BinaryCodec.encodeResponse response []) out') ∧
    (∀ (request : Request D) (out : Response D),
      (runtime.byteSizeLong (ProtobufCodec.ofRequest request) ≤ intMax →
        (ProtobufCodec.decodeResponse runtime (ProtobufCodec.encodeRequest runtime request [])
          out).1 = .wrongDirection) ∧
        (BinaryCodec.decodeResponse (BinaryCodec.encodeRequest request []) out).1 =
          .wrongDirection) ∧
    (∀ (response : Response D) (out : Request D),
      (runtime.byteSizeLong (ProtobufCodec.ofResponse response) ≤ intMax →
        (ProtobufCodec.decodeRequest runtime (ProtobufCodec.encodeResponse runtime response [])
          out).1 = .wrongDirection) ∧
        (BinaryCodec.decodeRequest (BinaryCodec.encodeResponse response []) out).1 =
          .wrongDirection) := by
  have small : (2 : Nat) ^ 31 ≤ 2 ^ 32 := Nat.pow_le_pow_right Nat.two_pos (Nat.le_succ 31)
  refine ⟨?_, ?_, ?_, ?_⟩
  · intro request out out' below fits
    rw [ProtobufCodec.encodeRequest, ProtobufCodec.decodeRequest_appended runtime fits,
      ProtobufCodec.ofRequest]
    by_cases within : request.body.WithinLimits
    · rw [ProtobufCodec.fromWireRequest_within within]
      exact ((BinaryCodec.decodeRequest_iff _ out' request).mpr ⟨within, Or.inl rfl⟩).symm
    · rw [ProtobufCodec.fromWireRequest_outside within]
      exact (BinaryCodec.decodeRequest_outside (below.mono small) within out').symm
  · intro response out out' below declared fits
    rw [ProtobufCodec.encodeResponse, ProtobufCodec.decodeResponse_appended runtime fits,
      ProtobufCodec.ofResponse]
    by_cases within : response.body.settled.WithinLimits
    · rw [ProtobufCodec.fromWireResponse_within declared within]
      exact (BinaryCodec.decodeResponse_settled (below.mono small) within out').symm
    · rw [ProtobufCodec.fromWireResponse_outside declared within]
      exact (BinaryCodec.decodeResponse_outside (below.mono small) within out').symm
  · intro request out
    rw [BinaryCodec.decodeResponse_spells (Or.inl rfl)]
    refine ⟨?_, rfl⟩
    intro fits
    rw [ProtobufCodec.encodeRequest, ProtobufCodec.decodeResponse_appended runtime fits]
    exact ProtobufCodec.fromWireResponse_toWireRequest request.body
  · intro response out
    rw [BinaryCodec.decodeRequest_encodeResponse]
    refine ⟨?_, rfl⟩
    intro fits
    rw [ProtobufCodec.encodeResponse, ProtobufCodec.decodeRequest_appended runtime fits]
    exact ProtobufCodec.fromWireRequest_toWireResponse response.body

end Agreement

/-- The codecs agree on a preview and on a slate of one item. -/
theorem codecs_agree_preview :
    ProtobufCodec.decodeRequest Pb.runtime
        (ProtobufCodec.encodeRequest Pb.runtime BinaryCodec.preview []) BinaryCodec.preview =
      BinaryCodec.decodeRequest (BinaryCodec.encodeRequest BinaryCodec.preview [])
        BinaryCodec.preview ∧
    ProtobufCodec.decodeResponse Pb.runtime
        (ProtobufCodec.encodeResponse Pb.runtime BinaryCodec.slateOfOne []) BinaryCodec.slateOfOne =
      BinaryCodec.decodeResponse (BinaryCodec.encodeResponse BinaryCodec.slateOfOne [])
        BinaryCodec.slateOfOne := by
  have preview : BinaryCodec.preview.body.Below (2 ^ 31) := by
    refine ⟨?_, ?_, ?_, ?_⟩ <;> decide
  have slate : BinaryCodec.slateOfOne.body.Below (2 ^ 31) := by
    refine ⟨?_, ?_⟩ <;> decide
  exact ⟨(codecs_agree Pb.runtime).1 _ _ _ preview (by decide +kernel),
    (codecs_agree Pb.runtime).2.1 _ _ _ slate (Or.inl rfl) (by decide +kernel)⟩

/-! ## A message that is too long to be serialised -/

section Beyond

/-- The length of a field of so many bytes whose number is below 16. -/
def delimited (size : Nat) : Nat := 1 + (varint 9 size).length + size

/-- The size of a field of bytes, with its tag and its length. -/
theorem length_delimited {number : Nat} (small : number < 16) (value : Bytes)
    (valid : 0 < number ∧ number < 2 ^ 29) :
    (fieldsBytes [⟨number, .bytes value, valid⟩]).length = delimited value.length := by
  have tag : varint 4 (8 * number + 2) = [UInt8.ofNat (8 * number + 2)] := if_pos (by omega)
  rw [fieldsBytes, List.flatMap_singleton, Field.bytes, FieldValue.wireType, tag,
    FieldValue.payload, List.length_append, List.length_append, List.length_singleton, delimited,
    Nat.add_assoc]

/-- A request to put an item whose category has so many bytes. -/
def putting (size : Nat) : Request UInt64 :=
  ⟨0, .putItem ⟨0, List.replicate size 0, [], 0, ⟨0⟩, ⟨0⟩⟩⟩

/-- Its category is in an item, the item in a message and the message in an envelope. -/
theorem byteSizeLong_putting {size : Nat} (some : size ≠ 0) :
    Pb.runtime.byteSizeLong (ProtobufCodec.ofRequest (putting size)) =
      delimited (delimited (delimited size)) := by
  have item : Pb.Item.fields (ProtobufCodec.toWireItem
      (⟨0, List.replicate size 0, [], 0, ⟨0⟩, ⟨0⟩⟩ : Item UInt64)) =
      [⟨2, .bytes (List.replicate size 0), by decide⟩] := by
    have long : List.replicate size (0 : UInt8) ≠ [] := by
      simpa using some
    have category : bytesField 2 (by decide) (List.replicate size (0 : UInt8)) =
        [⟨2, .bytes (List.replicate size 0), by decide⟩] := if_neg long
    simp only [Pb.Item.fields, ProtobufCodec.toWireItem, category]
    rfl
  have envelope : Pb.Envelope.fields (ProtobufCodec.ofRequest (putting size)) =
      [⟨3, .bytes (fieldsBytes [⟨1, .bytes (fieldsBytes
        [⟨2, .bytes (List.replicate size 0), by decide⟩]), by decide⟩]), by decide⟩] := by
    rw [← item]
    rfl
  change (fieldsBytes (Pb.Envelope.fields (ProtobufCodec.ofRequest (putting size)))).length = _
  rw [envelope, length_delimited (by decide), length_delimited (by decide),
    length_delimited (by decide), List.length_replicate]

/-- The longest category whose length is an `int` makes an envelope whose length is none. It is
not serialised, and the zeros that are left in its place are no message, whereas the binary
codec refuses the category for its length. -/
theorem codecs_disagree :
    (putting intMax).body.Below (2 ^ 31) ∧
    intMax < Pb.runtime.byteSizeLong (ProtobufCodec.ofRequest (putting intMax)) ∧
    ∀ out : Request UInt64,
      (ProtobufCodec.decodeRequest Pb.runtime
        (ProtobufCodec.encodeRequest Pb.runtime (putting intMax) []) out).1 = .truncated ∧
      (BinaryCodec.decodeRequest (BinaryCodec.encodeRequest (putting intMax) []) out).1 =
        .fieldTooLarge := by
  have size : Pb.runtime.byteSizeLong (ProtobufCodec.ofRequest (putting intMax)) = 2 ^ 31 + 17 := by
    rw [byteSizeLong_putting (by decide)]
    decide
  have below : (putting intMax).body.Below (2 ^ 31) := by
    refine ⟨?_, ?_⟩
    · rw [List.length_replicate]
      decide
    · decide
  have beyond : intMax < Pb.runtime.byteSizeLong (ProtobufCodec.ofRequest (putting intMax)) := by
    rw [size]
    decide
  refine ⟨below, beyond, ?_⟩
  intro out
  constructor
  · have negative : Int32.ofNat (2 ^ 31 + 17) < 0 := by decide
    rw [ProtobufCodec.encodeRequest, ProtobufCodec.appendSerialized_beyond _ beyond, size,
      List.nil_append, ProtobufCodec.decodeRequest, ProtobufCodec.parse, List.length_replicate,
      Serializer.parseFromArray, if_pos negative]
  · have outside : ¬ (putting intMax).body.WithinLimits := by
      intro within
      have both := Bool.and_eq_true_iff.mp within
      have short := of_decide_eq_true both.1
      rw [List.length_replicate] at short
      exact absurd short (by decide)
    have larger := below.mono (Nat.pow_le_pow_right Nat.two_pos (Nat.le_succ 31))
    rw [BinaryCodec.decodeRequest_outside larger outside]

end Beyond

end Lrd.Proto
