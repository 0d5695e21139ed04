import Lrd.Net.Io
import Lrd.Proto.Grammar

/-!
# Framing

`read_frame`, `write_frame` and `write_message` (`proto/framing.cpp`). A frame is a
body behind its length in four bytes. Whatever short sends and reads the two ends
meet, the bodies whose frames were delivered whole come out again, in their order,
and a stream that ends within a frame is told from one that ends between two.
-/

namespace Lrd.Proto

open Foundation Net

/-- How reading or writing a frame has ended. -/
inductive FrameStatus where
  | ok
  | peerClosed
  | truncated
  | oversized
  | timedOut
  | ioError
deriving DecidableEq, Repr

/-- The name by which a status is reported. -/
def FrameStatus.toString : FrameStatus → String
  | ok => "Ok"
  | peerClosed => "PeerClosed"
  | truncated => "Truncated"
  | oversized => "Oversized"
  | timedOut => "TimedOut"
  | ioError => "IoError"

/-- What reading or writing a frame returns. -/
structure FrameResult where
  status : FrameStatus
  ioError : Option Errno
  length : UInt32
deriving DecidableEq, Repr

/-- What an error of the socket makes of a frame. -/
def fromIo (io : IoResult) : FrameResult :=
  match io.status with
  | .ok => ⟨.ok, none, 0⟩
  | .peerClosed => ⟨if io.transferred = 0 then .peerClosed else .truncated, none, 0⟩
  | .timedOut => ⟨.timedOut, io.error, 0⟩
  | .error => ⟨.ioError, io.error, 0⟩

/-- The number that four bytes spell, high byte first. -/
def loadBeU32 (bytes : Bytes) : UInt32 := UInt32.ofNat (ofBigEndian bytes)

/-- A buffer cut or filled up with zeros to the given size. -/
def resize (buffer : Bytes) (size : Nat) : Bytes :=
  buffer.take size ++ List.replicate (size - buffer.length) 0

/-! ## Reading -/

/-- The outcome of `read_frame`, the body's buffer and what is still to arrive. -/
def readFrame (body : Bytes) (incoming : Incoming) : FrameResult × Bytes × Incoming :=
  let (headerIo, lengthPrefix, incoming) := readExact kLengthPrefixSize incoming
  if headerIo.status ≠ .ok then (fromIo headerIo, body, incoming)
  else
    let length := loadBeU32 lengthPrefix
    if length < kMinFrameSize ∨ kMaxFrameSize < length then
      (⟨.oversized, none, length⟩, body, incoming)
    else
      let resized := resize body length.toNat
      let (bodyIo, got, incoming) := readExact resized.length incoming
      let body := got ++ resized.drop got.length
      if bodyIo.status ≠ .ok then
        let result := fromIo bodyIo
        (if result.status = .peerClosed then { result with status := .truncated } else result,
          body, incoming)
      else (⟨.ok, none, length⟩, body, incoming)

/-- Successive calls of `read_frame` with one buffer, up to the first that does not
return `Ok`: the bodies, and the status of the last call. -/
def readFrames : Nat → Bytes → Incoming → List Bytes × FrameStatus
  | 0, _, _ => ([], .ok)
  | calls + 1, buffer, incoming =>
      let (result, body, incoming) := readFrame buffer incoming
      if result.status = .ok then
        let (bodies, status) := readFrames calls body incoming
        (body :: bodies, status)
      else ([], result.status)

/-! ## Writing -/

/-- The body's length written over the placeholder in front of it. -/
def patchLength (framed : Bytes) (length : UInt32) : Bytes :=
  (List.range kLengthPrefixSize).foldl
    (fun framed i =>
      framed.set i (UInt8.ofNat (length.toNat >>> ((kLengthPrefixSize - 1 - i) * 8))))
    framed

/-- The outcome of `write_prefixed`, the buffer and what has been sent. The buffer is
at least as long as the placeholder. -/
def writePrefixed (framed : Bytes) (outgoing : Outgoing) : FrameResult × Bytes × Outgoing :=
  let bodySize := framed.length - kLengthPrefixSize
  if bodySize < kMinFrameSize.toNat ∨ kMaxFrameSize.toNat < bodySize then
    (⟨.oversized, none, UInt32.ofNat bodySize⟩, framed, outgoing)
  else
    let length := UInt32.ofNat bodySize
    let framed := patchLength framed length
    let (io, outgoing) := writeAll framed outgoing
    ({ fromIo io with length }, framed, outgoing)

/-- `write_frame`: the length and the body, unless the length is out of range. -/
def writeFrame (body : Bytes) (outgoing : Outgoing) : FrameResult × Outgoing :=
  if body.length < kMinFrameSize.toNat ∨ kMaxFrameSize.toNat < body.length then
    (⟨.oversized, none, UInt32.ofNat body.length⟩, outgoing)
  else
    let length := UInt32.ofNat body.length
    let framed := [24, 16, 8, 0].map (fun shift => UInt8.ofNat (length.toNat >>> shift)) ++ body
    let (io, outgoing) := writeAll framed outgoing
    ({ fromIo io with length }, outgoing)

/-- A message with its codec, which appends the message's body to a buffer. -/
structure Encoder where
  encode : Bytes → Bytes
  body : Bytes
  appends : ∀ buffer, encode buffer = buffer ++ body

/-- The scratch buffer is cleared first. -/
def writeMessage (encoder : Encoder) (outgoing : Outgoing) : FrameResult × Bytes × Outgoing :=
  writePrefixed (encoder.encode (resize [] kLengthPrefixSize)) outgoing

section Encoder

variable {D : Type} [BitCast D]

/-- The encoder of a request. -/
def Encoder.request (request : Request D) : Encoder :=
  ⟨BinaryCodec.encodeRequest request, _, BinaryCodec.encodeRequest_append request⟩

/-- The encoder of a response. -/
def Encoder.response (response : Response D) : Encoder :=
  ⟨BinaryCodec.encodeResponse response, _, BinaryCodec.encodeResponse_append response⟩

end Encoder

/-- The two ways to write a frame. -/
inductive Write where
  | frame (body : Bytes)
  | message (encoder : Encoder)

namespace Write

/-- The body that is sent. -/
def body : Write → Bytes
  | frame body => body
  | message encoder => encoder.body

/-- Carry out one write. -/
def perform : Write → Outgoing → FrameResult × Outgoing
  | frame body, outgoing => writeFrame body outgoing
  | message encoder, outgoing =>
      let (result, _, outgoing) := writeMessage encoder outgoing
      (result, outgoing)

/-- One write after the other. -/
def performAll : List Write → Outgoing → List FrameResult × Outgoing
  | [], outgoing => ([], outgoing)
  | write :: writes, outgoing =>
      let (result, outgoing) := write.perform outgoing
      let (results, outgoing) := performAll writes outgoing
      (result :: results, outgoing)

end Write

/-! ## Frames -/

/-- A body behind its length. -/
def frameBytes (body : Bytes) : Bytes := u32Bytes (UInt32.ofNat body.length) ++ body

/-- The body may be sent in a frame. -/
def Framable (body : Bytes) : Prop :=
  kMinFrameSize.toNat ≤ body.length ∧ body.length ≤ kMaxFrameSize.toNat

instance (body : Bytes) : Decidable (Framable body) := inferInstanceAs (Decidable (_ ∧ _))

theorem length_u32Bytes (value : UInt32) : (u32Bytes value).length = kLengthPrefixSize :=
  length_bigEndian ..

theorem length_frameBytes (body : Bytes) :
    (frameBytes body).length = kLengthPrefixSize + body.length := by
  rw [frameBytes, List.length_append, length_u32Bytes]

/-- The length of a body that may be sent fits into its prefix, -/
theorem Framable.toNat_length {body : Bytes} (framable : Framable body) :
    (UInt32.ofNat body.length).toNat = body.length :=
  UInt32.toNat_ofNat_of_lt' (framable.2.trans_lt (by decide))

/-- and is a length that `read_frame` takes. -/
theorem Framable.inRange {body : Bytes} (framable : Framable body) :
    ¬ (UInt32.ofNat body.length < kMinFrameSize ∨ kMaxFrameSize < UInt32.ofNat body.length) := by
  rw [UInt32.lt_iff_toNat_lt, UInt32.lt_iff_toNat_lt, framable.toNat_length]
  obtain ⟨least, most⟩ := framable
  omega

theorem length_resize (buffer : Bytes) (size : Nat) : (resize buffer size).length = size := by
  rw [resize, List.length_append, List.length_take, List.length_replicate]
  omega

/-- The bytes of a length prefix are those of the number it spells. -/
theorem u32Bytes_loadBeU32 {bytes : Bytes} (four : bytes.length = kLengthPrefixSize) :
    u32Bytes (loadBeU32 bytes) = bytes := by
  have small := ofBigEndian_lt bytes
  rw [four] at small
  rw [loadBeU32, u32Bytes, UInt32.toNat_ofNat_of_lt' small]
  have same := bigEndian_ofBigEndian bytes
  rwa [four] at same

theorem loadBeU32_u32Bytes (value : UInt32) : loadBeU32 (u32Bytes value) = value := by
  rw [loadBeU32, u32Bytes, ofBigEndian_bigEndian value.toNat_lt, UInt32.ofNat_toNat]

/-- The placeholder is replaced by the length. -/
theorem patchLength_append {placeholder : Bytes} (four : placeholder.length = kLengthPrefixSize)
    (body : Bytes) (length : UInt32) :
    patchLength (placeholder ++ body) length = u32Bytes length ++ body := by
  match placeholder, four with
  | [_, _, _, _], _ => rfl

/-- A message's frame is sent as the same body's frame is. -/
theorem Write.perform_message (encoder : Encoder) (outgoing : Outgoing) :
    (Write.message encoder).perform outgoing = (Write.frame encoder.body).perform outgoing := by
  have four : (resize [] kLengthPrefixSize).length = kLengthPrefixSize := length_resize _ _
  have size : (resize [] kLengthPrefixSize ++ encoder.body).length - kLengthPrefixSize =
      encoder.body.length := by
    rw [List.length_append, four, Nat.add_sub_cancel_left]
  simp only [Write.perform, writeMessage, writePrefixed, writeFrame, encoder.appends, size,
    patchLength_append four]
  split
  · rfl
  · rfl

/-- Where every call takes something, a write sends its frame. -/
theorem Write.perform_willing (write : Write) (framable : Framable write.body)
    {outgoing : Outgoing} (willing : Willing outgoing.answers) :
    ∃ later, Willing later ∧ write.perform outgoing =
      (⟨.ok, none, UInt32.ofNat write.body.length⟩,
        ⟨outgoing.sent ++ frameBytes write.body, later⟩) := by
  have onFrame : ∀ body, Framable body → ∃ later, Willing later ∧
      (Write.frame body).perform outgoing = (⟨.ok, none, UInt32.ofNat body.length⟩,
        ⟨outgoing.sent ++ frameBytes body, later⟩) := by
    rintro body ⟨least, most⟩
    obtain ⟨later, calm, sent⟩ := writeAll_willing (frameBytes body) willing
    have inRange : ¬ (body.length < kMinFrameSize.toNat ∨ kMaxFrameSize.toNat < body.length) := by
      omega
    refine ⟨later, calm, ?_⟩
    rw [Write.perform, writeFrame, if_neg inRange]
    change ({ fromIo (writeAll (frameBytes body) outgoing).1 with
      length := UInt32.ofNat body.length }, (writeAll (frameBytes body) outgoing).2) = _
    rw [sent]
    rfl
  cases write with
  | frame body => exact onFrame body framable
  | message encoder =>
      rw [Write.perform_message]
      exact onFrame encoder.body framable

/-- Where every call takes something, a message that fits into a frame is sent whole. -/
theorem writeMessage_framable (encoder : Encoder) (framable : Framable encoder.body)
    {outgoing : Outgoing} (willing : Willing outgoing.answers) :
    ∃ written buffer after, writeMessage encoder outgoing = (written, buffer, after) ∧
      written.status = .ok ∧ Willing after.answers ∧
      after.sent = outgoing.sent ++ frameBytes encoder.body := by
  obtain ⟨later, calm, performed⟩ := (Write.message encoder).perform_willing framable willing
  rcases wrote : writeMessage encoder outgoing with ⟨written, buffer, after⟩
  simp only [Write.perform, wrote] at performed
  obtain ⟨rfl, rfl⟩ := Prod.mk.inj performed
  exact ⟨_, buffer, _, rfl, rfl, calm, rfl⟩

/-- A message that does not fit into a frame is refused before anything is sent. -/
theorem writeMessage_oversized (encoder : Encoder) (outside : ¬ Framable encoder.body)
    (outgoing : Outgoing) :
    ∃ written buffer, writeMessage encoder outgoing = (written, buffer, outgoing) ∧
      written.status = .oversized := by
  have alike := Write.perform_message encoder outgoing
  have beyond : encoder.body.length < kMinFrameSize.toNat ∨
      kMaxFrameSize.toNat < encoder.body.length := by
    rw [Framable] at outside
    omega
  rcases wrote : writeMessage encoder outgoing with ⟨written, buffer, after⟩
  simp only [Write.perform, wrote, writeFrame, if_pos beyond] at alike
  obtain ⟨rfl, rfl⟩ := Prod.mk.inj alike
  exact ⟨_, buffer, rfl, rfl⟩

/-- What fits into a frame is not found to be too large. -/
theorem writeFrame_ne_oversized {body : Bytes} (framable : Framable body) (outgoing : Outgoing) :
    (writeFrame body outgoing).1.status ≠ .oversized := by
  have inside : ¬ (body.length < kMinFrameSize.toNat ∨ kMaxFrameSize.toNat < body.length) := by
    rw [Framable] at framable
    omega
  rw [writeFrame, if_neg inside]
  simp only [fromIo]
  split
  · simp
  · simp only
    split <;> simp
  · simp
  · simp

/-- On a socket that takes everything all frames are sent, one after the other. -/
theorem Write.performAll_willing (writes : List Write)
    (framable : ∀ write ∈ writes, Framable write.body) (outgoing : Outgoing)
    (willing : Willing outgoing.answers) :
    (∀ result ∈ (performAll writes outgoing).1, result.status = .ok) ∧
      (performAll writes outgoing).2.sent =
        outgoing.sent ++ (writes.map Write.body).flatMap frameBytes := by
  induction writes generalizing outgoing with
  | nil =>
      refine ⟨fun _ member => absurd member List.not_mem_nil, ?_⟩
      exact (List.append_nil _).symm
  | cons write writes ih =>
      obtain ⟨later, calm, performed⟩ :=
        write.perform_willing (framable write List.mem_cons_self) willing
      obtain ⟨others, sent⟩ := ih (fun other member =>
        framable other (List.mem_cons_of_mem _ member)) ⟨_, later⟩ calm
      simp only [performAll, performed]
      refine ⟨?_, ?_⟩
      · intro result member
        rcases List.mem_cons.mp member with rfl | member
        · rfl
        · exact others result member
      · rw [sent, List.map_cons, List.flatMap_cons, List.append_assoc]

/-! ## What is read -/

section Read

variable {incoming : Incoming} (buffer : Bytes)

/-- At the end of the stream no frame follows. -/
theorem readFrame_closed (steady : incoming.Steady) (closed : incoming.bytes = []) :
    readFrame buffer incoming = (⟨.peerClosed, none, 0⟩, buffer, []) := by
  have short : incoming.bytes.length < kLengthPrefixSize := by
    rw [closed]
    decide
  rw [readFrame, readExact_short steady short, closed]
  rfl

/-- A length that is out of range is refused before anything more is read. -/
theorem readFrame_oversized (steady : incoming.Steady) {lengthPrefix rest : Bytes}
    (split : incoming.bytes = lengthPrefix ++ rest)
    (four : lengthPrefix.length = kLengthPrefixSize)
    (outside : loadBeU32 lengthPrefix < kMinFrameSize ∨ kMaxFrameSize < loadBeU32 lengthPrefix) :
    ∃ later : Incoming, readFrame buffer incoming =
        (⟨.oversized, none, loadBeU32 lengthPrefix⟩, buffer, later) ∧ later.bytes = rest := by
  obtain ⟨later, read, arrived, _⟩ := readExact_enough lengthPrefix steady split
  rw [four] at read
  refine ⟨later, ?_, arrived⟩
  simp only [readFrame, read, ne_eq, not_true_eq_false, ↓reduceIte, if_pos outside]

/-- After a good length, the body is read into the resized buffer. -/
theorem readFrame_body (steady : incoming.Steady) {body rest : Bytes} (framable : Framable body)
    (split : incoming.bytes = u32Bytes (UInt32.ofNat body.length) ++ rest) :
    ∃ later : Incoming, later.Steady ∧ later.bytes = rest ∧
      readFrame buffer incoming =
        let (io, got, final) := readExact body.length later
        let filled := got ++ (resize buffer body.length).drop got.length
        if io.status ≠ .ok then
          (if (fromIo io).status = .peerClosed then { fromIo io with status := .truncated }
            else fromIo io, filled, final)
        else (⟨.ok, none, UInt32.ofNat body.length⟩, filled, final) := by
  obtain ⟨later, read, arrived, calm⟩ := readExact_enough _ steady split
  rw [length_u32Bytes] at read
  refine ⟨later, calm, arrived, ?_⟩
  simp only [readFrame, read, ne_eq, not_true_eq_false, ↓reduceIte, loadBeU32_u32Bytes,
    if_neg framable.inRange, framable.toNat_length, length_resize]

/-- A frame that arrives whole is read, in whatever pieces it comes. -/
theorem readFrame_whole (steady : incoming.Steady) {body rest : Bytes} (framable : Framable body)
    (split : incoming.bytes = frameBytes body ++ rest) :
    ∃ later : Incoming, later.Steady ∧ later.bytes = rest ∧
      readFrame buffer incoming = (⟨.ok, none, UInt32.ofNat body.length⟩, body, later) := by
  rw [frameBytes, List.append_assoc] at split
  obtain ⟨middle, steady, arrived, read⟩ := readFrame_body buffer steady framable split
  obtain ⟨later, got, arrived, calm⟩ := readExact_enough body steady arrived
  refine ⟨later, calm, arrived, ?_⟩
  rw [read, got]
  have full : (resize buffer body.length).drop body.length = [] :=
    List.drop_of_length_le (length_resize buffer body.length).le
  simp only [ne_eq, not_true_eq_false, ↓reduceIte, full, List.append_nil]

/-- A stream that ends within a frame is truncated, also right after its length. -/
theorem readFrame_truncated (steady : incoming.Steady) {body : Bytes} (framable : Framable body)
    {cut : Nat} (started : 0 < cut) (unfinished : cut < (frameBytes body).length)
    (split : incoming.bytes = (frameBytes body).take cut) :
    (readFrame buffer incoming).1.status = .truncated := by
  rw [length_frameBytes] at unfinished
  by_cases inPrefix : cut < kLengthPrefixSize
  · have length : incoming.bytes.length = cut := by
      rw [split, List.length_take, length_frameBytes]
      omega
    rw [readFrame, readExact_short steady (by omega), length]
    simp [fromIo, started.ne']
  · rw [frameBytes, List.take_append, length_u32Bytes,
      List.take_of_length_le (by rw [length_u32Bytes]; omega)] at split
    obtain ⟨later, steady, arrived, read⟩ := readFrame_body buffer steady framable split
    have short : later.bytes.length < body.length := by
      rw [arrived, List.length_take]
      omega
    rw [read, readExact_short steady short]
    by_cases none : later.bytes.length = 0
    · simp [fromIo, none]
    · simp [fromIo, none]

/-- The buffer keeps its contents or has the size of a frame. -/
theorem readFrame_buffer (incoming : Incoming) :
    (readFrame buffer incoming).2.1 = buffer ∨
      (readFrame buffer incoming).2.1.length ≤ kMaxFrameSize.toNat := by
  unfold readFrame
  rcases readExact kLengthPrefixSize incoming with ⟨headerIo, lengthPrefix, later⟩
  by_cases failed : headerIo.status ≠ .ok
  · left
    simp only [if_pos failed]
  by_cases outside : loadBeU32 lengthPrefix < kMinFrameSize ∨ kMaxFrameSize < loadBeU32 lengthPrefix
  · left
    simp only [if_neg failed, if_pos outside]
  · right
    have room := length_readExact_le (resize buffer (loadBeU32 lengthPrefix).toNat).length later
    have bounded : (loadBeU32 lengthPrefix).toNat ≤ kMaxFrameSize.toNat :=
      UInt32.le_iff_toNat_le.mp (UInt32.not_lt.mp fun exceeds => outside (Or.inr exceeds))
    rw [length_resize] at room
    simp only [if_neg failed, if_neg outside, length_resize]
    rw [apply_ite Prod.snd, ite_self, List.length_append, List.length_drop, length_resize,
      Nat.add_sub_of_le room]
    exact bounded

end Read

/-- The bodies whose frames end before a stream of frames is cut, and how many bytes
of the next frame come before the cut. -/
def delivered : List Bytes → Nat → List Bytes × Nat
  | [], _ => ([], 0)
  | body :: bodies, cut =>
      if kLengthPrefixSize + body.length ≤ cut then
        let (whole, begun) := delivered bodies (cut - (kLengthPrefixSize + body.length))
        (body :: whole, begun)
      else ([], cut)

/-- Of a stream that ends anywhere, the frames before its end are read, and then the end is
noticed. -/
theorem readFrames_delivered {bodies : List Bytes} (framable : ∀ body ∈ bodies, Framable body)
    (buffer : Bytes) (cut : Nat) {incoming : Incoming} (steady : incoming.Steady)
    (split : incoming.bytes = (bodies.flatMap frameBytes).take cut) {calls : Nat}
    (enough : bodies.length < calls) :
    readFrames calls buffer incoming =
      ((delivered bodies cut).1,
        if (delivered bodies cut).2 = 0 then .peerClosed else .truncated) := by
  obtain ⟨calls, rfl⟩ := Nat.exists_eq_add_one_of_ne_zero (Nat.ne_zero_of_lt enough)
  induction bodies generalizing buffer cut incoming calls with
  | nil =>
      rw [List.flatMap_nil, List.take_nil] at split
      rw [readFrames, readFrame_closed buffer steady split]
      rfl
  | cons body bodies ih =>
      have fits := framable body List.mem_cons_self
      rw [List.flatMap_cons, List.take_append, length_frameBytes] at split
      rw [readFrames, delivered]
      by_cases whole : kLengthPrefixSize + body.length ≤ cut
      · rw [List.take_of_length_le (by rw [length_frameBytes]; exact whole)] at split
        obtain ⟨later, steady, arrived, read⟩ := readFrame_whole buffer steady fits split
        obtain ⟨calls, rfl⟩ := Nat.exists_eq_add_one_of_ne_zero
          (Nat.ne_zero_of_lt (Nat.lt_of_succ_lt_succ enough))
        have others := ih (fun other member => framable other (List.mem_cons_of_mem _ member)) body
          (cut - (kLengthPrefixSize + body.length)) steady arrived calls
          (Nat.lt_of_succ_lt_succ enough)
        simp only [read, if_pos whole, ↓reduceIte, others]
      · have nothing : cut - (kLengthPrefixSize + body.length) = 0 := by omega
        rw [nothing, List.take_zero, List.append_nil] at split
        simp only [if_neg whole]
        by_cases started : cut = 0
        · rw [started, List.take_zero] at split
          rw [readFrame_closed buffer steady split, if_pos started]
          rfl
        · have unfinished : cut < (frameBytes body).length := by
            rw [length_frameBytes]
            omega
          have truncated := readFrame_truncated buffer steady fits (Nat.pos_of_ne_zero started)
            unfinished split
          rw [if_neg started, truncated]
          rfl

/-- **Frames survive any delivery.** Both ways of writing a frame send the same. Where
every call takes something or is interrupted, all writes succeed, and however the
stream is cut and its bytes arrive, reading gives the bodies that were delivered whole
and then tells an end between frames from one within a frame. A length out of range is
reported before anything after it is read, and the buffer is never given more than the
size of a frame. -/
theorem frames_recovered :
    (∀ (encoder : Encoder) (outgoing : Outgoing),
      (Write.message encoder).perform outgoing = (Write.frame encoder.body).perform outgoing) ∧
    (∀ (writes : List Write) (answers : List Answer),
      (∀ write ∈ writes, Framable write.body) → Willing answers →
        (∀ result ∈ (Write.performAll writes ⟨[], answers⟩).1, result.status = .ok) ∧
        ∀ (cut : Nat) (incoming : Incoming), incoming.Steady →
          incoming.bytes = (Write.performAll writes ⟨[], answers⟩).2.sent.take cut →
          ∀ (buffer : Bytes) (calls : Nat), writes.length < calls →
            readFrames calls buffer incoming =
              ((delivered (writes.map Write.body) cut).1,
                if (delivered (writes.map Write.body) cut).2 = 0 then .peerClosed
                else .truncated)) ∧
    (∀ (buffer : Bytes) (incoming : Incoming) (lengthPrefix rest : Bytes), incoming.Steady →
      incoming.bytes = lengthPrefix ++ rest → lengthPrefix.length = kLengthPrefixSize →
      (loadBeU32 lengthPrefix < kMinFrameSize ∨ kMaxFrameSize < loadBeU32 lengthPrefix) →
        ∃ later : Incoming, readFrame buffer incoming =
            (⟨.oversized, none, loadBeU32 lengthPrefix⟩, buffer, later) ∧ later.bytes = rest) ∧
    (∀ (buffer : Bytes) (incoming : Incoming), (readFrame buffer incoming).2.1 = buffer ∨
      (readFrame buffer incoming).2.1.length ≤ kMaxFrameSize.toNat) := by
  refine ⟨Write.perform_message, ?_, ?_, readFrame_buffer⟩
  · intro writes answers framable willing
    obtain ⟨succeed, sent⟩ := Write.performAll_willing writes framable ⟨[], answers⟩ willing
    refine ⟨succeed, ?_⟩
    intro cut incoming steady split buffer calls enough
    rw [sent, List.nil_append] at split
    have framables : ∀ body ∈ writes.map Write.body, Framable body := by
      intro body member
      obtain ⟨write, among, rfl⟩ := List.mem_map.mp member
      exact framable write among
    exact readFrames_delivered framables buffer cut steady split (by rwa [List.length_map])
  · intro buffer incoming lengthPrefix rest steady split four outside
    exact readFrame_oversized buffer steady split four outside

/-- A frame and a message, of which the peer sees one and a byte. -/
def frameAndMessage : List Write :=
  [.frame [1, 2], .message (.request (⟨7, .getStats⟩ : Request UInt64))]

/-- A stream that breaks off inside its second frame. -/
theorem frames_recovered_cut :
    readFrames 3 [] [.chunk 0 [0], .failed .eintr, .chunk 0 [2, 1, 2, 0]] =
      ([[1, 2]], .truncated) := by
  have framable : ∀ write ∈ frameAndMessage, Framable write.body := by
    intro write member
    rcases List.mem_pair.mp member with rfl | rfl
    · exact ⟨by decide, by decide⟩
    · exact ⟨by decide +kernel, by decide +kernel⟩
  have willing : Willing [.takes 1, .failed .eintr] := by
    intro answer member
    rcases List.mem_pair.mp member with rfl | rfl
    · exact Or.inr ⟨0, rfl⟩
    · exact Or.inl rfl
  have steady : Incoming.Steady [.chunk 0 [0], .failed .eintr, .chunk 0 [2, 1, 2, 0]] := by
    intro errno member
    simpa using member
  have whole : delivered (frameAndMessage.map Write.body) 7 = ([[1, 2]], 1) := by decide +kernel
  have read := (frames_recovered.2.1 frameAndMessage _ framable willing).2 7 _ steady
    (by decide +kernel) [] 3 (by decide)
  rw [whole] at read
  exact read

end Lrd.Proto
