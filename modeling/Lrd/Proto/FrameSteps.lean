import Lrd.Foundation.Frames
import Lrd.Proto.Framing

/-!
# Frames call by call

What `read_frame` asks of the socket next, given what it has got so far, and the frames
of this protocol as a `Foundation.Framing`. `readFrame_progress` and
`writeMessage_progress` say that the functions of `proto/framing.cpp` read and write
exactly along these steps, whatever the socket does.
-/

namespace Lrd.Proto

open Foundation Net

/-- How far `read_frame` has come: within the length, refused by the length, within the
body or at its end. -/
def progress (got : Bytes) : Progress UInt8 :=
  if got.length < kLengthPrefixSize then .wants (kLengthPrefixSize - got.length)
  else
    let length := loadBeU32 (got.take kLengthPrefixSize)
    if length < kMinFrameSize ∨ kMaxFrameSize < length then .broken
    else if got.length < kLengthPrefixSize + length.toNat then
      .wants (kLengthPrefixSize + length.toNat - got.length)
    else .whole (got.drop kLengthPrefixSize)

/-- Behind a good length, the body is read. -/
theorem progress_body {body got : Bytes} (framable : Framable body) :
    progress (u32Bytes (UInt32.ofNat body.length) ++ got) =
      if got.length < body.length then .wants (body.length - got.length) else .whole got := by
  have four := length_u32Bytes (UInt32.ofNat body.length)
  have long : ¬ kLengthPrefixSize + got.length < kLengthPrefixSize := by omega
  rw [progress, List.length_append, four, if_neg long, List.take_append, four, Nat.sub_self,
    List.take_zero, List.append_nil, List.take_of_length_le four.le, loadBeU32_u32Bytes,
    List.drop_append, four, Nat.sub_self, List.drop_zero, List.drop_of_length_le four.le,
    List.nil_append]
  simp only [if_neg framable.inRange, framable.toNat_length, Nat.add_lt_add_iff_left,
    Nat.add_sub_add_left]

theorem progress_frameBytes {body : Bytes} (framable : Framable body) :
    progress (frameBytes body) = .whole body := by
  rw [frameBytes, progress_body framable, if_neg (Nat.lt_irrefl _)]

/-- A front part of a frame wants more. -/
theorem progress_part {body got rest : Bytes} (framable : Framable body)
    (split : frameBytes body = got ++ rest) (some : rest ≠ []) :
    ∃ missing, progress got = .wants missing := by
  have four := length_u32Bytes (UInt32.ofNat body.length)
  have positive : 0 < rest.length := List.length_pos_iff.mpr some
  have sizes := congrArg List.length split
  rw [length_frameBytes, List.length_append] at sizes
  by_cases short : got.length < kLengthPrefixSize
  · refine ⟨kLengthPrefixSize - got.length, ?_⟩
    rw [progress, if_pos short]
  · obtain ⟨more, rfl⟩ : u32Bytes (UInt32.ofNat body.length) <+: got := by
      refine List.prefix_of_prefix_length_le ⟨body, rfl⟩ ⟨rest, split.symm⟩ ?_
      omega
    rw [List.length_append, four] at sizes
    have within : more.length < body.length := by omega
    refine ⟨body.length - more.length, ?_⟩
    rw [progress_body framable, if_pos within]

/-- The frames of this protocol. -/
def lengthPrefixed : Framing UInt8 where
  Valid := Framable
  frame := frameBytes
  progress := progress
  progress_frame := progress_frameBytes
  progress_part := progress_part

/-! ## Reading -/

/-- A failed call is not a success. -/
theorem status_ofErrno_ne (errno : Errno) (transferred : Nat) :
    (IoResult.ofErrno errno transferred).status ≠ .ok := by
  rw [IoResult.ofErrno]
  split
  · nofun
  · nofun

/-- However the bytes arrive, a read takes what it has got from the front of them, and
it succeeds exactly if that is all it asked for. -/
theorem readLoop_taken {size : Nat} (got : Bytes) (room : got.length ≤ size)
    (incoming : Incoming) :
    ∃ taken, (readLoop size got incoming).2.1 = got ++ taken ∧
      incoming.bytes = taken ++ (readLoop size got incoming).2.2.bytes ∧
      (got ++ taken).length ≤ size ∧
      ((readLoop size got incoming).1.status = .ok ↔ (got ++ taken).length = size) := by
  have full : ∀ got : Bytes, got.length ≤ size → ¬ got.length < size → ∀ arrivals : Incoming,
      ∃ taken : Bytes, got = got ++ taken ∧ arrivals.bytes = taken ++ arrivals.bytes ∧
        (got ++ taken).length ≤ size ∧ (IoStatus.ok = .ok ↔ (got ++ taken).length = size) := by
    intro got room enough arrivals
    refine ⟨[], (List.append_nil _).symm, rfl, ?_⟩
    simp only [List.append_nil, true_iff]
    omega
  induction incoming generalizing got with
  | nil =>
      unfold readLoop
      split
      · rename_i missing
        refine ⟨[], (List.append_nil _).symm, rfl, ?_⟩
        simp [room, missing.ne]
      · rename_i enough
        exact full got room enough []
  | cons arrival later ih =>
      unfold readLoop
      split
      · rename_i missing
        cases arrival with
        | chunk first more =>
            by_cases fits : got.length + (first :: more).length ≤ size
            · have within : (got ++ first :: more).length ≤ size := by
                rw [List.length_append]
                exact fits
              obtain ⟨taken, read, arrived, bounded, complete⟩ := ih _ within
              simp only [if_pos fits]
              refine ⟨first :: more ++ taken, ?_, ?_, ?_, ?_⟩
              · rw [read, List.append_assoc]
              · rw [Incoming.bytes, arrived, List.append_assoc]
              · rw [← List.append_assoc]
                exact bounded
              · rw [← List.append_assoc]
                exact complete
            · have room' : size - got.length ≤ (first :: more).length := by omega
              simp only [if_neg fits]
              refine ⟨_, rfl, ?_, ?_⟩
              · rw [Incoming.bytes_putBack, ← List.append_assoc, List.take_append_drop]
                rfl
              · rw [List.length_append, List.length_take, Nat.min_eq_left room']
                simp only [true_iff]
                omega
        | failed errno =>
            by_cases again : errno = .eintr
            · simp only [if_pos again]
              exact ih got room
            · simp only [if_neg again]
              refine ⟨[], (List.append_nil _).symm, rfl, ?_⟩
              simp [room, missing.ne, status_ofErrno_ne]
      · rename_i enough
        exact full got room enough _

/-- What a read has taken is a front part of what was there, all of it exactly on success. -/
theorem readExact_taken {size : Nat} {incoming later : Incoming} {io : IoResult} {got : Bytes}
    (read : readExact size incoming = (io, got, later)) :
    incoming.bytes = got ++ later.bytes ∧ got.length ≤ size ∧
      (io.status = .ok ↔ got.length = size) := by
  obtain ⟨taken, fetched, split, bounded, complete⟩ :=
    readLoop_taken [] (Nat.zero_le size) incoming
  rw [← readExact, read] at fetched split complete
  obtain rfl : got = taken := fetched
  exact ⟨split, bounded, complete⟩

/-- A transfer that did not succeed is a failure of the frame, but not of its length. -/
theorem fromIo_failed {io : IoResult} (failed : io.status ≠ .ok) :
    (fromIo io).status ≠ .ok ∧ (fromIo io).status ≠ .oversized := by
  unfold fromIo
  split
  · rename_i isOk
    exact absurd isOk failed
  · simp only
    split <;> decide
  · exact ⟨nofun, nofun⟩
  · exact ⟨nofun, nofun⟩

/-- What `read_frame` takes from the stream is a whole frame if it succeeds. It fails on a
length out of range as soon as it has the length, and otherwise only if the stream does
while something is missing. -/
theorem readFrame_progress (buffer : Bytes) (incoming : Incoming) :
    ∃ taken, incoming.bytes = taken ++ (readFrame buffer incoming).2.2.bytes ∧
      match progress taken with
      | .whole body =>
          (readFrame buffer incoming).1.status = .ok ∧ (readFrame buffer incoming).2.1 = body
      | .broken => (readFrame buffer incoming).1.status = .oversized
      | .wants _ =>
          (readFrame buffer incoming).1.status ≠ .ok ∧
            (readFrame buffer incoming).1.status ≠ .oversized := by
  unfold readFrame
  rcases readHeader : readExact kLengthPrefixSize incoming with ⟨headerIo, lengthPrefix, later⟩
  obtain ⟨split, bounded, complete⟩ := readExact_taken readHeader
  simp only
  by_cases failed : headerIo.status ≠ .ok
  · refine ⟨lengthPrefix, ?_⟩
    have short : lengthPrefix.length < kLengthPrefixSize :=
      lt_of_le_of_ne bounded fun same => failed (complete.mpr same)
    rw [if_pos failed, progress, if_pos short]
    exact ⟨split, fromIo_failed failed⟩
  have four : lengthPrefix.length = kLengthPrefixSize := complete.mp (not_not.mp failed)
  have long : ∀ more : Bytes, ¬ (lengthPrefix ++ more).length < kLengthPrefixSize := by
    intro more
    rw [List.length_append]
    omega
  have front : ∀ more : Bytes, (lengthPrefix ++ more).take kLengthPrefixSize = lengthPrefix := by
    intro more
    rw [← four, List.take_left]
  rw [if_neg failed]
  by_cases outside : loadBeU32 lengthPrefix < kMinFrameSize ∨ kMaxFrameSize < loadBeU32 lengthPrefix
  · refine ⟨lengthPrefix ++ [], ?_⟩
    rw [if_pos outside, progress, if_neg (long []), front]
    simp only [if_pos outside, List.append_nil]
    exact ⟨split, trivial⟩
  · rw [if_neg outside, length_resize]
    rcases readBody : readExact (loadBeU32 lengthPrefix).toNat later with ⟨bodyIo, got, rest⟩
    obtain ⟨split', bounded', complete'⟩ := readExact_taken readBody
    refine ⟨lengthPrefix ++ got, ?_⟩
    rw [progress, if_neg (long got), front]
    simp only [if_neg outside, List.length_append, four, Nat.add_lt_add_iff_left]
    by_cases cut : bodyIo.status ≠ .ok
    · have short : got.length < (loadBeU32 lengthPrefix).toNat :=
        lt_of_le_of_ne bounded' fun same => cut (complete'.mpr same)
      rw [if_pos cut, if_pos short]
      refine ⟨?_, ?_⟩
      · rw [split, split', List.append_assoc]
      · simp only
        split
        · exact ⟨nofun, nofun⟩
        · exact fromIo_failed cut
    · have full : got.length = (loadBeU32 lengthPrefix).toNat := complete'.mp (not_not.mp cut)
      have nothing : (resize buffer (loadBeU32 lengthPrefix).toNat).drop got.length = [] := by
        apply List.drop_of_length_le
        rw [length_resize, full]
      rw [if_neg cut, if_neg full.not_lt, nothing, List.append_nil, ← four, List.drop_left]
      refine ⟨?_, rfl, rfl⟩
      rw [split, split', List.append_assoc]

/-! ## Writing -/

/-- A write sends its data from the front, and it succeeds exactly if it sends all. -/
theorem writeLoop_taken (data : Bytes) (transferred : Nat) (sent : Bytes) (answers : List Answer) :
    ∃ count, (writeLoop data transferred sent answers).2.sent =
        sent ++ (data.drop transferred).take count ∧
      ((writeLoop data transferred sent answers).1.status = .ok ↔
        (data.drop transferred).length ≤ count) := by
  have unsent : ∀ (transferred : Nat) (sent : Bytes), transferred < data.length → ∃ count,
      sent = sent ++ (data.drop transferred).take count ∧
        ¬ (data.drop transferred).length ≤ count := by
    intro transferred sent missing
    refine ⟨0, ?_, ?_⟩
    · rw [List.take_zero, List.append_nil]
    · rw [List.length_drop]
      omega
  induction answers generalizing transferred sent with
  | nil =>
      unfold writeLoop
      refine ⟨(data.drop transferred).length, ?_⟩
      rw [List.take_length]
      split
      · exact ⟨rfl, by simp only [le_refl]⟩
      · rename_i enough
        rw [List.drop_of_length_le (Nat.not_lt.mp enough), List.append_nil]
        exact ⟨rfl, by simp only [le_refl]⟩
  | cons answer later ih =>
      unfold writeLoop
      split
      · rename_i missing
        obtain ⟨none, kept, unfinished⟩ := unsent transferred sent missing
        cases answer with
        | takes taken =>
            by_cases some : 0 < taken
            · obtain ⟨count, wrote, complete⟩ :=
                ih (transferred + min taken (data.length - transferred))
                  (sent ++ (data.drop transferred).take taken)
              simp only [if_pos some]
              refine ⟨min taken (data.length - transferred) + count, ?_, ?_⟩
              · rw [wrote, List.append_assoc, List.take_add, List.drop_drop,
                  ← List.length_drop, List.take_eq_take_min]
              · rw [complete, List.length_drop, List.length_drop]
                omega
            · simp only [if_neg some]
              exact ⟨none, kept, iff_of_false (by simp) unfinished⟩
        | failed errno =>
            by_cases again : errno = .eintr
            · simp only [if_pos again]
              exact ih transferred sent
            by_cases gone : errno = .epipe
            · simp only [if_neg again, if_pos gone]
              exact ⟨none, kept, iff_of_false (by simp) unfinished⟩
            · simp only [if_neg again, if_neg gone]
              exact ⟨none, kept, iff_of_false (status_ofErrno_ne _ _) unfinished⟩
      · rename_i enough
        refine ⟨0, ?_⟩
        rw [List.drop_of_length_le (Nat.not_lt.mp enough), List.take_nil, List.append_nil]
        exact ⟨rfl, by simp⟩

/-- What `write_message` sends is a front part of the frame, and it succeeds exactly if
the body can be framed and the whole frame is sent. -/
theorem writeMessage_progress (encoder : Encoder) (outgoing : Outgoing) :
    ∃ count, (writeMessage encoder outgoing).2.2.sent =
        outgoing.sent ++ (frameBytes encoder.body).take count ∧
      ((writeMessage encoder outgoing).1.status = .ok ↔
        Framable encoder.body ∧ (frameBytes encoder.body).length ≤ count) := by
  have same := Write.perform_message encoder outgoing
  have result : (writeMessage encoder outgoing).1 = (writeFrame encoder.body outgoing).1 :=
    congrArg Prod.fst same
  have after : (writeMessage encoder outgoing).2.2 = (writeFrame encoder.body outgoing).2 :=
    congrArg Prod.snd same
  rw [result, after, writeFrame]
  by_cases outside : encoder.body.length < kMinFrameSize.toNat ∨
      kMaxFrameSize.toNat < encoder.body.length
  · refine ⟨0, ?_⟩
    have unframable : ¬ Framable encoder.body := by
      rw [Framable]
      omega
    simp only [if_pos outside, List.take_zero, List.append_nil, unframable, false_and, iff_false,
      true_and]
    intro ok
    cases ok
  · have framable : Framable encoder.body := by
      rw [Framable]
      omega
    obtain ⟨count, sent, complete⟩ :=
      writeLoop_taken (frameBytes encoder.body) 0 outgoing.sent outgoing.answers
    rw [List.drop_zero] at sent complete
    refine ⟨count, ?_⟩
    rw [if_neg outside]
    change (writeAll (frameBytes encoder.body) outgoing).2.sent = _ ∧
      ((fromIo (writeAll (frameBytes encoder.body) outgoing).1).status = .ok ↔ _)
    rw [writeAll, sent, ← complete]
    refine ⟨rfl, ?_⟩
    simp only [framable, true_and]
    rcases writeLoop (frameBytes encoder.body) 0 outgoing.sent outgoing.answers with ⟨io, _⟩
    by_cases ok : io.status = .ok
    · simp [fromIo, ok]
    · simp [ok, (fromIo_failed ok).1]

end Lrd.Proto
