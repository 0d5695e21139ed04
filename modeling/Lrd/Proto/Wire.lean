import Lrd.Foundation.BigEndian
import Lrd.Foundation.Cursor
import Lrd.Rank.Item

/-!
# The byte writer and the byte reader

`ByteWriter` and `ByteReader` (`proto/wire.cpp`). A writer appends to the buffer it
is given (`Appends`). A reader is a cursor over a received body: integers are
big-endian, strings carry their length in front, and running out of input sets a
flag that stays set (`Foundation.Reads`).
-/

namespace Lrd.Proto

open Foundation

/-! ## Writing -/

/-- Code that writes to a buffer. -/
abbrev ByteWriter : Type := StateM Bytes Unit

namespace ByteWriter

/-- One byte. -/
def u8 (value : UInt8) : ByteWriter := modify (· ++ [value])

/-- Push the bytes of a value of the given width, the highest first. -/
def appendBe (width value : Nat) : ByteWriter :=
  (List.range width).forM fun i => u8 (UInt8.ofNat (value >>> ((width - 1 - i) * 8)))

/-- A word of 16 bits, high byte first. -/
def u16 (value : UInt16) : ByteWriter := appendBe 2 value.toNat

/-- A word of 32 bits, high byte first. -/
def u32 (value : UInt32) : ByteWriter := appendBe 4 value.toNat

/-- A word of 64 bits, high byte first. -/
def u64 (value : UInt64) : ByteWriter := appendBe 8 value.toNat

/-- Bytes as they are. -/
def bytes (value : Bytes) : ByteWriter := modify (· ++ value)

/-- The length in 32 bits, then the bytes; a longer length loses its high bits. -/
def string (value : Bytes) : ByteWriter := do
  u32 (UInt32.ofNat value.length)
  bytes value

end ByteWriter

/-- The writer leaves the buffer as it was and the given bytes after it. -/
def Appends (writer : ByteWriter) (printed : Bytes) : Prop :=
  ∀ out, writer out = ((), out ++ printed)

namespace Appends

theorem u8 (value : UInt8) : Appends (ByteWriter.u8 value) [value] := fun _ => rfl

theorem bytes (value : Bytes) : Appends (ByteWriter.bytes value) value := fun _ => rfl

/-- A writer that does nothing appends nothing. -/
theorem nothing : Appends (pure ()) [] := by
  intro out
  rw [List.append_nil]
  rfl

/-- Two writers append one after the other. -/
theorem seq {first second : ByteWriter} {front back : Bytes} (firstAppends : Appends first front)
    (secondAppends : Appends second back) : Appends (do first; second) (front ++ back) := by
  intro out
  change second (first out).2 = _
  rw [firstAppends out, secondAppends, List.append_assoc]

theorem congr {writer : ByteWriter} {printed printed' : Bytes} (appends : Appends writer printed)
    (same : printed = printed') : Appends writer printed' :=
  same ▸ appends

/-- Written out one after another, the values of a list are appended in their order. -/
theorem forM {α : Type} {values : List α} {writer : α → ByteWriter} {printed : α → Bytes}
    (each : ∀ value ∈ values, Appends (writer value) (printed value)) :
    Appends (values.forM writer) (values.flatMap printed) := by
  induction values with
  | nil => exact nothing
  | cons value values ih =>
      refine seq (each value List.mem_cons_self) (ih fun other member => ?_)
      exact each other (List.mem_cons_of_mem _ member)

/-- The writer's loop over the bytes of a word prints it in base 256. -/
theorem appendBe (width value : Nat) :
    Appends (ByteWriter.appendBe width value) (bigEndian width value) := by
  rw [bigEndian, List.map_eq_flatMap]
  exact forM fun _ _ => u8 _

end Appends

/-- The bytes of a word of 16 bits. -/
def u16Bytes (value : UInt16) : Bytes := bigEndian 2 value.toNat

/-- The bytes of a word of 32 bits. -/
def u32Bytes (value : UInt32) : Bytes := bigEndian 4 value.toNat

/-- The bytes of a word of 64 bits. -/
def u64Bytes (value : UInt64) : Bytes := bigEndian 8 value.toNat

/-- A string on the wire: its length, as far as the prefix can hold it, and its
bytes. -/
def stringBytes (value : Bytes) : Bytes := u32Bytes (UInt32.ofNat value.length) ++ value

theorem length_stringBytes (value : Bytes) : (stringBytes value).length = 4 + value.length := by
  rw [stringBytes, u32Bytes, List.length_append, length_bigEndian]

namespace Appends

theorem u16 (value : UInt16) : Appends (ByteWriter.u16 value) (u16Bytes value) :=
  appendBe 2 value.toNat

theorem u32 (value : UInt32) : Appends (ByteWriter.u32 value) (u32Bytes value) :=
  appendBe 4 value.toNat

theorem u64 (value : UInt64) : Appends (ByteWriter.u64 value) (u64Bytes value) :=
  appendBe 8 value.toNat

theorem string (value : Bytes) : Appends (ByteWriter.string value) (stringBytes value) :=
  seq (u32 _) (bytes value)

end Appends

/-! ## Reading -/

namespace ByteReader

variable {data : Bytes}

/-- Whether a read has failed. -/
def failed : Reader data Bool := Cursor.hasFailed

/-- One byte, or zero after a failure. -/
def u8 : Reader data UInt8 := Cursor.fetch 1 0 fun bytes => UInt8.ofNat (ofBigEndian bytes)

/-- A word of 16 bits, or zero after a failure. -/
def u16 : Reader data UInt16 := Cursor.fetch 2 0 fun bytes => UInt16.ofNat (ofBigEndian bytes)

/-- A word of 32 bits, or zero after a failure. -/
def u32 : Reader data UInt32 := Cursor.fetch 4 0 fun bytes => UInt32.ofNat (ofBigEndian bytes)

/-- A word of 64 bits, or zero after a failure. -/
def u64 : Reader data UInt64 := Cursor.fetch 8 0 fun bytes => UInt64.ofNat (ofBigEndian bytes)

/-- As many bytes as asked for, or none after a failure. -/
def bytes (count : Nat) : Reader data Bytes := Cursor.fetch count [] id

/-- A length and as many bytes; after a failure the length is not used. -/
def string : Reader data Bytes := do
  let length ← u32
  if ← failed then return []
  else bytes length.toNat

end ByteReader

section Reads

variable {ε : Type} {data : Bytes}

/-- An unsigned integer of a fixed width. -/
theorem reads_word {α : Type} (width : Nat) (zero : α) (toNat : α → Nat) (ofNat : Nat → α)
    (fits : ∀ value, toNat value < 256 ^ width) (left : ∀ value, ofNat (toNat value) = value)
    (right : ∀ n, n < 256 ^ width → toNat (ofNat n) = n) :
    Reads (.ofReader (Cursor.fetch width zero fun bytes => ofNat (ofBigEndian bytes)) :
      Parser ε data α) (fun value => bigEndian width (toNat value)) (fun _ => True) := by
  refine Reads.fetch zero ?_ ?_
  · intro value _
    refine ⟨length_bigEndian .., ?_⟩
    rw [ofBigEndian_bigEndian (fits value), left]
  · intro bytes length
    refine ⟨trivial, ?_⟩
    have bound := ofBigEndian_lt bytes
    rw [length] at bound
    rw [right _ bound, ← length, bigEndian_ofBigEndian]

/-- A byte is read back. -/
theorem reads_u8 :
    Reads (.ofReader ByteReader.u8 : Parser ε data UInt8) (fun value => [value])
      (fun _ => True) := by
  have single : (fun value : UInt8 => [value]) = fun value => bigEndian 1 value.toNat := by
    funext value
    change [value] = [UInt8.ofNat value.toNat]
    rw [UInt8.ofNat_toNat]
  rw [single]
  exact reads_word 1 0 UInt8.toNat UInt8.ofNat UInt8.toNat_lt (fun _ => UInt8.ofNat_toNat)
    fun _ bound => UInt8.toNat_ofNat_of_lt' bound

theorem reads_u16 :
    Reads (.ofReader ByteReader.u16 : Parser ε data UInt16) u16Bytes (fun _ => True) :=
  reads_word 2 0 UInt16.toNat UInt16.ofNat UInt16.toNat_lt (fun _ => UInt16.ofNat_toNat)
    fun _ bound => UInt16.toNat_ofNat_of_lt' bound

theorem reads_u32 :
    Reads (.ofReader ByteReader.u32 : Parser ε data UInt32) u32Bytes (fun _ => True) :=
  reads_word 4 0 UInt32.toNat UInt32.ofNat UInt32.toNat_lt (fun _ => UInt32.ofNat_toNat)
    fun _ bound => UInt32.toNat_ofNat_of_lt' bound

theorem reads_u64 :
    Reads (.ofReader ByteReader.u64 : Parser ε data UInt64) u64Bytes (fun _ => True) :=
  reads_word 8 0 UInt64.toNat UInt64.ofNat UInt64.toNat_lt (fun _ => UInt64.ofNat_toNat)
    fun _ bound => UInt64.toNat_ofNat_of_lt' bound

/-- Bytes are read back when their number is known. -/
theorem reads_bytes (count : Nat) :
    Reads (.ofReader (ByteReader.bytes count) : Parser ε data Bytes) (fun value => value)
      (fun value => value.length = count) := by
  refine Reads.fetch [] ?_ ?_
  · exact fun value length => ⟨length, rfl⟩
  · exact fun bytes length => ⟨length, rfl⟩

/-- A string is read back if its length fits in its prefix. -/
theorem reads_string :
    Reads (.ofReader ByteReader.string : Parser ε data Bytes) stringBytes
      (fun value => value.length < 2 ^ 32) := by
  rw [ByteReader.string, Parser.ofReader_bind]
  refine Reads.bind reads_u32 (fun value : Bytes => UInt32.ofNat value.length) ?_
    fun _ _ => trivial
  intro length
  simp only [Parser.ofReader_bind, Parser.ofReader_ite]
  refine Reads.unlessFailed ?_ fun _ => rfl
  refine (reads_bytes length.toNat).congr (fun _ => rfl) fun value => ⟨?_, ?_⟩
  · intro same
    refine ⟨?_, ?_⟩
    · rw [same]
      exact length.toNat_lt
    · rw [same, UInt32.ofNat_toNat]
  · rintro ⟨fits, rfl⟩
    exact (UInt32.toNat_ofNat_of_lt' fits).symm

end Reads

end Lrd.Proto
