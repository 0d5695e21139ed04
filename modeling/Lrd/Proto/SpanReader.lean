import Lrd.Foundation.Machine
import Lrd.Proto.Wire
import Mathlib.Data.List.Forall2

/-!
# The byte reader in its buffer

`ByteReader` (`proto/wire.cpp`) as it runs: sizes and positions are machine words, `remaining`
is a subtraction that could wrap around, and a byte is fetched by its index. An access outside
of the buffer has no result. Lengths of strings are numbers that a peer chose.

The reader runs like a cursor that cannot leave its input (`Refines`). So no access is outside,
whatever is called in whatever order, and what is read are consecutive slices of the buffer
(`reader_stays_inside`).
-/

namespace Lrd.Proto

open Foundation

/-- A view of bytes in memory, as many as a machine word can count. -/
structure ByteView where
  bytes : Bytes
  fits : bytes.length < 2 ^ 64

namespace ByteView

variable (data : ByteView)

/-- The number of bytes as the source's `size_t`. -/
def size : UInt64 := UInt64.ofNat data.bytes.length

theorem toNat_size : data.size.toNat = data.bytes.length := UInt64.toNat_ofNat_of_lt' data.fits

/-- `data[index]`. -/
def at? (index : UInt64) : Option UInt8 := data.bytes[index.toNat]?

/-- The bytes from a position on. -/
def subspan? (pos count : UInt64) : Option Bytes :=
  if pos ≤ data.size ∧ count ≤ data.size - pos then
    some ((data.bytes.drop pos.toNat).take count.toNat)
  else none

/-- An unsigned integer of the given size. -/
def loadBe (size : Nat) (pos : UInt64) : Option (BitVec (8 * size)) :=
  (List.range size).foldlM (fun value i => do
    let byte ← data.at? (pos + UInt64.ofNat i)
    return (value <<< 8) ||| byte.toBitVec.setWidth (8 * size)) 0

end ByteView

/-! ## The reader -/

/-- The fields of `ByteReader`. -/
structure SpanReader (data : ByteView) where
  pos : UInt64 := 0
  failed : Bool := false

/-- Code that reads from a view. It has no result if it leaves the view. -/
abbrev Access (data : ByteView) : Type → Type := StateT (SpanReader data) Option

namespace SpanReader

variable {data : ByteView}

/-- How many bytes are left, in `size_t`. -/
def remaining (reader : SpanReader data) : UInt64 := data.size - reader.pos

/-- Whether so many bytes are left; once they are not, no read succeeds any more. -/
def need (count : UInt64) : Access data Bool := fun reader =>
  if reader.failed then some (false, reader)
  else if reader.remaining < count then some (false, { reader with failed := true })
  else some (true, reader)

/-- What the reads have in common: a value from the given number of bytes, or nothing. -/
def fetch {α : Type} (count : UInt64) (nothing : α) (load : UInt64 → Option α) : Access data α := do
  if ← need count then
    let value ← load (← get).pos
    modify fun reader => { reader with pos := reader.pos + count }
    return value
  else return nothing

section Fetch

variable {α : Type} {count : UInt64} (nothing : α) {load : UInt64 → Option α}
  {reader : SpanReader data}

/-- After a failure nothing is read. -/
theorem fetch_failed (failed : reader.failed = true) :
    fetch count nothing load reader = some (nothing, reader) := by
  change (need count reader).bind _ = _
  simp only [need, failed, ↓reduceIte]
  rfl

/-- A read beyond the end fails. -/
theorem fetch_short (sound : reader.failed = false) (short : reader.remaining < count) :
    fetch count nothing load reader = some (nothing, { reader with failed := true }) := by
  change (need count reader).bind _ = _
  simp only [need, sound, Bool.false_eq_true, short, ↓reduceIte]
  rfl

/-- A read inside the view returns what is there and moves on. -/
theorem fetch_enough (sound : reader.failed = false) (enough : ¬ reader.remaining < count)
    {value : α} (loaded : load reader.pos = some value) :
    fetch count nothing load reader =
      some (value, { reader with pos := reader.pos + count }) := by
  have granted : need count reader = some (true, reader) := by
    simp only [need, sound, Bool.false_eq_true, enough, ↓reduceIte]
  change (need count reader).bind _ = _
  rw [granted]
  change ((load reader.pos).bind _).bind _ = _
  rw [loaded]
  rfl

end Fetch

/-- `ByteReader::u8`. -/
def u8 : Access data UInt8 := fetch 1 0 data.at?

/-- `ByteReader::u16`. -/
def u16 : Access data UInt16 := fetch 2 0 fun pos => (data.loadBe 2 pos).map UInt16.ofBitVec

/-- `ByteReader::u32`. -/
def u32 : Access data UInt32 := fetch 4 0 fun pos => (data.loadBe 4 pos).map UInt32.ofBitVec

/-- `ByteReader::u64`. -/
def u64 : Access data UInt64 := fetch 8 0 fun pos => (data.loadBe 8 pos).map UInt64.ofBitVec

/-- `ByteReader::bytes`. -/
def bytes (count : UInt64) : Access data Bytes := fetch count [] fun pos => data.subspan? pos count

/-- `ByteReader::string`. -/
def string : Access data Bytes := do
  let length ← u32
  if (← get).failed then return []
  else fetch length.toUInt64 [] fun pos => data.subspan? pos length.toUInt64

end SpanReader

/-! ## Readers and cursors -/

section Refinement

variable {data : ByteView} {α β : Type}

/-- The reader stands where the cursor stands. -/
structure Represents (reader : SpanReader data) (cursor : Cursor data.bytes) : Prop where
  pos : reader.pos.toNat = cursor.pos
  failed : reader.failed = cursor.failed

/-- The access stays inside of the view and does what the cursor's reader does. -/
def Refines (access : Access data α) (reader : Reader data.bytes α) : Prop :=
  ∀ ⦃here : SpanReader data⦄ ⦃cursor : Cursor data.bytes⦄, Represents here cursor →
    ∃ after, access here = some ((reader cursor).1, after) ∧ Represents after (reader cursor).2

/-- Refinement is kept by sequencing. -/
theorem Refines.bind {access : Access data α} {reader : Reader data.bytes α}
    {next : α → Access data β} {nextReader : α → Reader data.bytes β}
    (first : Refines access reader) (second : ∀ value, Refines (next value) (nextReader value)) :
    Refines (access >>= next) (reader >>= nextReader) := by
  intro here cursor represents
  obtain ⟨middle, accessed, between⟩ := first represents
  obtain ⟨after, continued, still⟩ := second _ between
  refine ⟨after, ?_, still⟩
  change (access here).bind _ = _
  rw [accessed]
  exact continued

theorem Refines.pure (value : α) : Refines (pure value : Access data α) (pure value) :=
  fun _ _ represents => ⟨_, rfl, represents⟩

/-- Refinement is kept by a function on the result. -/
theorem Refines.map {access : Access data α} {reader : Reader data.bytes α}
    (refines : Refines access reader) (f : α → β) : Refines (f <$> access) (f <$> reader) := by
  rw [map_eq_pure_bind, map_eq_pure_bind]
  exact refines.bind fun value => Refines.pure (f value)

/-- What is left is the distance to the end. -/
theorem Represents.remaining {reader : SpanReader data} {cursor : Cursor data.bytes}
    (represents : Represents reader cursor) :
    reader.remaining.toNat = data.bytes.length - reader.pos.toNat := by
  rw [SpanReader.remaining, UInt64.toNat_sub_of_le, data.toNat_size]
  rw [UInt64.le_iff_toNat_le, data.toNat_size, represents.pos]
  exact cursor.inside

/-- A value that is loaded from a slice of the view is fetched like the cursor's. -/
theorem Refines.fetch {count : UInt64} {nothing : α} {load : UInt64 → Option α}
    {decode : Bytes → α}
    (loads : ∀ pos : UInt64, pos.toNat + count.toNat ≤ data.bytes.length →
      load pos = some (decode ((data.bytes.drop pos.toNat).take count.toNat))) :
    Refines (SpanReader.fetch count nothing load : Access data α)
      (Cursor.fetch count.toNat nothing decode) := by
  intro here cursor represents
  have left := represents.remaining
  rw [represents.pos] at left
  have inside := cursor.inside
  rw [Cursor.fetch_eq]
  unfold Cursor.take
  cases state : cursor.failed with
  | true =>
      exact ⟨here, SpanReader.fetch_failed _ (represents.failed.trans state), represents⟩
  | false =>
      have sound : here.failed = false := represents.failed.trans state
      by_cases short : here.remaining < count
      · have few : cursor.remaining < count.toNat := by
          rw [Cursor.remaining, ← left]
          exact UInt64.lt_iff_toNat_lt.mp short
        simp only [Bool.false_eq_true, ↓reduceIte, few, ↓reduceDIte]
        exact ⟨_, SpanReader.fetch_short _ sound short, represents.pos, rfl⟩
      · have many : ¬ cursor.remaining < count.toNat := by
          rw [Cursor.remaining, ← left]
          exact fun less => short (UInt64.lt_iff_toNat_lt.mpr less)
        simp only [Bool.false_eq_true, ↓reduceIte, many, ↓reduceDIte]
        have slice : here.pos.toNat + count.toNat ≤ data.bytes.length := by
          rw [represents.pos]
          rw [Cursor.remaining] at many
          omega
        have loaded := loads here.pos slice
        rw [represents.pos] at loaded
        refine ⟨_, SpanReader.fetch_enough _ sound short loaded, ?_, sound⟩
        have fits := data.fits
        rw [UInt64.toNat_add, Nat.mod_eq_of_lt (Nat.lt_of_le_of_lt slice fits), represents.pos]

/-! ### Loads -/

/-- An access inside the view finds the byte of the list. -/
theorem at?_slice {pos : UInt64} {i : Nat} (inside : pos.toNat + i < data.bytes.length) :
    data.at? (pos + UInt64.ofNat i) = (data.bytes.drop pos.toNat)[i]? := by
  have fits := data.fits
  have index : (pos + UInt64.ofNat i).toNat = pos.toNat + i := by
    rw [UInt64.toNat_add, UInt64.toNat_ofNat', Nat.add_mod_mod, Nat.mod_eq_of_lt]
    omega
  rw [ByteView.at?, index, List.getElem?_drop]

/-- A word inside the view is that of the bytes of the list. -/
theorem loadBe_slice {size : Nat} {pos : UInt64}
    (inside : pos.toNat + size ≤ data.bytes.length) :
    data.loadBe size pos = some (BitVec.ofNat (8 * size)
      (ofBigEndian ((data.bytes.drop pos.toNat).take size))) := by
  -- Induction on how many bytes have been loaded, in a word of the final size.
  have loaded : ∀ count, count ≤ size →
      (List.range count).foldlM (fun (value : BitVec (8 * size)) i => do
        let byte ← data.at? (pos + UInt64.ofNat i)
        return (value <<< 8) ||| byte.toBitVec.setWidth (8 * size)) 0 =
      some (BitVec.ofNat (8 * size) (ofBigEndian ((data.bytes.drop pos.toNat).take count))) := by
    intro count within
    induction count with
    | zero => rfl
    | succ count ih =>
        have last : count < (data.bytes.drop pos.toNat).length := by
          rw [List.length_drop]
          omega
        rw [List.range_succ, List.foldlM_append, ih (Nat.le_of_succ_le within),
          List.take_add_one, List.getElem?_eq_getElem last, Option.toList_some,
          ofNat_ofBigEndian_append]
        change ((data.at? (pos + UInt64.ofNat count)).bind _).bind _ = _
        rw [at?_slice (by omega), List.getElem?_eq_getElem last]
        rfl
  exact loaded size (Nat.le_refl size)

/-- A part inside the view is that of the list. -/
theorem subspan?_slice {pos count : UInt64}
    (inside : pos.toNat + count.toNat ≤ data.bytes.length) :
    data.subspan? pos count = some ((data.bytes.drop pos.toNat).take count.toNat) := by
  have start : pos ≤ data.size := by
    rw [UInt64.le_iff_toNat_le, data.toNat_size]
    omega
  apply if_pos
  refine ⟨start, ?_⟩
  rw [UInt64.le_iff_toNat_le, UInt64.toNat_sub_of_le _ _ start, data.toNat_size]
  omega

/-! ### Reads -/

/-- An integer that is loaded as a word is the one that the cursor's reader computes. -/
theorem Refines.word {size : Nat} {count : UInt64} (sized : count.toNat = size) (nothing : α)
    {ofBitVec : BitVec (8 * size) → α} {ofNat : Nat → α}
    (agree : ∀ n, ofBitVec (BitVec.ofNat (8 * size) n) = ofNat n) :
    Refines (SpanReader.fetch count nothing fun pos => (data.loadBe size pos).map ofBitVec :
      Access data α) (Cursor.fetch size nothing fun bytes => ofNat (ofBigEndian bytes)) := by
  subst sized
  refine Refines.fetch ?_
  intro pos inside
  rw [loadBe_slice inside, Option.map_some, agree]

/-- `u8` on a view does what it does on a list. -/
theorem refines_u8 : Refines (SpanReader.u8 : Access data UInt8) ByteReader.u8 := by
  refine Refines.fetch ?_
  intro pos inside
  have first : 0 < (data.bytes.drop pos.toNat).length := by
    rw [List.length_drop]
    exact Nat.sub_pos_of_lt inside
  have found : data.at? pos = (data.bytes.drop pos.toNat)[0]? := by
    rw [ByteView.at?, List.getElem?_drop, Nat.add_zero]
  rw [found]
  cases rest : data.bytes.drop pos.toNat with
  | nil =>
      rw [rest] at first
      cases first
  | cons byte later =>
      have low : ofBigEndian [byte] = byte.toNat := by
        change (0 <<< 8) ||| byte.toNat = _
        simp
      change some byte = some (UInt8.ofNat (ofBigEndian [byte]))
      rw [low, UInt8.ofNat_toNat]

theorem refines_u16 : Refines (SpanReader.u16 : Access data UInt16) ByteReader.u16 :=
  Refines.word rfl 0 fun _ => rfl

theorem refines_u32 : Refines (SpanReader.u32 : Access data UInt32) ByteReader.u32 :=
  Refines.word rfl 0 fun _ => rfl

theorem refines_u64 : Refines (SpanReader.u64 : Access data UInt64) ByteReader.u64 :=
  Refines.word rfl 0 fun _ => rfl

theorem refines_bytes (count : UInt64) :
    Refines (SpanReader.bytes count : Access data Bytes) (ByteReader.bytes count.toNat) :=
  Refines.fetch fun _ inside => subspan?_slice inside

/-- `string` on a view does what it does on a list. -/
theorem refines_string : Refines (SpanReader.string : Access data Bytes) ByteReader.string := by
  refine refines_u32.bind fun length => ?_
  have flag : Refines (do return (← get).failed : Access data Bool) ByteReader.failed := by
    intro here cursor represents
    refine ⟨here, ?_, represents⟩
    change some (here.failed, here) = _
    rw [represents.failed]
    rfl
  have either : ∀ stopped : Bool, Refines
      (if stopped then pure [] else SpanReader.bytes length.toUInt64 : Access data Bytes)
      (if stopped then pure [] else ByteReader.bytes length.toNat) := by
    intro stopped
    cases stopped with
    | true => exact Refines.pure []
    | false => exact refines_bytes length.toUInt64
  exact flag.bind either

end Refinement

/-! ## Calls in any order -/

/-- A call of a method of the reader. -/
inductive ReaderCall where
  | u8
  | u16
  | u32
  | u64
  | bytes (count : UInt64)
  | string
deriving DecidableEq

/-- What a call returns. -/
inductive ReadValue where
  | u8 (value : UInt8)
  | u16 (value : UInt16)
  | u32 (value : UInt32)
  | u64 (value : UInt64)
  | bytes (value : Bytes)
  | string (value : Bytes)
deriving DecidableEq

/-- The bytes that a call hands out. -/
def ReadValue.content : ReadValue → Bytes
  | .bytes value | .string value => value
  | _ => []

namespace ReaderCall

/-- What a call that fails returns. -/
def nothing : ReaderCall → ReadValue
  | .u8 => .u8 0
  | .u16 => .u16 0
  | .u32 => .u32 0
  | .u64 => .u64 0
  | .bytes _ => .bytes []
  | .string => .string []

theorem content_nothing (call : ReaderCall) : call.nothing.content = [] := by
  cases call <;> rfl

/-- A call on a view. -/
def access {data : ByteView} : ReaderCall → Access data ReadValue
  | .u8 => .u8 <$> SpanReader.u8
  | .u16 => .u16 <$> SpanReader.u16
  | .u32 => .u32 <$> SpanReader.u32
  | .u64 => .u64 <$> SpanReader.u64
  | .bytes count => .bytes <$> SpanReader.bytes count
  | .string => .string <$> SpanReader.string

/-- The same call on a cursor. -/
def read {data : Bytes} : ReaderCall → Reader data ReadValue
  | .u8 => .u8 <$> ByteReader.u8
  | .u16 => .u16 <$> ByteReader.u16
  | .u32 => .u32 <$> ByteReader.u32
  | .u64 => .u64 <$> ByteReader.u64
  | .bytes count => .bytes <$> ByteReader.bytes count.toNat
  | .string => .string <$> ByteReader.string

/-- Every call on a view does what it does on a list. -/
theorem refines {data : ByteView} (call : ReaderCall) :
    Refines (call.access : Access data ReadValue) call.read := by
  cases call with
  | u8 => exact refines_u8.map _
  | u16 => exact refines_u16.map _
  | u32 => exact refines_u32.map _
  | u64 => exact refines_u64.map _
  | bytes count => exact (refines_bytes count).map _
  | string => exact refines_string.map _

end ReaderCall

/-- The value is the decoding of the slice: a big-endian integer of the call's width, the bytes
asked for, or the bytes behind a big-endian length. -/
inductive DecodedFrom : ReaderCall → ReadValue → Bytes → Prop where
  | u8 {value : UInt8} {slice : Bytes} (width : slice.length = 1)
      (decoded : value.toNat = ofBigEndian slice) : DecodedFrom .u8 (.u8 value) slice
  | u16 {value : UInt16} {slice : Bytes} (width : slice.length = 2)
      (decoded : value.toNat = ofBigEndian slice) : DecodedFrom .u16 (.u16 value) slice
  | u32 {value : UInt32} {slice : Bytes} (width : slice.length = 4)
      (decoded : value.toNat = ofBigEndian slice) : DecodedFrom .u32 (.u32 value) slice
  | u64 {value : UInt64} {slice : Bytes} (width : slice.length = 8)
      (decoded : value.toNat = ofBigEndian slice) : DecodedFrom .u64 (.u64 value) slice
  | bytes {count : UInt64} {slice : Bytes} (width : slice.length = count.toNat) :
      DecodedFrom (.bytes count) (.bytes slice) slice
  | string {length value : Bytes} (width : length.length = 4)
      (counted : value.length = ofBigEndian length) :
      DecodedFrom .string (.string value) (length ++ value)

variable {call : ReaderCall}

section Outcomes

variable {data : Bytes}

/-- What a call can come to. -/
inductive Outcome (cursor : Cursor data) (call : ReaderCall) : ReadValue × Cursor data → Prop where
  | stuck (failed : cursor.failed = true) : Outcome cursor call (call.nothing, cursor)
  | short {after : Cursor data} (sound : cursor.failed = false) (failed : after.failed = true)
      (left : after.rest <:+ cursor.rest) : Outcome cursor call (call.nothing, after)
  | decoded {value : ReadValue} {after : Cursor data} {slice : Bytes}
      (sound : cursor.failed = false) (fine : after.failed = false)
      (split : cursor.rest = slice ++ after.rest) (decoded : DecodedFrom call value slice) :
      Outcome cursor call (value, after)

/-- What a call that fetches comes to: nothing, or the value of the bytes it has passed. -/
theorem outcome_fetch {α : Type} {wrap : α → ReadValue} {count : Nat} {zero : α}
    {decode : Bytes → α} (cursor : Cursor data) (fails : wrap zero = call.nothing)
    (decodes : ∀ slice, slice.length = count → DecodedFrom call (wrap (decode slice)) slice) :
    Outcome cursor call ((wrap <$> Cursor.fetch count zero decode : Reader data ReadValue) cursor) := by
  change Outcome cursor call
    (wrap (Cursor.fetch count zero decode cursor).1, (Cursor.fetch count zero decode cursor).2)
  have fetched := Cursor.fetched zero decode count cursor
  generalize Cursor.fetch count zero decode cursor = result at fetched ⊢
  cases fetched with
  | stuck failed =>
      rw [fails]
      exact .stuck failed
  | short sound few =>
      rw [fails]
      exact .short sound rfl List.suffix_rfl
  | enough sound many fine rest =>
      refine .decoded sound fine ?_ (decodes _ (List.length_take_of_le many))
      rw [rest, List.take_append_drop]

/-- A word is the number that its bytes stand for. -/
theorem toNat_ofNat_ofBigEndian {α : Type} {toNat : α → Nat} {ofNat : Nat → α} {width : Nat}
    (right : ∀ n, n < 256 ^ width → toNat (ofNat n) = n) {slice : Bytes}
    (length : slice.length = width) :
    toNat (ofNat (ofBigEndian slice)) = ofBigEndian slice := by
  apply right
  rw [← length]
  exact ofBigEndian_lt slice

/-- What follows the length of a string. -/
def stringBody (length : UInt32 × Cursor data) : Bytes × Cursor data :=
  if length.2.failed then ([], length.2) else ByteReader.bytes length.1.toNat length.2

/-- A string is a length and what follows it. -/
theorem string_eq (cursor : Cursor data) :
    ByteReader.string cursor = stringBody (ByteReader.u32 cursor) := by
  rw [ByteReader.string]
  change StateT.bind ByteReader.u32 _ cursor = _
  simp only [StateT.bind, stringBody]
  rcases ByteReader.u32 cursor with ⟨length, after⟩
  change (if after.failed then pure [] else ByteReader.bytes length.toNat : Reader data Bytes) after
    = _
  cases after.failed <;> rfl

/-- A string fails at its length, or behind it, or is the bytes that its length counts. -/
theorem outcome_string (cursor : Cursor data) :
    Outcome cursor .string (ReaderCall.string.read cursor) := by
  change Outcome cursor .string
    (.string (ByteReader.string cursor).1, (ByteReader.string cursor).2)
  rw [string_eq]
  have fetched : Cursor.Fetched 0 (fun bytes => UInt32.ofNat (ofBigEndian bytes)) 4 cursor
    (ByteReader.u32 cursor) := Cursor.fetched ..
  generalize ByteReader.u32 cursor = length at fetched ⊢
  cases fetched with
  | stuck failed =>
      have none : stringBody (0, cursor) = ([], cursor) := if_pos failed
      rw [none]
      exact .stuck failed
  | short sound few =>
      exact .short sound rfl List.suffix_rfl
  | @enough after sound many fine rest =>
      have known := List.length_take_of_le many
      have counted := toNat_ofNat_ofBigEndian (fun _ bound => UInt32.toNat_ofNat_of_lt' bound) known
      have next : stringBody (UInt32.ofNat (ofBigEndian (cursor.rest.take 4)), after) =
          ByteReader.bytes (ofBigEndian (cursor.rest.take 4)) after := by
        change (if after.failed then ([], after) else _) = _
        rw [fine, counted]
        rfl
      rw [next]
      have second : Cursor.Fetched [] id (ofBigEndian (cursor.rest.take 4)) after
        (ByteReader.bytes (ofBigEndian (cursor.rest.take 4)) after) := Cursor.fetched ..
      generalize ByteReader.bytes (ofBigEndian (cursor.rest.take 4)) after = value at second ⊢
      cases second with
      | stuck failed =>
          rw [fine] at failed
          cases failed
      | short _ few =>
          refine .short sound rfl ?_
          change after.rest <:+ _
          rw [rest]
          exact List.drop_suffix _ _
      | enough _ more fine' rest' =>
          refine .decoded sound fine' ?_ (.string known (List.length_take_of_le more))
          rw [id, List.append_assoc, rest', List.take_append_drop, rest, List.take_append_drop]

/-- What any call comes to. -/
theorem ReaderCall.outcome (call : ReaderCall) (cursor : Cursor data) :
    Outcome cursor call (call.read cursor) := by
  cases call with
  | u8 =>
      refine outcome_fetch cursor rfl fun slice length => .u8 length ?_
      exact toNat_ofNat_ofBigEndian (fun _ bound => UInt8.toNat_ofNat_of_lt' bound) length
  | u16 =>
      refine outcome_fetch cursor rfl fun slice length => .u16 length ?_
      exact toNat_ofNat_ofBigEndian (fun _ bound => UInt16.toNat_ofNat_of_lt' bound) length
  | u32 =>
      refine outcome_fetch cursor rfl fun slice length => .u32 length ?_
      exact toNat_ofNat_ofBigEndian (fun _ bound => UInt32.toNat_ofNat_of_lt' bound) length
  | u64 =>
      refine outcome_fetch cursor rfl fun slice length => .u64 length ?_
      exact toNat_ofNat_ofBigEndian (fun _ bound => UInt64.toNat_ofNat_of_lt' bound) length
  | bytes count => exact outcome_fetch cursor rfl fun slice length => .bytes length
  | string => exact outcome_string cursor

end Outcomes

/-! ## Runs -/

/-- The reader given one call after the other. A call that leaves the view is not answered. -/
def SpanReader.machine (data : ByteView) :
    Machine (SpanReader data) ReaderCall (Option ReadValue) where
  step reader call :=
    match call.access reader with
    | some (value, after) => (some value, after)
    | none => (none, reader)

/-- The reader on a list as a machine over calls. -/
def cursorMachine (data : Bytes) : Machine (Cursor data) ReaderCall (Option ReadValue) where
  step cursor call := (some (call.read cursor).1, (call.read cursor).2)

/-- The number of bytes that a call has handed out. -/
def handedOut (entry : ReaderCall × Option ReadValue) : Nat :=
  entry.2.elim 0 fun value => value.content.length

/-- The answer to a call is the decoding of the slice. -/
def AnsweredFrom (entry : ReaderCall × Option ReadValue) (slice : Bytes) : Prop :=
  ∃ value, entry.2 = some value ∧ DecodedFrom entry.1 value slice

/-- A value is no longer than the bytes it was decoded from. -/
theorem DecodedFrom.content_le {value : ReadValue} {slice : Bytes}
    (decoded : DecodedFrom call value slice) : value.content.length ≤ slice.length := by
  cases decoded with
  | bytes width => exact Nat.le_refl _
  | string width counted =>
      rw [List.length_append]
      exact Nat.le_add_left ..
  | _ => exact Nat.zero_le _

/-- What the calls so far have to do with what is left of the input. -/
structure Consumed (data : Bytes) (transcript : List (ReaderCall × Option ReadValue))
    (cursor : Cursor data) : Prop where
  answered : ∀ entry ∈ transcript, entry.2.isSome = true
  slices : cursor.failed = false → ∃ slices : List Bytes, slices.flatten ++ cursor.rest = data ∧
    List.Forall₂ AnsweredFrom transcript slices
  bounded : (transcript.map handedOut).sum + cursor.rest.length ≤ data.length

/-- A further call consumes further bytes. -/
theorem Consumed.snoc {data : Bytes} {transcript : List (ReaderCall × Option ReadValue)}
    {cursor after : Cursor data} {value : ReadValue} (consumed : Consumed data transcript cursor)
    (outcome : Outcome cursor call (value, after)) :
    Consumed data (transcript ++ [(call, some value)]) after := by
  have answered : ∀ entry ∈ transcript ++ [(call, some value)], entry.2.isSome = true := by
    intro entry member
    rcases List.mem_append.mp member with earlier | last
    · exact consumed.answered entry earlier
    · rw [List.mem_singleton.mp last]
      rfl
  have total : ((transcript ++ [(call, some value)]).map handedOut).sum =
      (transcript.map handedOut).sum + value.content.length := by
    rw [List.map_append, List.sum_append, List.map_singleton, List.sum_singleton]
    rfl
  have bounded := consumed.bounded
  cases outcome with
  | stuck failed =>
      refine ⟨answered, ?_, ?_⟩
      · intro fine
        rw [failed] at fine
        cases fine
      · rw [total, call.content_nothing]
        exact bounded
  | short sound failed left =>
      refine ⟨answered, ?_, ?_⟩
      · intro fine
        rw [failed] at fine
        cases fine
      · have shorter := left.length_le
        rw [total, call.content_nothing, List.length_nil]
        omega
  | @decoded _ _ slice sound fine split decoded =>
      refine ⟨answered, ?_, ?_⟩
      · intro _
        obtain ⟨slices, whole, each⟩ := consumed.slices sound
        refine ⟨slices ++ [slice], ?_, List.rel_append each (.cons ⟨value, rfl, decoded⟩ .nil)⟩
        rw [List.flatten_append, List.flatten_singleton, List.append_assoc, ← split, whole]
      · have least := decoded.content_le
        rw [split, List.length_append] at bounded
        rw [total]
        omega

/-- What a sequence of calls has consumed. -/
theorem run_consumed (data : Bytes) (calls : List ReaderCall) :
    Consumed data ((cursorMachine data).run (Cursor.start data) calls).1
      ((cursorMachine data).run (Cursor.start data) calls).2 := by
  refine Machine.run_invariant (Consumed data) ?_ ?_ calls
  · refine ⟨fun _ member => absurd member List.not_mem_nil, fun _ => ⟨[], rfl, .nil⟩, ?_⟩
    simp [Cursor.start, Cursor.rest]
  · intro transcript cursor call consumed
    exact consumed.snoc (call.outcome cursor)

section Runs

variable {data : ByteView}

variable {cursor : Cursor data.bytes}

/-- Every call is answered, as on the cursor. -/
theorem step_simulates {reader : SpanReader data} (call : ReaderCall)
    (represents : Represents reader cursor) :
    ((SpanReader.machine data).step reader call).1 =
        ((cursorMachine data.bytes).step cursor call).1 ∧
      Represents ((SpanReader.machine data).step reader call).2
        ((cursorMachine data.bytes).step cursor call).2 := by
  obtain ⟨after, accessed, still⟩ := call.refines represents
  simp only [SpanReader.machine, accessed]
  exact ⟨rfl, still⟩

/-- A sequence of calls on a view answers as on the list, without an access out of range. -/
theorem run_simulates (calls : List ReaderCall) :
    ((SpanReader.machine data).run {} calls).1 =
        ((cursorMachine data.bytes).run (Cursor.start data.bytes) calls).1 ∧
      Represents ((SpanReader.machine data).run {} calls).2
        ((cursorMachine data.bytes).run (Cursor.start data.bytes) calls).2 :=
  Machine.run_simulates Represents (fun _ _ call represents => step_simulates call represents)
    ⟨rfl, rfl⟩ calls

/-- A position and a failure have one reader. -/
theorem Represents.unique {first second : SpanReader data} (one : Represents first cursor)
    (two : Represents second cursor) : first = second := by
  obtain ⟨pos, failed⟩ := first
  obtain ⟨pos', failed'⟩ := second
  obtain rfl : pos = pos' := UInt64.toNat.inj (one.pos.trans two.pos.symm)
  obtain rfl : failed = failed' := one.failed.trans two.failed.symm
  rfl

/-- A call after which the flag is up returns nothing. -/
theorem step_nothing {reader : SpanReader data} (represents : Represents reader cursor)
    (failed : ((SpanReader.machine data).step reader call).2.failed = true) :
    ((SpanReader.machine data).step reader call).1 = some call.nothing := by
  obtain ⟨answer, still⟩ := step_simulates call represents
  rw [answer]
  rw [still.failed] at failed
  have outcome := call.outcome cursor
  change some (call.read cursor).1 = _
  change (call.read cursor).2.failed = true at failed
  generalize call.read cursor = result at outcome failed ⊢
  cases outcome with
  | stuck _ => rfl
  | short _ _ _ => rfl
  | decoded _ fine _ _ =>
      rw [fine] at failed
      cases failed

/-- Once the flag is up, a call moves nothing. -/
theorem step_failed {reader : SpanReader data} (represents : Represents reader cursor)
    (failed : reader.failed = true) (call : ReaderCall) :
    (SpanReader.machine data).step reader call = (some call.nothing, reader) := by
  obtain ⟨answer, still⟩ := step_simulates call represents
  have outcome := call.outcome cursor
  have same : call.read cursor = (call.nothing, cursor) := by
    generalize call.read cursor = result at outcome ⊢
    cases outcome with
    | stuck _ => rfl
    | short sound _ _ =>
        rw [← represents.failed, failed] at sound
        cases sound
    | decoded sound _ _ _ =>
        rw [← represents.failed, failed] at sound
        cases sound
  change _ = some (call.read cursor).1 at answer
  change Represents _ (call.read cursor).2 at still
  rw [same] at answer still
  exact Prod.ext answer (still.unique represents)

/-- After a failure every call returns nothing and changes nothing. -/
theorem run_failed {reader : SpanReader data} (represents : Represents reader cursor)
    (failed : reader.failed = true) (calls : List ReaderCall) :
    (SpanReader.machine data).run reader calls =
      (calls.map fun call => (call, some call.nothing), reader) := by
  induction calls with
  | nil => rfl
  | cons call calls ih =>
      rw [Machine.run_cons, step_failed represents failed, ih]
      rfl

end Runs

/-- For every view and all calls of a reader over it, in any order: every call is answered, so no
access was outside. The position is at most the length, and `remaining` does not wrap around.
A call that fails returns zero or nothing, and so do all calls after it, which move nothing. As
long as none has failed, the answers are the decodings of consecutive slices, which make up what
has been consumed. What is handed out is never more than the input, whatever lengths it claims. -/
theorem reader_stays_inside (data : ByteView) (calls : List ReaderCall) :
    let transcript := ((SpanReader.machine data).run {} calls).1
    let reader := ((SpanReader.machine data).run {} calls).2
    (∀ entry ∈ transcript, entry.2.isSome = true) ∧
    reader.pos.toNat ≤ data.bytes.length ∧
    reader.remaining.toNat = data.bytes.length - reader.pos.toNat ∧
    (∀ call, ((SpanReader.machine data).step reader call).2.failed = true →
      ((SpanReader.machine data).step reader call).1 = some call.nothing) ∧
    (reader.failed = true → ∀ later, (SpanReader.machine data).run reader later =
      (later.map fun call => (call, some call.nothing), reader)) ∧
    (reader.failed = false → ∃ slices : List Bytes,
      slices.flatten = data.bytes.take reader.pos.toNat ∧
        List.Forall₂ AnsweredFrom transcript slices) ∧
    (transcript.map handedOut).sum ≤ data.bytes.length := by
  intro transcript reader
  obtain ⟨same, represents⟩ := @run_simulates data calls
  have consumed := run_consumed data.bytes calls
  generalize (cursorMachine data.bytes).run (Cursor.start data.bytes) calls = final
    at same represents consumed
  change transcript = final.1 at same
  change Represents reader final.2 at represents
  have position : reader.pos.toNat = final.2.pos := represents.pos
  rw [same]
  refine ⟨consumed.answered, ?_, represents.remaining, ?_, ?_, ?_, ?_⟩
  · rw [position]
    exact final.2.inside
  · intro call failed
    exact step_nothing represents failed
  · intro failed later
    exact run_failed represents failed later
  · intro fine
    obtain ⟨slices, whole, each⟩ := consumed.slices (represents.failed.symm.trans fine)
    refine ⟨slices, ?_, each⟩
    rw [position]
    exact List.append_cancel_right (whole.trans (List.take_append_drop final.2.pos _).symm)
  · have bounded := consumed.bounded
    omega

end Lrd.Proto
