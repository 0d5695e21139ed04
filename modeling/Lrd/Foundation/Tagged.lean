import Lrd.Foundation.BigEndian

/-!
# Tagged fields

A wire format for records that may grow. A record is a string of fields; each begins with a
tag, from which its number and the kind of its value are read, so that a reader can skip the
fields it does not know. Numbers are written in groups of seven bits, lowest first.

A field that has its default value is left out, and a record is read by merging its fields
one after another into the default one. What has been written is read back
(`mergeFrom_fieldsBytes`), if it is short enough for its lengths to be written.
-/

namespace Foundation

/-! ## Numbers -/

/-- The groups of seven bits of a number, lowest first, in at most `more + 1` bytes. All but the
last have their highest bit set. -/
def varint : (more value : Nat) → List UInt8
  | 0, value => [UInt8.ofNat value]
  | more + 1, value =>
      if value < 128 then [UInt8.ofNat value]
      else UInt8.ofNat (value % 128 + 128) :: varint more (value / 128)

/-- The number at the beginning of an input, with what follows it. -/
def readVarint : Nat → List UInt8 → Option (Nat × List UInt8)
  | _, [] => none
  | 0, byte :: rest => if byte.toNat < 128 then some (byte.toNat, rest) else none
  | more + 1, byte :: rest =>
      if byte.toNat < 128 then some (byte.toNat, rest)
      else (readVarint more rest).map fun (high, rest) => (byte.toNat - 128 + 128 * high, rest)

/-- A number that fits is read back. -/
theorem readVarint_varint {more value : Nat} (fits : value < 128 ^ (more + 1))
    (rest : List UInt8) : readVarint more (varint more value ++ rest) = some (value, rest) := by
  have single : value < 128 → (UInt8.ofNat value).toNat = value := by
    intro small
    rw [UInt8.toNat_ofNat']
    omega
  induction more generalizing value with
  | zero =>
      rw [zero_add, pow_one] at fits
      simp only [varint, List.cons_append, List.nil_append, readVarint, single fits, fits,
        ↓reduceIte]
  | succ more ih =>
      by_cases small : value < 128
      · simp only [varint, small, ↓reduceIte, List.cons_append, List.nil_append, readVarint,
          single small]
      · have low : (UInt8.ofNat (value % 128 + 128)).toNat = value % 128 + 128 := by
          rw [UInt8.toNat_ofNat']
          omega
        have high : value / 128 < 128 ^ (more + 1) := by
          rw [Nat.div_lt_iff_lt_mul (by omega), ← pow_succ]
          exact fits
        have more : ¬ value % 128 + 128 < 128 := by omega
        have whole : value % 128 + 128 - 128 + 128 * (value / 128) = value := by omega
        rw [varint, if_neg small, List.cons_append, readVarint, low, if_neg more, ih high]
        · simp only [Option.map_some, whole]
        · intro small
          rw [UInt8.toNat_ofNat']
          omega

/-- A varint has a byte. -/
theorem varint_ne_nil (more value : Nat) : varint more value ≠ [] := by
  cases more with
  | zero => exact List.cons_ne_nil _ _
  | succ more =>
      rw [varint]
      split
      · exact List.cons_ne_nil _ _
      · exact List.cons_ne_nil _ _

/-! ## Fields -/

/-- The value of a field, by the way it is written. -/
inductive FieldValue where
  | varint (value : UInt64)
  | fixed64 (value : UInt64)
  | bytes (value : List UInt8)
  | fixed32 (value : UInt32)
deriving DecidableEq

/-- A field of a record. The number zero and those of more than 29 bits are not used. -/
structure Field where
  number : Nat
  value : FieldValue
  valid : 0 < number ∧ number < 2 ^ 29
deriving DecidableEq

namespace FieldValue

/-- The number for the kind of a value. -/
def wireType : FieldValue → Nat
  | .varint _ => 0
  | .fixed64 _ => 1
  | .bytes _ => 2
  | .fixed32 _ => 5

/-- What is written behind the tag. -/
def payload : FieldValue → List UInt8
  | .varint value => Foundation.varint 9 value.toNat
  | .fixed64 value => (bigEndian 8 value.toNat).reverse
  | .bytes value => Foundation.varint 9 value.length ++ value
  | .fixed32 value => (bigEndian 4 value.toNat).reverse

end FieldValue

/-- The bytes of a field. -/
def Field.bytes (field : Field) : List UInt8 :=
  varint 4 (8 * field.number + field.value.wireType) ++ field.value.payload

/-- The bytes of a record. -/
def fieldsBytes (fields : List Field) : List UInt8 := fields.flatMap Field.bytes

/-- The first symbols of an input, if there are so many. -/
def takeExactly (count : Nat) (input : List UInt8) : Option (List UInt8 × List UInt8) :=
  if input.length < count then none else some (input.splitAt count)

/-- The value that is written in the given way. -/
def readValue (wireType : Nat) (input : List UInt8) : Option (FieldValue × List UInt8) :=
  match wireType with
  | 0 => (readVarint 9 input).map fun (value, rest) => (.varint (.ofNat value), rest)
  | 1 => (takeExactly 8 input).map fun (word, rest) =>
      (.fixed64 (.ofNat (ofBigEndian word.reverse)), rest)
  | 2 => (readVarint 9 input).bind fun (length, rest) =>
      (takeExactly length rest).map fun (value, rest) => (.bytes value, rest)
  | 5 => (takeExactly 4 input).map fun (word, rest) =>
      (.fixed32 (.ofNat (ofBigEndian word.reverse)), rest)
  | _ => none

/-- Read fields to the end of the input. Groups, which begin and end with a tag of their own,
are skipped with all that is in them; `opened` are the numbers of those that have begun. -/
def readFields : (fuel : Nat) → (opened : List Nat) → List UInt8 → Option (List Field)
  | 0, opened, input => if input = [] ∧ opened = [] then some [] else none
  | fuel + 1, opened, input =>
      if input = [] then if opened = [] then some [] else none
      else
        (readVarint 4 input).bind fun (tag, rest) =>
          if valid : 0 < tag % 2 ^ 32 / 8 ∧ tag % 2 ^ 32 / 8 < 2 ^ 29 then
            if tag % 8 = 3 then readFields fuel (tag % 2 ^ 32 / 8 :: opened) rest
            else if tag % 8 = 4 then
              if opened.head? = some (tag % 2 ^ 32 / 8) then readFields fuel opened.tail rest
              else none
            else
              (readValue (tag % 8) rest).bind fun (value, rest) =>
                (readFields fuel opened rest).map fun fields =>
                  if opened = [] then ⟨tag % 2 ^ 32 / 8, value, valid⟩ :: fields else fields
          else none

/-- The fields of an input. Every field takes at least one byte. -/
def parseFields (input : List UInt8) : Option (List Field) := readFields input.length [] input

/-! ## What has been written is read -/

/-- Taking as many bytes as there are in front. -/
theorem takeExactly_append (front rest : List UInt8) :
    takeExactly front.length (front ++ rest) = some (front, rest) := by
  have long : ¬ (front ++ rest).length < front.length := by
    rw [List.length_append]
    omega
  rw [takeExactly, if_neg long, List.splitAt_eq, List.take_left, List.drop_left]

/-- A fixed word is read back. -/
theorem takeExactly_word (width value : Nat) (rest : List UInt8) :
    takeExactly width ((bigEndian width value).reverse ++ rest) =
      some ((bigEndian width value).reverse, rest) := by
  have length : (bigEndian width value).reverse.length = width := by
    rw [List.length_reverse, length_bigEndian]
  have taken := takeExactly_append (bigEndian width value).reverse rest
  rwa [length] at taken

/-- A payload is read back. -/
theorem readValue_payload {value : FieldValue} (rest : List UInt8)
    (short : value.payload.length < 2 ^ 64) :
    readValue value.wireType (value.payload ++ rest) = some (value, rest) := by
  cases value with
  | varint value =>
      have fits : value.toNat < 128 ^ (9 + 1) := Nat.lt_of_lt_of_le value.toNat_lt (by decide)
      rw [FieldValue.wireType, FieldValue.payload, readValue, readVarint_varint fits]
      simp only [Option.map_some, UInt64.ofNat_toNat]
  | fixed64 value =>
      have word : ofBigEndian (bigEndian 8 value.toNat) = value.toNat :=
        ofBigEndian_bigEndian value.toNat_lt
      rw [FieldValue.wireType, FieldValue.payload, readValue, takeExactly_word]
      simp only [Option.map_some, List.reverse_reverse, word, UInt64.ofNat_toNat]
  | bytes value =>
      rw [FieldValue.payload, List.length_append] at short
      have fits : value.length < 128 ^ (9 + 1) :=
        Nat.lt_of_lt_of_le (Nat.lt_of_le_of_lt (Nat.le_add_left _ _) short) (by decide)
      rw [FieldValue.wireType, FieldValue.payload, readValue, List.append_assoc,
        readVarint_varint fits]
      simp only [Option.bind_some, takeExactly_append, Option.map_some]
  | fixed32 value =>
      have word : ofBigEndian (bigEndian 4 value.toNat) = value.toNat :=
        ofBigEndian_bigEndian value.toNat_lt
      rw [FieldValue.wireType, FieldValue.payload, readValue, takeExactly_word]
      simp only [Option.map_some, List.reverse_reverse, word, UInt32.ofNat_toNat]

theorem fieldsBytes_cons (field : Field) (fields : List Field) :
    fieldsBytes (field :: fields) = field.bytes ++ fieldsBytes fields :=
  List.flatMap_cons

theorem Field.bytes_ne_nil (field : Field) : field.bytes ≠ [] := by
  rw [Field.bytes]
  exact List.append_ne_nil_of_left_ne_nil (varint_ne_nil _ _) _

variable {field : Field} {fields : List Field}

/-- One field is read from the front of an input. -/
theorem readFields_field (short : field.bytes.length < 2 ^ 64) (fuel : Nat) (rest : List UInt8) :
    readFields (fuel + 1) [] (field.bytes ++ rest) =
      (readFields fuel [] rest).map (field :: ·) := by
  obtain ⟨number, value, valid⟩ := field
  have kind : value.wireType < 8 ∧ value.wireType ≠ 3 ∧ value.wireType ≠ 4 := by
    cases value <;> simp [FieldValue.wireType]
  have fits : 8 * number + value.wireType < 128 ^ (4 + 1) := by omega
  have own : (8 * number + value.wireType) % 2 ^ 32 / 8 = number := by omega
  have wireType : (8 * number + value.wireType) % 8 = value.wireType := by omega
  have some : ¬ (Field.bytes ⟨number, value, valid⟩ ++ rest = []) :=
    List.append_ne_nil_of_left_ne_nil (Field.bytes_ne_nil _) _
  have valueShort : value.payload.length < 2 ^ 64 := by
    rw [Field.bytes, List.length_append] at short
    exact Nat.lt_of_le_of_lt (Nat.le_add_left _ _) short
  rw [readFields, if_neg some, Field.bytes, List.append_assoc, readVarint_varint fits]
  simp only [Option.bind_some, wireType, own, valid, and_self, ↓reduceDIte, kind, ↓reduceIte,
    readValue_payload rest valueShort]

/-- What has been written is read, if there is enough fuel. -/
theorem readFields_fieldsBytes (short : (fieldsBytes fields).length < 2 ^ 64) {fuel : Nat}
    (enough : (fieldsBytes fields).length ≤ fuel) :
    readFields fuel [] (fieldsBytes fields) = some fields := by
  induction fields generalizing fuel with
  | nil => cases fuel <;> rfl
  | cons field fields ih =>
      have positive : 0 < field.bytes.length := List.length_pos_iff.mpr field.bytes_ne_nil
      rw [fieldsBytes_cons, List.length_append] at short enough
      obtain ⟨fuel, rfl⟩ : ∃ less, fuel = less + 1 := ⟨fuel - 1, by omega⟩
      rw [fieldsBytes_cons, readFields_field (by omega), ih (by omega) (by omega)]
      rfl

theorem parseFields_fieldsBytes (short : (fieldsBytes fields).length < 2 ^ 64) :
    parseFields (fieldsBytes fields) = some fields :=
  readFields_fieldsBytes short (Nat.le_refl _)

/-- A record is longer than the value of any of its fields. -/
theorem length_lt_fieldsBytes (member : field ∈ fields) {value : List UInt8}
    (isBytes : field.value = .bytes value) :
    value.length < (fieldsBytes fields).length := by
  have tag : 0 < (varint 4 (8 * field.number + field.value.wireType)).length :=
    List.length_pos_iff.mpr (varint_ne_nil _ _)
  have inside : value.length < field.bytes.length := by
    rw [Field.bytes, List.length_append]
    rw [isBytes] at tag ⊢
    rw [FieldValue.payload, List.length_append]
    omega
  have part : field.bytes.length ≤ (fieldsBytes fields).length := by
    obtain ⟨front, back, rfl⟩ := List.append_of_mem member
    rw [fieldsBytes, List.flatMap_append, List.flatMap_cons, List.length_append, List.length_append]
    omega
  omega

/-! ## Records -/

section Records

variable {M : Type} (merge : M → Field → Option M)

/-- The fields of an input are merged into a record, one after another. -/
def mergeFrom (record : M) (input : List UInt8) : Option M :=
  (parseFields input).bind fun fields => fields.foldlM merge record

/-- The fields take one record to another. -/
def Merges (before : M) (fields : List Field) (after : M) : Prop :=
  fields.foldlM merge before = some after

variable {merge} {before between after : M}

/-- Merging the bytes of fields is merging the fields. -/
theorem mergeFrom_fieldsBytes (short : (fieldsBytes fields).length < 2 ^ 64)
    (merges : Merges merge before fields after) :
    mergeFrom merge before (fieldsBytes fields) = some after := by
  rw [mergeFrom, parseFields_fieldsBytes short]
  exact merges

namespace Merges

theorem nil : Merges merge before [] before := rfl

theorem single (merged : merge before field = some after) :
    Merges merge before [field] after := by
  simp [Merges, merged]

theorem append {fields more : List Field} (first : Merges merge before fields between)
    (second : Merges merge between more after) : Merges merge before (fields ++ more) after := by
  rw [Merges, List.foldlM_append, first]
  exact second

/-- The fields of a record in parts. -/
theorem cons {part : List Field} {parts : List (List Field)}
    (first : Merges merge before part between) (rest : Merges merge between parts.flatten after) :
    Merges merge before (part :: parts).flatten after :=
  first.append rest

/-- Each field of a list adds its entry. -/
theorem repeated {α : Type} (field : α → Field) (build : List α → M) (entries : List α)
    (adds : ∀ earlier, ∀ entry ∈ entries,
      merge (build earlier) (field entry) = some (build (earlier ++ [entry]))) :
    Merges merge (build []) (entries.map field) (build entries) := by
  suffices general : ∀ earlier, Merges merge (build earlier) (entries.map field)
      (build (earlier ++ entries)) by
    exact general []
  induction entries with
  | nil =>
      intro earlier
      rw [List.append_nil]
      exact nil
  | cons entry entries ih =>
      intro earlier
      have later := ih (fun earlier other member => adds earlier other (List.mem_cons_of_mem _ member))
        (earlier ++ [entry])
      rw [List.append_assoc] at later
      exact (single (adds earlier entry List.mem_cons_self)).append later

end Merges

end Records

/-! ## Fields that may be left out -/

section Optional

variable (number : Nat) (valid : 0 < number ∧ number < 2 ^ 29)

/-- A number is left out if it is zero. -/
def varintField (value : UInt64) : List Field :=
  if value = 0 then [] else [⟨number, .varint value, valid⟩]

/-- So is a word. -/
def fixed64Field (value : UInt64) : List Field :=
  if value = 0 then [] else [⟨number, .fixed64 value, valid⟩]

/-- A string is left out if it is empty. -/
def bytesField (value : List UInt8) : List Field :=
  if value = [] then [] else [⟨number, .bytes value, valid⟩]

/-- A record within a record is left out if it is absent. -/
def recordField (fields : Option (List Field)) : List Field :=
  match fields with
  | none => []
  | some fields => [⟨number, .bytes (fieldsBytes fields), valid⟩]

variable {number valid} {M : Type} {merge : M → Field → Option M} {before after : M}

namespace Merges

/-- A varint field, which is left out at zero. -/
theorem varint {value : UInt64}
    (merged : merge before ⟨number, .varint value, valid⟩ = some after)
    (absent : value = 0 → after = before) :
    Merges merge before (varintField number valid value) after := by
  rw [varintField]
  split
  · rename_i zero
    rw [absent zero]
    exact nil
  · exact single merged

/-- A field of 64 bits, which is left out at zero. -/
theorem fixed64 {value : UInt64}
    (merged : merge before ⟨number, .fixed64 value, valid⟩ = some after)
    (absent : value = 0 → after = before) :
    Merges merge before (fixed64Field number valid value) after := by
  rw [fixed64Field]
  split
  · rename_i zero
    rw [absent zero]
    exact nil
  · exact single merged

/-- A field of bytes, which is left out when empty. -/
theorem bytes {value : List UInt8}
    (merged : merge before ⟨number, .bytes value, valid⟩ = some after)
    (absent : value = [] → after = before) :
    Merges merge before (bytesField number valid value) after := by
  rw [bytesField]
  split
  · rename_i empty
    rw [absent empty]
    exact nil
  · exact single merged

/-- A record within a record is merged if it is there. -/
theorem record {R : Type} {part : Option R} {fields : R → List Field} (build : Option R → M)
    (merged : ∀ inner, part = some inner →
      merge (build none) ⟨number, .bytes (fieldsBytes (fields inner)), valid⟩ =
        some (build (some inner))) :
    Merges merge (build none) (recordField number valid (part.map fields)) (build part) := by
  cases part with
  | none => exact nil
  | some inner => exact single (merged inner rfl)

end Merges

end Optional

end Foundation
