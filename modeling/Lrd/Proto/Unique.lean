import Lrd.Proto.RoundTrip
import Mathlib.Algebra.Order.BigOperators.Group.List
import Mathlib.Algebra.Order.Ring.Nat

/-!
# What an encoding stands for

Encoders check no limits. The encoding of a request that is out of its limits is still
no encoding of another request, as long as its length fits into 32 bits
(`BinaryCodec.request_unique`): the same bytes are read by parsers without limits.
-/

namespace Lrd.Proto

open Foundation Rank

variable {D : Type} [BitCast D]

section Lenient

variable {data : Bytes}

/-- The lengths of a signal fit into their 32 bits. -/
structure SignalMeasured (signal : UserSignal D) : Prop where
  affinities : signal.affinities.length < 2 ^ 32
  affinityCategories : ∀ affinity ∈ signal.affinities, affinity.category.length < 2 ^ 32
  excluded : signal.excludedCategories.length < 2 ^ 32
  excludedCategories : ∀ category ∈ signal.excludedCategories, category.length < 2 ^ 32

omit [BitCast D] in
/-- A signal within the limits has lengths and numbers that fit into 32 bits. -/
theorem SignalWithinLimits.measured {signal : UserSignal D} (within : SignalWithinLimits signal) :
    SignalMeasured signal where
  affinities := within.affinities.trans_lt (by decide)
  affinityCategories affinity member :=
    measured_of_short_category (within.affinityCategories affinity member)
  excluded := within.excluded.trans_lt (by decide)
  excludedCategories category member :=
    measured_of_short_category (within.excludedCategories category member)

/-- The fields of a `Recommend`, read without limits. -/
def readAny : Parser Unit data (UserSignal D × UInt32 × UInt8) := do
  let affinities ← readCounted 0xFFFFFFFF readAffinity fun _ => true
  let excluded ← readCounted 0xFFFFFFFF ByteReader.string fun _ => true
  let count ← .ofReader ByteReader.u32
  let dryRun ← .ofReader ByteReader.u8
  return (⟨affinities, excluded⟩, count, dryRun)

/-- The arguments of a recommendation are read back without a look at the limits. -/
theorem reads_any :
    Reads (readAny : Parser Unit data (UserSignal D × UInt32 × UInt8)) recommendBytes
      (fun fields => SignalMeasured fields.1) := by
  have same : (readAny : Parser Unit data (UserSignal D × UInt32 × UInt8)) =
      ((readCounted 0xFFFFFFFF readAffinity fun _ => true).seq
        ((readCounted 0xFFFFFFFF ByteReader.string fun _ => true).seq
          ((Parser.ofReader ByteReader.u32).seq (.ofReader ByteReader.u8)))) >>=
        fun fields => pure (⟨fields.1, fields.2.1⟩, fields.2.2.1, fields.2.2.2) := by
    simp only [readAny, Parser.seq, bind_assoc, pure_bind]
  rw [same]
  refine (((reads_counted reads_affinity _ _).seq ((reads_counted reads_string _ _).seq
    (reads_u32.seq reads_u8))).build _
    (fun fields => (fields.1.affinities, fields.1.excludedCategories, fields.2.1, fields.2.2))
    (fun _ => rfl) fun _ => rfl).congr (fun fields => ?_) fun fields => ⟨?_, ?_⟩
  · simp only [recommendBytes, signalBytes, List.append_assoc]
  · intro given
    obtain ⟨⟨few, each⟩, ⟨few', each'⟩, _, _⟩ := given
    exact ⟨Nat.lt_succ_of_le few, fun affinity member => (each affinity member).1,
      Nat.lt_succ_of_le few', fun category member => (each' category member).1⟩
  · intro measured
    exact ⟨⟨Nat.le_of_lt_succ measured.affinities, fun affinity member =>
        ⟨measured.affinityCategories affinity member, rfl⟩⟩,
      ⟨Nat.le_of_lt_succ measured.excluded, fun category member =>
        ⟨measured.excludedCategories category member, rfl⟩⟩, trivial, trivial⟩

end Lenient

/-- Printed forms that one parser reads are told apart. -/
theorem printed_unique {ε α : Type} {print : α → Bytes} {valid : α → Prop}
    {parser : ∀ data : Bytes, Parser ε data α} (reads : ∀ data, Reads (parser data) print valid)
    {value value' : α} (isValid : valid value) (isValid' : valid value') {later later' : Bytes}
    (same : print value ++ later = print value' ++ later') : value = value' ∧ later = later' :=
  (reads (print value ++ later)).unique (Cursor.failed_start _) isValid isValid' rfl same

/-- Two values that are printed alike are the same. -/
theorem printed_unique_end {α : Type} {print : α → Bytes} {valid : α → Prop}
    {parser : ∀ data : Bytes, Parser Unit data α} (reads : ∀ data, Reads (parser data) print valid)
    {value value' : α} (isValid : valid value) (isValid' : valid value')
    (same : print value = print value') : value = value' := by
  rw [← List.append_nil (print value), ← List.append_nil (print value')] at same
  exact (printed_unique reads isValid isValid' same).1

namespace BinaryCodec

/-- Two headers that begin the same bytes are the same. -/
theorem header_unique {header header' : Header} (current : header.version = kVersion)
    (current' : header'.version = kVersion) (clear : header.flags = 0) (clear' : header'.flags = 0)
    {later later' : Bytes} (same : headerBytes header ++ later = headerBytes header' ++ later') :
    header = header' ∧ later = later' :=
  printed_unique (fun _ => reads_header) ⟨current, clear⟩ ⟨current', clear'⟩ same

/-- A list has no more values than its printed form has bytes. -/
theorem length_le_counted {α : Type} {print : α → Bytes} (values : List α)
    (some : ∀ value ∈ values, 1 ≤ (print value).length) :
    values.length ≤ (countedBytes print values).length := by
  rw [countedBytes, List.length_append, List.length_flatMap]
  have counted := List.length_le_sum_of_one_le (values.map fun value => (print value).length) (by
    intro size member
    obtain ⟨value, inside, rfl⟩ := List.mem_map.mp member
    exact some value inside)
  rw [List.length_map] at counted
  omega

/-- A signal that takes fewer than 2^32 bytes has lengths and numbers that fit into 32 bits. -/
theorem signalMeasured_of_short {signal : UserSignal D}
    (short : (signalBytes signal).length < 2 ^ 32) : SignalMeasured signal := by
  rw [signalBytes, List.length_append] at short
  have affinitySize : ∀ affinity : CategoryAffinity D,
      (affinityBytes affinity).length = 12 + affinity.category.length := by
    intro affinity
    simp only [affinityBytes, u64Bytes, List.length_append, length_stringBytes, length_bigEndian]
    omega
  refine ⟨?_, ?_, ?_, ?_⟩
  · have some : ∀ affinity ∈ signal.affinities, 1 ≤ (affinityBytes affinity).length := by
      intro affinity _
      rw [affinitySize]
      omega
    have counted := length_le_counted signal.affinities some
    omega
  · intro affinity member
    have part := length_print_le affinityBytes member
    rw [affinitySize] at part
    omega
  · have some : ∀ category ∈ signal.excludedCategories, 1 ≤ (stringBytes category).length := by
      intro category _
      rw [length_stringBytes]
      omega
    have counted := length_le_counted signal.excludedCategories some
    omega
  · intro category member
    have part := length_print_le stringBytes member
    rw [length_stringBytes] at part
    omega

/-- The bytes of a body spell no other body of its type. -/
theorem body_unique {body body' : RequestBody D} (sameType : body'.typeOf = body.typeOf)
    (short : (requestBodyBytes body).length < 2 ^ 32) (within : body'.WithinLimits)
    (spelled : SpellsBody body' (requestBodyBytes body)) : body' = body := by
  cases body with
  | getItem itemId =>
      cases body' <;> cases sameType
      rw [(printed_unique_end (fun _ => reads_u64) trivial trivial spelled)]
  | putItem item =>
      cases body' <;> cases sameType
      rename_i item'
      have measured : item.category.length < 2 ^ 32 ∧ item.advertiser.length < 2 ^ 32 := by
        simp only [requestBodyBytes, itemBytes, List.length_append, length_stringBytes] at short
        omega
      rw [printed_unique_end (fun _ => reads_item) measured (measured_of_withinLimits within)
        spelled]
  | deleteItem itemId =>
      cases body' <;> cases sameType
      rw [printed_unique_end (fun _ => reads_u64) trivial trivial spelled]
  | getStats =>
      cases body' <;> cases sameType
      rfl
  | recommend asked =>
      cases body' <;> cases sameType
      rename_i asked'
      obtain ⟨flag, set, same⟩ := spelled
      have measured : SignalMeasured asked.signal := by
        apply signalMeasured_of_short
        simp only [requestBodyBytes, recommendBytes, List.length_append] at short
        omega
      have fields := printed_unique_end (fun _ => reads_any) measured within.1.measured same
      obtain ⟨signal, count, dryRun⟩ := asked
      obtain ⟨signal', count', dryRun'⟩ := asked'
      simp only [Prod.mk.injEq] at fields
      obtain ⟨rfl, rfl, rfl⟩ := fields
      cases dryRun <;> cases set <;> rfl

/-- The encoding of a request stands for no other request within the limits. -/
theorem request_unique {request request' : Request D}
    (short : (encodeRequest request []).length < 2 ^ 32) (within : request'.body.WithinLimits)
    (spelled : Spells request' (encodeRequest request [])) : request' = request := by
  obtain ⟨later, split, spelledBody⟩ := (spells_iff _ _).mp spelled
  rw [encodeRequest_eq, List.nil_append] at split short
  obtain ⟨sameHeader, rfl⟩ := header_unique rfl rfl rfl rfl split
  have sameType : request.body.typeOf = request'.body.typeOf := congrArg Header.type sameHeader
  have sameId : request.requestId = request'.requestId := congrArg Header.requestId sameHeader
  rw [List.length_append] at short
  have sameBody := body_unique sameType.symm (by omega) within spelledBody
  obtain ⟨requestId, body⟩ := request
  obtain ⟨requestId', body'⟩ := request'
  rw [Request.mk.injEq]
  exact ⟨sameId.symm, sameBody⟩

end BinaryCodec

end Lrd.Proto
