import Lrd.Foundation.Tagged
import Lrd.Proto.Protobuf

/-!
# The wire form of an envelope

The messages of `lrd.proto` as tagged fields: what each of them writes, in the order of its
numbers, and how a field that is read is merged into it. A number, a string or a word that has
its default value is left out, a message within a message exactly if it is absent. A field of
the `oneof` continues the arm that is set, or begins another one anew.

So there is a runtime (`runtime`), with the sizes that envelopes have on the wire.
-/

namespace Lrd.Proto.Pb

open Foundation ProtobufCodec

/-! ## Statuses -/

namespace Status

/-- A negative number is extended to 64 bits. -/
def toWire (status : Status) : UInt64 := status.number.toInt64.toUInt64

/-- The lower 32 bits are taken. -/
def ofWire (value : UInt64) : Status := ⟨value.toInt64.toInt32⟩

@[simp] theorem ofWire_toWire (status : Status) : ofWire status.toWire = status := by
  simp [ofWire, toWire]

end Status

variable {D : Type} [BitCast D]

/-! ## Parts of the bodies -/

namespace Item

/-- The fields that an item writes. -/
def fields (item : Item D) : List Field :=
  [varintField 1 (by decide) item.id,
    bytesField 2 (by decide) item.category,
    bytesField 3 (by decide) item.advertiser,
    fixed64Field 4 (by decide) (doubleToBits item.baseScore),
    varintField 5 (by decide) item.createdAtMs.toUInt64,
    varintField 6 (by decide) item.expiresAtMs.toUInt64].flatten

/-- What a field changes. A field that is not known is skipped. -/
def merge (item : Item D) : Field → Option (Item D)
  | ⟨1, .varint id, _⟩ => some { item with id }
  | ⟨2, .bytes category, _⟩ => some { item with category }
  | ⟨3, .bytes advertiser, _⟩ => some { item with advertiser }
  | ⟨4, .fixed64 bits, _⟩ => some { item with baseScore := bitsToDouble bits }
  | ⟨5, .varint value, _⟩ => some { item with createdAtMs := value.toInt64 }
  | ⟨6, .varint value, _⟩ => some { item with expiresAtMs := value.toInt64 }
  | _ => some item

/-- The fields of an item put it together again. -/
theorem merges (item : Item D) : Merges (merge (D := D)) absentItem item.fields item := by
  have read : Merges (merge (D := D)) absentItem item.fields
      ⟨item.id, item.category, item.advertiser, bitsToDouble (doubleToBits item.baseScore),
        item.createdAtMs.toUInt64.toInt64, item.expiresAtMs.toUInt64.toInt64⟩ := by
    refine .cons (.varint rfl ?_) <| .cons (.bytes rfl ?_) <| .cons (.bytes rfl ?_) <|
      .cons (.fixed64 rfl ?_) <| .cons (.varint rfl ?_) <| .cons (.varint rfl ?_) .nil
    all_goals
      intro absent
      rw [absent]
      rfl
  simpa only [BitCast.bitsToDouble_doubleToBits, Int64.toInt64_toUInt64] using read

end Item

namespace CategoryAffinity

/-- The fields of an affinity that are written. -/
def fields (entry : CategoryAffinity D) : List Field :=
  [bytesField 1 (by decide) entry.category,
    fixed64Field 2 (by decide) (doubleToBits entry.weight)].flatten

/-- An entry without fields. -/
def empty : CategoryAffinity D := ⟨[], bitsToDouble 0⟩

/-- What a field that was read does to an affinity. -/
def merge (entry : CategoryAffinity D) : Field → Option (CategoryAffinity D)
  | ⟨1, .bytes category, _⟩ => some { entry with category }
  | ⟨2, .fixed64 bits, _⟩ => some { entry with weight := bitsToDouble bits }
  | _ => some entry

/-- The fields of an affinity put it together again. -/
theorem merges (entry : CategoryAffinity D) : Merges (merge (D := D)) empty entry.fields entry := by
  have read : Merges (merge (D := D)) empty entry.fields
      ⟨entry.category, bitsToDouble (doubleToBits entry.weight)⟩ := by
    refine .cons (.bytes rfl ?_) <| .cons (.fixed64 rfl ?_) .nil
    all_goals
      intro absent
      rw [absent]
      rfl
  simpa only [BitCast.bitsToDouble_doubleToBits] using read

end CategoryAffinity

namespace UserSignal

/-- The fields of a signal that are written. -/
def fields (signal : UserSignal D) : List Field :=
  [signal.affinities.map fun entry => ⟨1, .bytes (fieldsBytes entry.fields), by decide⟩,
    signal.excludedCategories.map fun category => ⟨2, .bytes category, by decide⟩].flatten

/-- What a field that was read does to a signal; repeated fields add up. -/
def merge (signal : UserSignal D) : Field → Option (UserSignal D)
  | ⟨1, .bytes payload, _⟩ =>
      (mergeFrom CategoryAffinity.merge .empty payload).map fun entry =>
        { signal with affinities := signal.affinities ++ [entry] }
  | ⟨2, .bytes category, _⟩ =>
      some { signal with excludedCategories := signal.excludedCategories ++ [category] }
  | _ => some signal

/-- The fields of a signal put it together again. -/
theorem merges {signal : UserSignal D} (short : (fieldsBytes signal.fields).length < 2 ^ 64) :
    Merges merge {} signal.fields signal := by
  have entries : Merges merge {} (signal.affinities.map fun entry =>
      ⟨1, .bytes (fieldsBytes entry.fields), by decide⟩) ⟨signal.affinities, []⟩ := by
    refine Merges.repeated _ (fun affinities => (⟨affinities, []⟩ : UserSignal D)) _ ?_
    intro earlier entry member
    have written : (⟨1, .bytes (fieldsBytes entry.fields), by decide⟩ : Field) ∈ signal.fields :=
      List.mem_append_left _ (List.mem_map_of_mem member)
    have inside := length_lt_fieldsBytes written rfl
    rw [merge, mergeFrom_fieldsBytes (inside.trans short) entry.merges]
    rfl
  have categories : Merges merge ⟨signal.affinities, []⟩ (signal.excludedCategories.map
      fun category => ⟨2, .bytes category, by decide⟩) signal :=
    Merges.repeated _ (fun excluded => (⟨signal.affinities, excluded⟩ : UserSignal D)) _
      fun _ _ _ => rfl
  exact .cons entries (.cons categories .nil)

end UserSignal

namespace RankedItem

/-- The fields of an entry of a slate that are written. -/
def fields (entry : RankedItem D) : List Field :=
  [varintField 1 (by decide) entry.id,
    fixed64Field 2 (by decide) (doubleToBits entry.score),
    bytesField 3 (by decide) entry.category,
    bytesField 4 (by decide) entry.advertiser].flatten

/-- An entry without fields. -/
def empty : RankedItem D := ⟨0, bitsToDouble 0, [], []⟩

/-- What a field that was read does to an entry of a slate. -/
def merge (entry : RankedItem D) : Field → Option (RankedItem D)
  | ⟨1, .varint id, _⟩ => some { entry with id }
  | ⟨2, .fixed64 bits, _⟩ => some { entry with score := bitsToDouble bits }
  | ⟨3, .bytes category, _⟩ => some { entry with category }
  | ⟨4, .bytes advertiser, _⟩ => some { entry with advertiser }
  | _ => some entry

/-- The fields of an entry of a slate put it together again. -/
theorem merges (entry : RankedItem D) : Merges (merge (D := D)) empty entry.fields entry := by
  have read : Merges (merge (D := D)) empty entry.fields
      ⟨entry.id, bitsToDouble (doubleToBits entry.score), entry.category, entry.advertiser⟩ := by
    refine .cons (.varint rfl ?_) <| .cons (.fixed64 rfl ?_) <| .cons (.bytes rfl ?_) <|
      .cons (.bytes rfl ?_) .nil
    all_goals
      intro absent
      rw [absent]
      rfl
  simpa only [BitCast.bitsToDouble_doubleToBits] using read

end RankedItem

namespace Stats

/-- The counters that are written. -/
def fields (stats : Stats) : List Field :=
  [varintField 1 (by decide) stats.requests,
    varintField 2 (by decide) stats.gets,
    varintField 3 (by decide) stats.puts,
    varintField 4 (by decide) stats.deletes,
    varintField 5 (by decide) stats.recommends,
    varintField 6 (by decide) stats.hits,
    varintField 7 (by decide) stats.misses,
    varintField 8 (by decide) stats.evictions,
    varintField 9 (by decide) stats.entries,
    varintField 10 (by decide) stats.capacity,
    varintField 11 (by decide) stats.policyAllowed,
    varintField 12 (by decide) stats.policyExposureBlocked,
    varintField 13 (by decide) stats.policyFrequencyBlocked,
    varintField 14 (by decide) stats.policyStoreFull,
    varintField 15 (by decide) stats.policyTracked].flatten

/-- What a field that was read does to the counters. -/
def merge (stats : Stats) : Field → Option Stats
  | ⟨1, .varint requests, _⟩ => some { stats with requests }
  | ⟨2, .varint gets, _⟩ => some { stats with gets }
  | ⟨3, .varint puts, _⟩ => some { stats with puts }
  | ⟨4, .varint deletes, _⟩ => some { stats with deletes }
  | ⟨5, .varint recommends, _⟩ => some { stats with recommends }
  | ⟨6, .varint hits, _⟩ => some { stats with hits }
  | ⟨7, .varint misses, _⟩ => some { stats with misses }
  | ⟨8, .varint evictions, _⟩ => some { stats with evictions }
  | ⟨9, .varint entries, _⟩ => some { stats with entries }
  | ⟨10, .varint capacity, _⟩ => some { stats with capacity }
  | ⟨11, .varint policyAllowed, _⟩ => some { stats with policyAllowed }
  | ⟨12, .varint policyExposureBlocked, _⟩ => some { stats with policyExposureBlocked }
  | ⟨13, .varint policyFrequencyBlocked, _⟩ => some { stats with policyFrequencyBlocked }
  | ⟨14, .varint policyStoreFull, _⟩ => some { stats with policyStoreFull }
  | ⟨15, .varint policyTracked, _⟩ => some { stats with policyTracked }
  | _ => some stats

/-- The fields of the counters put them together again. -/
theorem merges (stats : Stats) : Merges merge {} stats.fields stats := by
  iterate 15
    refine .cons (.varint rfl ?_) ?_
    · intro absent
      rw [absent]
    dsimp only
  exact .nil

end Stats

/-! ## Bodies -/

namespace Body

/-- The number of the field of the arm that is set. -/
def arm : Body D → Nat
  | .notSet => 0
  | .getItemRequest _ => 2
  | .putItemRequest _ => 3
  | .deleteItemRequest _ => 4
  | .statsRequest => 5
  | .recommendRequest _ _ _ => 6
  | .getItemResponse _ _ => 7
  | .putItemResponse _ => 8
  | .deleteItemResponse _ => 9
  | .statsResponse _ _ => 10
  | .recommendResponse _ _ => 11
  | .errorResponse _ _ => 12

/-- The message of an arm without fields. -/
def fresh : Nat → Body D
  | 2 => .getItemRequest 0
  | 3 => .putItemRequest none
  | 4 => .deleteItemRequest 0
  | 5 => .statsRequest
  | 6 => .recommendRequest none 0 false
  | 7 => .getItemResponse ⟨0⟩ none
  | 8 => .putItemResponse ⟨0⟩
  | 9 => .deleteItemResponse ⟨0⟩
  | 10 => .statsResponse ⟨0⟩ none
  | 11 => .recommendResponse ⟨0⟩ []
  | 12 => .errorResponse ⟨0⟩ []
  | _ => .notSet

/-- The fields of the message of the arm that is set. -/
def fields : Body D → List Field
  | .notSet | .statsRequest => []
  | .getItemRequest itemId | .deleteItemRequest itemId => varintField 1 (by decide) itemId
  | .putItemRequest item => recordField 1 (by decide) (item.map Item.fields)
  | .recommendRequest signal count dryRun =>
      [recordField 1 (by decide) (signal.map UserSignal.fields),
        varintField 2 (by decide) count.toUInt64,
        varintField 3 (by decide) (if dryRun then 1 else 0)].flatten
  | .getItemResponse status item =>
      [varintField 1 (by decide) status.toWire,
        recordField 2 (by decide) (item.map Item.fields)].flatten
  | .putItemResponse status | .deleteItemResponse status => varintField 1 (by decide) status.toWire
  | .statsResponse status stats =>
      [varintField 1 (by decide) status.toWire,
        recordField 2 (by decide) (stats.map Stats.fields)].flatten
  | .recommendResponse status items =>
      [varintField 1 (by decide) status.toWire,
        items.map fun entry => ⟨2, .bytes (fieldsBytes entry.fields), by decide⟩].flatten
  | .errorResponse status message =>
      [varintField 1 (by decide) status.toWire, bytesField 2 (by decide) message].flatten

/-- What a field of that message changes. A message within it that is there already is
continued. -/
def merge : Body D → Field → Option (Body D)
  | .getItemRequest _, ⟨1, .varint itemId, _⟩ => some (.getItemRequest itemId)
  | .putItemRequest item, ⟨1, .bytes payload, _⟩ =>
      (mergeFrom Item.merge (item.getD absentItem) payload).map fun item =>
        .putItemRequest (some item)
  | .deleteItemRequest _, ⟨1, .varint itemId, _⟩ => some (.deleteItemRequest itemId)
  | .recommendRequest signal count dryRun, ⟨1, .bytes payload, _⟩ =>
      (mergeFrom UserSignal.merge (signal.getD {}) payload).map fun signal =>
        .recommendRequest (some signal) count dryRun
  | .recommendRequest signal _ dryRun, ⟨2, .varint count, _⟩ =>
      some (.recommendRequest signal count.toUInt32 dryRun)
  | .recommendRequest signal count _, ⟨3, .varint dryRun, _⟩ =>
      some (.recommendRequest signal count (dryRun != 0))
  | .getItemResponse _ item, ⟨1, .varint status, _⟩ => some (.getItemResponse (.ofWire status) item)
  | .getItemResponse status item, ⟨2, .bytes payload, _⟩ =>
      (mergeFrom Item.merge (item.getD absentItem) payload).map fun item =>
        .getItemResponse status (some item)
  | .putItemResponse _, ⟨1, .varint status, _⟩ => some (.putItemResponse (.ofWire status))
  | .deleteItemResponse _, ⟨1, .varint status, _⟩ => some (.deleteItemResponse (.ofWire status))
  | .statsResponse _ stats, ⟨1, .varint status, _⟩ => some (.statsResponse (.ofWire status) stats)
  | .statsResponse status stats, ⟨2, .bytes payload, _⟩ =>
      (mergeFrom Stats.merge (stats.getD {}) payload).map fun stats =>
        .statsResponse status (some stats)
  | .recommendResponse _ items, ⟨1, .varint status, _⟩ =>
      some (.recommendResponse (.ofWire status) items)
  | .recommendResponse status items, ⟨2, .bytes payload, _⟩ =>
      (mergeFrom RankedItem.merge .empty payload).map fun entry =>
        .recommendResponse status (items ++ [entry])
  | .errorResponse _ message, ⟨1, .varint status, _⟩ =>
      some (.errorResponse (.ofWire status) message)
  | .errorResponse status _, ⟨2, .bytes message, _⟩ => some (.errorResponse status message)
  | body, _ => some body

/-- Every response begins with its status. -/
theorem merges_status (build : Status → Body D) (status : Status)
    (merged : ∀ value,
      merge (build ⟨0⟩) ⟨1, .varint value, by decide⟩ = some (build (.ofWire value))) :
    Merges merge (build ⟨0⟩) (varintField 1 (by decide) status.toWire) (build status) := by
  have read := merged status.toWire
  rw [Status.ofWire_toWire] at read
  refine .varint read ?_
  intro absent
  rw [← status.ofWire_toWire, absent]
  rfl

/-- What a message writes is merged into an arm that begins anew. -/
theorem merges {body : Body D} (short : (fieldsBytes body.fields).length < 2 ^ 64) :
    Merges merge (fresh body.arm) body.fields body := by
  -- what is within a message is shorter than the message
  have within : ∀ number valid inner, ⟨number, .bytes (fieldsBytes inner), valid⟩ ∈ body.fields →
      (fieldsBytes inner).length < 2 ^ 64 :=
    fun _ _ _ member => (length_lt_fieldsBytes member rfl).trans short
  cases body with
  | notSet => exact .nil
  | statsRequest => exact .nil
  | getItemRequest itemId => exact .varint rfl fun absent => by rw [absent]; rfl
  | deleteItemRequest itemId => exact .varint rfl fun absent => by rw [absent]; rfl
  | putItemRequest item =>
      refine Merges.record (fun item => (.putItemRequest item : Body D)) ?_
      intro inner given
      have known := within 1 (by decide) inner.fields (by simp [fields, given, recordField])
      simp [merge, mergeFrom_fieldsBytes known inner.merges]
  | recommendRequest signal count dryRun =>
      have flag : ((if dryRun then 1 else 0 : UInt64) != 0) = dryRun := by
        cases dryRun <;> rfl
      have read : Merges merge (fresh 6) (fields (.recommendRequest signal count dryRun))
          (.recommendRequest signal count.toUInt64.toUInt32
            ((if dryRun then 1 else 0 : UInt64) != 0) : Body D) := by
        refine .cons (.record (fun signal => (.recommendRequest signal 0 false : Body D)) ?_)
          (.cons (.varint rfl ?_) (.cons (.varint rfl ?_) .nil))
        · intro inner given
          have known := within 1 (by decide) inner.fields (by simp [fields, given, recordField])
          simp [merge, mergeFrom_fieldsBytes known (inner.merges known)]
        · intro absent
          rw [absent]
          rfl
        · intro absent
          rw [absent]
          rfl
      rw [UInt32.toUInt32_toUInt64, flag] at read
      exact read
  | getItemResponse status item =>
      refine .cons (merges_status (.getItemResponse · none) status fun _ => rfl)
        (.cons (.record (fun item => (.getItemResponse status item : Body D)) ?_) .nil)
      intro inner given
      have known := within 2 (by decide) inner.fields (by simp [fields, given, recordField])
      simp [merge, mergeFrom_fieldsBytes known inner.merges]
  | putItemResponse status => exact merges_status .putItemResponse status fun _ => rfl
  | deleteItemResponse status => exact merges_status .deleteItemResponse status fun _ => rfl
  | statsResponse status stats =>
      refine .cons (merges_status (.statsResponse · none) status fun _ => rfl)
        (.cons (.record (fun stats => (.statsResponse status stats : Body D)) ?_) .nil)
      intro inner given
      have known := within 2 (by decide) inner.fields (by simp [fields, given, recordField])
      simp [merge, mergeFrom_fieldsBytes known inner.merges]
  | recommendResponse status items =>
      refine .cons (merges_status (.recommendResponse · []) status fun _ => rfl)
        (.cons (.repeated _ (fun items => (.recommendResponse status items : Body D)) _ ?_) .nil)
      intro earlier entry member
      have known := within 2 (by decide) entry.fields
        (List.mem_append_right _ (List.mem_append_left _ (List.mem_map_of_mem member)))
      simp [merge, mergeFrom_fieldsBytes known entry.merges]
  | errorResponse status message =>
      refine .cons (merges_status (.errorResponse · []) status fun _ => rfl)
        (.cons (.bytes rfl ?_) .nil)
      intro absent
      rw [absent]

omit [BitCast D] in
theorem arm_cases (body : Body D) : body = .notSet ∨ 2 ≤ body.arm ∧ body.arm ≤ 12 := by
  cases body <;> simp [arm]

omit [BitCast D] in
/-- The number of a body fits into a tag. -/
theorem arm_lt (body : Body D) : body.arm < 2 ^ 29 := by
  rcases body.arm_cases with rfl | ⟨_, below⟩
  · exact Nat.two_pow_pos 29
  · omega

/-- The field of the `oneof`. The arm that is set is written also if its message has no
fields. -/
def field (body : Body D) : List Field :=
  if set : 0 < body.arm then
    [⟨body.arm, .bytes (fieldsBytes body.fields), set, body.arm_lt⟩]
  else []

end Body

/-! ## Envelopes -/

namespace Envelope

/-- The fields of an envelope that are written. -/
def fields (envelope : Envelope D) : List Field :=
  [varintField 1 (by decide) envelope.requestId, envelope.body.field].flatten

/-- An envelope without fields. -/
def empty : Envelope D := ⟨0, .notSet⟩

/-- What a field that was read does to an envelope; a second body of another kind replaces the
first. -/
def merge (envelope : Envelope D) (field : Field) : Option (Envelope D) :=
  match field.value with
  | .varint requestId => some (if field.number = 1 then { envelope with requestId } else envelope)
  | .bytes payload =>
      if 2 ≤ field.number ∧ field.number ≤ 12 then
        let body := if envelope.body.arm = field.number then envelope.body else .fresh field.number
        (mergeFrom Body.merge body payload).map fun body => { envelope with body }
      else some envelope
  | _ => some envelope

/-- The field of a body sets it. -/
theorem merges_body (requestId : UInt64) {body : Body D}
    (short : (fieldsBytes body.field).length < 2 ^ 64) :
    Merges merge ⟨requestId, .notSet⟩ body.field ⟨requestId, body⟩ := by
  rcases body.arm_cases with rfl | known
  · exact .nil
  · have set : 0 < body.arm := Nat.lt_of_lt_of_le Nat.two_pos known.1
    have other : ¬ (.notSet : Body D).arm = body.arm := set.ne
    rw [Body.field, dif_pos set] at short ⊢
    have inside := (length_lt_fieldsBytes List.mem_cons_self rfl).trans short
    apply Merges.single
    simp only [merge, known, and_self, ↓reduceIte, other]
    rw [mergeFrom_fieldsBytes inside (Body.merges inside)]
    rfl

/-- The fields of an envelope put it together again. -/
theorem merges {envelope : Envelope D} (short : (fieldsBytes envelope.fields).length < 2 ^ 64) :
    Merges merge empty envelope.fields envelope := by
  obtain ⟨requestId, body⟩ := envelope
  have first : Merges merge (empty : Envelope D) (varintField 1 (by decide) requestId)
      ⟨requestId, .notSet⟩ := by
    refine .varint rfl ?_
    intro absent
    rw [absent]
    rfl
  rw [fields, List.flatten_cons, List.flatten_singleton, fieldsBytes, List.flatMap_append,
    List.length_append] at short
  exact .cons first (.cons (merges_body requestId (Nat.lt_of_le_of_lt (Nat.le_add_left _ _) short))
    .nil)

/-- An envelope is read back if its length is an `int`. -/
theorem mergeFrom_fields (envelope : Envelope D)
    (fits : (fieldsBytes envelope.fields).length ≤ intMax) :
    mergeFrom merge .empty (fieldsBytes envelope.fields) = some envelope := by
  have short : (fieldsBytes envelope.fields).length < 2 ^ 64 := by
    rw [intMax] at fits
    omega
  exact mergeFrom_fieldsBytes short (merges short)

end Envelope

/-- A runtime that writes and reads the wire form of envelopes. -/
def runtime : Serializer (Envelope D) where
  serialize envelope := fieldsBytes envelope.fields
  parse := mergeFrom Envelope.merge .empty
  parse_serialize := Envelope.mergeFrom_fields

end Lrd.Proto.Pb
