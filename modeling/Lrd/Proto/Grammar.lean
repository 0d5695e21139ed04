import Lrd.Proto.Codec

/-!
# The binary grammar

The bytes that stand for each part of a message. The writers of the codec append
them, and the readers accept exactly them (`Foundation.Reads`), with the limits each
reader checks on the way.
-/

namespace Lrd.Proto

open Foundation Rank

variable {D : Type}

/-! ## Limits -/

/-- The limits on a signal. -/
structure SignalWithinLimits (signal : UserSignal D) : Prop where
  affinities : signal.affinities.length ≤ kMaxAffinities.toNat
  affinityCategories : ∀ affinity ∈ signal.affinities,
    affinity.category.length ≤ kMaxCategoryLength
  excluded : signal.excludedCategories.length ≤ kMaxExcluded.toNat
  excludedCategories : ∀ category ∈ signal.excludedCategories,
    category.length ≤ kMaxCategoryLength

/-- What the decoder of requests demands of the arguments. -/
def RequestBody.WithinLimits : RequestBody D → Prop
  | .putItem item => itemWithinLimits item = true
  | .recommend asked => SignalWithinLimits asked.signal ∧ asked.count ≤ kMaxRecommendCount
  | _ => True

/-- The strings of a slate have no limit, but their lengths are sent in 32 bits. -/
def ResponseBody.Measured : ResponseBody D → Prop
  | .recommendResult _ items => ∀ ranked ∈ items,
      ranked.category.length < 2 ^ 32 ∧ ranked.advertiser.length < 2 ^ 32
  | _ => True

/-- The status that a response carries. -/
def ResponseBody.status : ResponseBody D → StatusCode
  | .getItemResult status _ => status
  | .putItemResult status => status
  | .deleteItemResult status => status
  | .statsResult status _ => status
  | .recommendResult status _ => status
  | .failure status _ => status

/-- The header under which a request is sent. -/
def requestHeader (request : Request D) : Header :=
  ⟨kVersion, request.body.typeOf, 0, request.requestId⟩

/-- The header under which a response is sent. -/
def responseHeader (response : Response D) : Header :=
  ⟨kVersion, response.body.typeOf, 0, response.requestId⟩

variable [BitCast D]

/-- The limits on a response. An item that means nothing is the default one. -/
def ResponseBody.WithinLimits : ResponseBody D → Prop
  | .getItemResult status item =>
      itemWithinLimits item = true ∧ (status ≠ .ok → item = defaultItem)
  | .recommendResult _ items => items.length ≤ kMaxRecommendCount.toNat
  | .failure _ message => message.length ≤ kMaxMessageLength
  | _ => True

/-! ## Printed forms -/

/-- The bytes of an item. -/
def itemBytes (item : Item D) : Bytes :=
  u64Bytes item.id ++ stringBytes item.category ++ stringBytes item.advertiser ++
    u64Bytes (doubleToBits item.baseScore) ++ u64Bytes item.createdAt.millis.toUInt64 ++
    u64Bytes item.expiresAt.millis.toUInt64

variable {α : Type}

/-- A list behind its count. -/
def countedBytes (print : α → Bytes) (values : List α) : Bytes :=
  u32Bytes (UInt32.ofNat values.length) ++ values.flatMap print

/-- No part of a list's printed form is longer than the whole. -/
theorem length_print_le (print : α → Bytes) {values : List α} {value : α} (member : value ∈ values) :
    (print value).length ≤ (countedBytes print values).length := by
  have inside : (print value).Sublist (values.flatMap print) :=
    List.sublist_flatten_of_mem (List.mem_map_of_mem member)
  have bounded := inside.length_le
  rw [countedBytes, List.length_append]
  omega

/-- The bytes of an affinity. -/
def affinityBytes (affinity : CategoryAffinity D) : Bytes :=
  stringBytes affinity.category ++ u64Bytes (doubleToBits affinity.weight)

/-- The bytes of a signal. -/
def signalBytes (signal : UserSignal D) : Bytes :=
  countedBytes affinityBytes signal.affinities ++
    countedBytes stringBytes signal.excludedCategories

/-- The bytes of an entry of a slate. -/
def rankedBytes (ranked : RankedItem D) : Bytes :=
  u64Bytes ranked.id ++ u64Bytes (doubleToBits ranked.score) ++ stringBytes ranked.category ++
    stringBytes ranked.advertiser

/-- The bytes of the counters. -/
def statsBytes (stats : Stats) : Bytes :=
  u64Bytes stats.requests ++ u64Bytes stats.gets ++ u64Bytes stats.puts ++
    u64Bytes stats.deletes ++ u64Bytes stats.recommends ++ u64Bytes stats.hits ++
    u64Bytes stats.misses ++ u64Bytes stats.evictions ++ u64Bytes stats.entries ++
    u64Bytes stats.capacity ++ u64Bytes stats.policyAllowed ++
    u64Bytes stats.policyExposureBlocked ++ u64Bytes stats.policyFrequencyBlocked ++
    u64Bytes stats.policyStoreFull ++ u64Bytes stats.policyTracked

/-- The bytes of a header. -/
def headerBytes (header : Header) : Bytes :=
  u32Bytes kMagic ++ [header.version] ++ [header.type.code] ++ u16Bytes header.flags ++
    u64Bytes header.requestId

/-- The fields of a `Recommend`, with the byte that stands for its flag. -/
def recommendBytes (fields : UserSignal D × UInt32 × UInt8) : Bytes :=
  signalBytes fields.1 ++ u32Bytes fields.2.1 ++ [fields.2.2]

/-- The bytes of the arguments of a request. -/
def requestBodyBytes : RequestBody D → Bytes
  | .getItem itemId => u64Bytes itemId
  | .putItem item => itemBytes item
  | .deleteItem itemId => u64Bytes itemId
  | .getStats => []
  | .recommend recommend =>
      recommendBytes (recommend.signal, recommend.count, if recommend.dryRun then 1 else 0)

/-- The bytes of a response after its status. -/
def resultBytes : ResponseBody D → Bytes
  | .getItemResult status item => if status = .ok then itemBytes item else []
  | .putItemResult _ => []
  | .deleteItemResult _ => []
  | .statsResult _ stats => statsBytes stats
  | .recommendResult _ items => countedBytes rankedBytes items
  | .failure _ message => stringBytes message

/-! ## Writers -/

namespace Appends

theorem item (item : Item D) : Appends (writeItem item) (itemBytes item) := by
  refine (seq (u64 _) (seq (string _) (seq (string _) (seq (u64 _) (seq (u64 _)
    (u64 _)))))).congr ?_
  simp only [itemBytes, toEpochMillis, List.append_assoc]

/-- What a list with its number in front appends. -/
theorem counted {writer : α → ByteWriter} {print : α → Bytes}
    (each : ∀ value, Appends (writer value) (print value)) (values : List α) :
    Appends (do ByteWriter.u32 (UInt32.ofNat values.length); values.forM writer)
      (countedBytes print values) :=
  seq (u32 _) (forM fun value _ => each value)

theorem affinity (affinity : CategoryAffinity D) :
    Appends (writeAffinity affinity) (affinityBytes affinity) :=
  seq (string _) (u64 _)

theorem signal (signal : UserSignal D) : Appends (writeSignal signal) (signalBytes signal) := by
  refine (seq (u32 _) (seq (forM fun _ _ => affinity _)
    (counted string signal.excludedCategories))).congr ?_
  simp only [signalBytes, countedBytes, List.append_assoc]

theorem ranked (ranked : RankedItem D) : Appends (writeRanked ranked) (rankedBytes ranked) := by
  apply (seq (u64 _) (seq (u64 _) (seq (string _) (string _)))).congr
  simp only [rankedBytes, List.append_assoc]

/-- What `writeStats` appends. -/
theorem stats (stats : Stats) : Appends (writeStats stats) (statsBytes stats) := by
  refine (seq (u64 _) (seq (u64 _) (seq (u64 _) (seq (u64 _) (seq (u64 _) (seq (u64 _)
    (seq (u64 _) (seq (u64 _) (seq (u64 _) (seq (u64 _) (seq (u64 _) (seq (u64 _)
    (seq (u64 _) (seq (u64 _) (u64 _))))))))))))))).congr ?_
  simp only [statsBytes, List.append_assoc]

theorem header (header : Header) : Appends (encodeHeader header) (headerBytes header) := by
  apply (seq (u32 _) (seq (u8 _) (seq (u8 _) (seq (u16 _) (u64 _))))).congr
  simp only [headerBytes, List.append_assoc]

/-- What `writeRequestBody` appends, for every kind of request. -/
theorem requestBody (body : RequestBody D) :
    Appends (writeRequestBody body) (requestBodyBytes body) := by
  cases body with
  | getItem itemId => exact u64 itemId
  | putItem value => exact item value
  | deleteItem itemId => exact u64 itemId
  | getStats => exact nothing
  | recommend recommend =>
      apply (seq (signal _) (seq (u32 _) (u8 _))).congr
      simp only [requestBodyBytes, recommendBytes, List.append_assoc]

/-- What `writeResponseBody` appends, for every kind of response. -/
theorem responseBody (body : ResponseBody D) :
    Appends (writeResponseBody body) ([body.status.code] ++ resultBytes body) := by
  cases body with
  | getItemResult status value =>
      apply seq (u8 status.code)
      change Appends (if status = .ok then writeItem value else pure ())
        (if status = .ok then itemBytes value else [])
      split
      · exact item value
      · exact nothing
  | putItemResult status => exact u8 status.code
  | deleteItemResult status => exact u8 status.code
  | statsResult status value => exact seq (u8 status.code) (stats value)
  | recommendResult status items => exact seq (u8 status.code) (counted ranked items)
  | failure status message => exact seq (u8 status.code) (string message)

theorem request (request : Request D) :
    Appends (writeRequest request)
      (headerBytes (requestHeader request) ++ requestBodyBytes request.body) :=
  seq (header _) (requestBody _)

/-- What `writeResponse` appends. -/
theorem response (response : Response D) :
    Appends (writeResponse response)
      (headerBytes (responseHeader response) ++
        ([response.body.status.code] ++ resultBytes response.body)) :=
  seq (header _) (responseBody _)

end Appends

namespace BinaryCodec

/-- Encoding a request appends its bytes to the buffer. -/
theorem encodeRequest_eq (request : Request D) (out : Bytes) :
    encodeRequest request out =
      out ++ (headerBytes (requestHeader request) ++ requestBodyBytes request.body) := by
  rw [encodeRequest, Appends.request]

/-- Encoding a response appends its bytes to the buffer. -/
theorem encodeResponse_eq (response : Response D) (out : Bytes) :
    encodeResponse response out =
      out ++ (headerBytes (responseHeader response) ++
        ([response.body.status.code] ++ resultBytes response.body)) := by
  rw [encodeResponse, Appends.response]

theorem encodeRequest_append (request : Request D) (out : Bytes) :
    encodeRequest request out = out ++ encodeRequest request [] := by
  rw [encodeRequest_eq, encodeRequest_eq request [], List.nil_append]

theorem encodeResponse_append (response : Response D) (out : Bytes) :
    encodeResponse response out = out ++ encodeResponse response [] := by
  rw [encodeResponse_eq, encodeResponse_eq response [], List.nil_append]

end BinaryCodec

/-! ## Readers -/

section Reads

variable {ε : Type} {data : Bytes}

omit [BitCast D] in
/-- A string within its limit has a length that its prefix can hold. -/
theorem measured_of_withinLimits {item : Item D} (within : itemWithinLimits item = true) :
    item.category.length < 2 ^ 32 ∧ item.advertiser.length < 2 ^ 32 := by
  rw [itemWithinLimits, Bool.and_eq_true, decide_eq_true_eq, decide_eq_true_eq] at within
  exact ⟨within.1.trans_lt (by decide), within.2.trans_lt (by decide)⟩

theorem reads_nothing (value : α) :
    Reads (.ofReader (pure value) : Parser ε data α) (fun _ => []) (fun other => other = value) :=
  Reads.constant value

/-- An item is read back if the lengths of its strings fit into 32 bits. -/
theorem reads_item :
    Reads (.ofReader readItem : Parser ε data (Item D)) itemBytes
      (fun item => item.category.length < 2 ^ 32 ∧ item.advertiser.length < 2 ^ 32) := by
  refine ((reads_u64.seq (reads_string.seq (reads_string.seq (reads_u64.seq (reads_u64.seq
    reads_u64))))).build
    (fun (id, category, advertiser, score, created, expires) =>
      (⟨id, category, advertiser, bitsToDouble score, ⟨created.toInt64⟩, ⟨expires.toInt64⟩⟩ :
        Item D))
    (fun item => (item.id, item.category, item.advertiser, doubleToBits item.baseScore,
      item.createdAt.millis.toUInt64, item.expiresAt.millis.toUInt64)) ?_ ?_).congr ?_ ?_
  · intro given
    obtain ⟨id, category, advertiser, score, created, expires⟩ := given
    simp only [BitCast.doubleToBits_bitsToDouble]
    rfl
  · intro given
    obtain ⟨id, category, advertiser, score, created, expires⟩ := given
    simp only [BitCast.bitsToDouble_doubleToBits]
    rfl
  · intro item
    simp only [itemBytes, List.append_assoc]
  · intro item
    simp only [true_and, and_true]

/-- An affinity is read back. -/
theorem reads_affinity :
    Reads (.ofReader readAffinity : Parser ε data (CategoryAffinity D)) affinityBytes
      (fun affinity => affinity.category.length < 2 ^ 32) := by
  refine ((reads_string.seq reads_u64).build
    (fun (category, weight) => (⟨category, bitsToDouble weight⟩ : CategoryAffinity D))
    (fun affinity => (affinity.category, doubleToBits affinity.weight)) ?_ ?_).congr
    (fun _ => rfl) ?_
  · intro given
    obtain ⟨category, weight⟩ := given
    simp only [BitCast.doubleToBits_bitsToDouble]
  · intro given
    obtain ⟨category, weight⟩ := given
    simp only [BitCast.bitsToDouble_doubleToBits]
  · intro affinity
    simp only [and_true]

/-- An entry of a slate is read back. -/
theorem reads_ranked :
    Reads (.ofReader readRanked : Parser ε data (RankedItem D)) rankedBytes
      (fun ranked => ranked.category.length < 2 ^ 32 ∧ ranked.advertiser.length < 2 ^ 32) := by
  refine ((reads_u64.seq (reads_u64.seq (reads_string.seq reads_string))).build
    (fun (id, score, category, advertiser) =>
      (⟨id, bitsToDouble score, category, advertiser⟩ : RankedItem D))
    (fun ranked => (ranked.id, doubleToBits ranked.score, ranked.category, ranked.advertiser))
    ?_ ?_).congr ?_ ?_
  · intro given
    obtain ⟨id, score, category, advertiser⟩ := given
    simp only [BitCast.doubleToBits_bitsToDouble]
  · intro given
    obtain ⟨id, score, category, advertiser⟩ := given
    simp only [BitCast.bitsToDouble_doubleToBits]
  · intro ranked
    simp only [rankedBytes, List.append_assoc]
  · intro ranked
    simp only [true_and]

/-- The counters are read back. -/
theorem reads_stats :
    Reads (.ofReader readStats : Parser ε data Stats) statsBytes (fun _ => True) := by
  refine ((reads_u64.seq (reads_u64.seq (reads_u64.seq (reads_u64.seq (reads_u64.seq
    (reads_u64.seq (reads_u64.seq (reads_u64.seq (reads_u64.seq (reads_u64.seq (reads_u64.seq
    (reads_u64.seq (reads_u64.seq (reads_u64.seq reads_u64)))))))))))))).build
    (fun (requests, gets, puts, deletes, recommends, hits, misses, evictions, entries, capacity,
        policyAllowed, policyExposureBlocked, policyFrequencyBlocked, policyStoreFull,
        policyTracked) =>
      (⟨requests, gets, puts, deletes, recommends, hits, misses, evictions, entries, capacity,
        policyAllowed, policyExposureBlocked, policyFrequencyBlocked, policyStoreFull,
        policyTracked⟩ : Stats))
    (fun stats => (stats.requests, stats.gets, stats.puts, stats.deletes, stats.recommends,
      stats.hits, stats.misses, stats.evictions, stats.entries, stats.capacity,
      stats.policyAllowed, stats.policyExposureBlocked, stats.policyFrequencyBlocked,
      stats.policyStoreFull, stats.policyTracked))
    (fun _ => rfl) (fun _ => rfl)).congr ?_ ?_
  · intro stats
    simp only [statsBytes, List.append_assoc]
  · intro stats
    simp only [and_true]

/-- A list behind its count is read back if it is no longer than the bound and each of
its values fits. -/
theorem reads_counted {readOne : Reader data α} {print : α → Bytes} {valid : α → Prop}
    (reads : Reads (.ofReader readOne : Parser Unit data α) print valid) (max : UInt32)
    (fits : α → Bool) :
    Reads (readCounted max readOne fits) (countedBytes print) (fun values =>
      values.length ≤ max.toNat ∧ ∀ value ∈ values, valid value ∧ fits value = true) := by
  unfold readCounted countedBytes
  refine Reads.bind reads_u32 (fun values : List α => UInt32.ofNat values.length) (fun count => ?_)
    fun _ _ => trivial
  have counts : ∀ {values : List α}, values.length ≤ max.toNat →
      (UInt32.ofNat values.length = count ↔ values.length = count.toNat) := by
    intro values bounded
    have small : values.length < UInt32.size := bounded.trans_lt max.toNat_lt
    rw [← UInt32.toNat_inj, UInt32.toNat_ofNat_of_lt' small]
  refine Reads.unlessFailed ?_ fun _ => rfl
  by_cases exceeds : max < count
  · rw [if_pos exceeds]
    apply Reads.failure ()
    intro values given
    obtain ⟨⟨bounded, _⟩, same⟩ := given
    have length := (counts bounded).mp same
    rw [UInt32.lt_iff_toNat_lt] at exceeds
    omega
  · rw [if_neg exceeds]
    refine (reads.repeated fits () count.toNat).congr (fun _ => rfl) fun values => ?_
    rw [UInt32.lt_iff_toNat_lt] at exceeds
    constructor
    · intro given
      obtain ⟨length, each⟩ := given
      have bounded : values.length ≤ max.toNat := by omega
      exact ⟨⟨bounded, each⟩, (counts bounded).mpr length⟩
    · intro given
      obtain ⟨⟨bounded, each⟩, same⟩ := given
      exact ⟨(counts bounded).mp same, each⟩

theorem measured_of_short_category {value : Bytes} (short : value.length ≤ kMaxCategoryLength) :
    value.length < 2 ^ 32 :=
  short.trans_lt (by decide)

/-- A signal within the limits is read back, and no other is accepted. -/
theorem reads_signal :
    Reads (readSignal : Parser Unit data (UserSignal D)) signalBytes SignalWithinLimits := by
  have same : (readSignal : Parser Unit data (UserSignal D)) =
      (readCounted kMaxAffinities readAffinity
        fun affinity => affinity.category.length ≤ kMaxCategoryLength).seq
      (readCounted kMaxExcluded ByteReader.string
        fun category => category.length ≤ kMaxCategoryLength) >>=
      fun lists => pure ⟨lists.1, lists.2⟩ := by
    simp only [readSignal, Parser.seq, bind_assoc, pure_bind]
  rw [same]
  refine (((reads_counted reads_affinity _ _).seq (reads_counted reads_string _ _)).build _
    (fun signal => (signal.affinities, signal.excludedCategories)) (fun _ => rfl)
    fun _ => rfl).congr (fun signal => ?_) fun signal => ⟨?_, ?_⟩
  · simp only [signalBytes]
  · intro given
    obtain ⟨⟨few, each⟩, few', each'⟩ := given
    exact ⟨few, fun affinity member => of_decide_eq_true (each affinity member).2, few',
      fun category member => of_decide_eq_true (each' category member).2⟩
  · intro limits
    refine ⟨⟨limits.affinities, ?_⟩, limits.excluded, ?_⟩
    · intro affinity member
      have short := limits.affinityCategories affinity member
      exact ⟨measured_of_short_category short, decide_eq_true short⟩
    · intro category member
      have short := limits.excludedCategories category member
      exact ⟨measured_of_short_category short, decide_eq_true short⟩

/-- The arguments of a recommendation are read back. -/
theorem reads_recommend :
    Reads (readRecommend : Parser Unit data (UserSignal D × UInt32 × UInt8)) recommendBytes
      (fun fields => SignalWithinLimits fields.1) := by
  have same : (readRecommend : Parser Unit data (UserSignal D × UInt32 × UInt8)) =
      readSignal.seq ((Parser.ofReader ByteReader.u32).seq (.ofReader ByteReader.u8)) := by
    simp only [readRecommend, Parser.seq, bind_assoc, pure_bind]
  rw [same]
  refine (reads_signal.seq (reads_u32.seq reads_u8)).congr ?_ ?_
  · intro fields
    simp only [recommendBytes, List.append_assoc]
  · intro fields
    simp only [and_true]

/-- A known type is told by its byte. -/
theorem ofCode_eq_some_iff (raw : UInt8) (type : MessageType) :
    MessageType.ofCode raw = some type ↔ type.code = raw := by
  constructor
  · intro known
    have peel : ∀ {code : UInt8} {first : MessageType} {others : Option MessageType},
        (if raw = code then some first else others) = some type →
          (raw = code ∧ first = type) ∨ others = some type := by
      intro code first others known
      by_cases same : raw = code
      · rw [if_pos same] at known
        exact Or.inl ⟨same, Option.some.inj known⟩
      · rw [if_neg same] at known
        exact Or.inr known
    unfold MessageType.ofCode at known
    iterate 11
      rcases peel known with ⟨rfl, rfl⟩ | known
      · rfl
    cases known
  · intro same
    obtain rfl := same
    cases type <;> rfl

/-- A header is read back if its version and its flags are the right ones. -/
theorem reads_header :
    Reads (decodeHeader : Parser DecodeError data Header) headerBytes
      (fun header => header.version = kVersion ∧ header.flags = 0) := by
  have nested : Reads (decodeHeader : Parser DecodeError data Header)
      (fun header => u32Bytes kMagic ++ ([header.version] ++ ([header.type.code] ++
        (u16Bytes header.flags ++ (u64Bytes header.requestId ++ [])))))
      (fun header => header.version = kVersion ∧ header.flags = 0) := by
    unfold decodeHeader
    refine Reads.bind reads_u32 (fun _ : Header => kMagic) (fun magic => ?_) fun _ _ => trivial
    refine Reads.unlessFailed ?_ fun _ => rfl
    by_cases foreign : magic ≠ kMagic
    · rw [if_pos foreign]
      exact Reads.failure _ fun _ same => foreign same.2.symm
    rw [if_neg foreign]
    refine Reads.bind reads_u8 Header.version (fun version => ?_) fun _ _ => trivial
    refine Reads.bind reads_u8 (fun header : Header => header.type.code) (fun rawType => ?_)
      fun _ _ => trivial
    refine Reads.bind reads_u16 Header.flags (fun flags => ?_) fun _ _ => trivial
    refine Reads.bind reads_u64 Header.requestId (fun requestId => ?_) fun _ _ => trivial
    refine Reads.unlessFailed ?_ fun _ => rfl
    by_cases skewed : version ≠ kVersion
    · rw [if_pos skewed]
      apply Reads.failure _
      intro header given
      obtain ⟨⟨⟨⟨⟨⟨current, _⟩, _⟩, rfl⟩, _⟩, _⟩, _⟩ := given
      exact skewed current
    rw [if_neg skewed]
    by_cases reserved : flags ≠ 0
    · rw [if_pos reserved]
      apply Reads.failure _
      intro header given
      obtain ⟨⟨⟨⟨⟨⟨_, clear⟩, _⟩, _⟩, _⟩, rfl⟩, _⟩ := given
      exact reserved clear
    rw [if_neg reserved]
    cases known : MessageType.ofCode rawType with
    | none =>
        apply Reads.failure _
        intro header given
        obtain ⟨⟨⟨_, sameType⟩, _⟩, _⟩ := given
        rw [(ofCode_eq_some_iff rawType header.type).mpr sameType] at known
        cases known
    | some type =>
        have coded := (ofCode_eq_some_iff rawType type).mp known
        refine (Reads.constant _).congr (fun _ => rfl) fun header => ⟨?_, ?_⟩
        · intro same
          obtain rfl := same
          exact ⟨⟨⟨⟨⟨⟨not_not.mp skewed, not_not.mp reserved⟩, (not_not.mp foreign).symm⟩, rfl⟩,
            coded⟩, rfl⟩, rfl⟩
        · intro given
          obtain ⟨⟨⟨⟨_, rfl⟩, sameType⟩, rfl⟩, rfl⟩ := given
          have same := (ofCode_eq_some_iff rawType header.type).mpr sameType
          rw [known] at same
          rw [Option.some.inj same]
  refine nested.congr (fun header => ?_) fun _ => Iff.rfl
  simp only [headerBytes, List.append_assoc, List.append_nil]

end Reads

end Lrd.Proto
