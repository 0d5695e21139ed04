import Lrd.Daemon.Server
import Lrd.Daemon.Versions
import Lrd.Proto.Framing
import Lrd.Proto.RoundTrip
import Mathlib.Algebra.Order.BigOperators.Group.List
import Mathlib.Algebra.Order.Ring.Nat

/-!
# Replies

A daemon whose requests were all decoded from bytes never sends a reply that its client
must refuse (`replies_accepted`). `handle` checks none of the limits that the decoder of
responses checks. What keeps them is that every item of the cache was once in a decoded
`PutItem` (`stored_withinLimits`).
-/

namespace Lrd.Daemon

open Foundation Common Rank Policy Cache Proto BinaryCodec

/-! ## Sizes -/

section Sizes

variable {D : Type} [BitCast D]

/-- The strings of a slate keep the limits of the items they were copied from. -/
def Labelled : ResponseBody D → Prop
  | .recommendResult _ items => ∀ ranked ∈ items,
      ranked.category.length ≤ kMaxCategoryLength ∧
        ranked.advertiser.length ≤ kMaxAdvertiserLength
  | _ => True

theorem length_headerBytes (header : Header) : (headerBytes header).length = 16 := by
  simp only [headerBytes, u16Bytes, u32Bytes, u64Bytes, List.length_append, length_bigEndian,
    List.length_cons, List.length_nil]

/-- A slate takes at most 152 bytes an entry. -/
theorem length_slate_le {items : List (RankedItem D)}
    (labelled : ∀ ranked ∈ items, ranked.category.length ≤ kMaxCategoryLength ∧
      ranked.advertiser.length ≤ kMaxAdvertiserLength) :
    (items.flatMap rankedBytes).length ≤ items.length * 152 := by
  have each : ∀ size ∈ items.map fun ranked => (rankedBytes ranked).length, size ≤ 152 := by
    intro size member
    obtain ⟨ranked, inside, rfl⟩ := List.mem_map.mp member
    obtain ⟨category, advertiser⟩ := labelled ranked inside
    simp only [rankedBytes, u64Bytes, List.length_append, length_bigEndian, length_stringBytes]
    rw [kMaxCategoryLength] at category
    rw [kMaxAdvertiserLength] at advertiser
    omega
  have total := List.sum_le_card_nsmul _ _ each
  rw [List.length_map, nsmul_eq_mul, Nat.cast_id] at total
  rw [List.length_flatMap]
  exact total

/-- Every result within the limits fits into 64 KiB. -/
theorem length_resultBytes_le {body : ResponseBody D} (within : body.WithinLimits)
    (labelled : Labelled body) : (resultBytes body).length ≤ 2 ^ 16 := by
  cases body with
  | getItemResult status item =>
      have short := within.1
      rw [itemWithinLimits, Bool.and_eq_true, decide_eq_true_eq, decide_eq_true_eq,
        kMaxCategoryLength, kMaxAdvertiserLength] at short
      rw [resultBytes]
      split
      · simp only [itemBytes, u64Bytes, List.length_append, length_bigEndian, length_stringBytes]
        omega
      · exact Nat.zero_le _
  | statsResult status stats =>
      simp only [resultBytes, statsBytes, u64Bytes, List.length_append, length_bigEndian]
      omega
  | recommendResult status items =>
      have few : items.length ≤ 100 := within
      have slate := length_slate_le labelled
      simp only [resultBytes, countedBytes, u32Bytes, List.length_append, length_bigEndian]
      omega
  | failure status message =>
      have short : message.length ≤ 1024 := within
      rw [resultBytes, length_stringBytes]
      omega
  | _ => exact Nat.zero_le _

/-- A client takes the response as the answer to the request of the given id. -/
structure Accepted (requestId : UInt64) (response : Response D) : Prop where
  own : response.requestId = requestId
  framable : Framable (encodeResponse response [])
  decoded : ∀ out, decodeResponse (encodeResponse response []) out = (.none, response)

/-- A response within the limits is accepted. -/
theorem accepted_of_limits {requestId : UInt64} {response : Response D}
    (own : response.requestId = requestId) (within : response.body.WithinLimits)
    (labelled : Labelled response.body) : Accepted requestId response := by
  have size : (encodeResponse response []).length = 17 + (resultBytes response.body).length := by
    rw [encodeResponse_eq]
    simp only [List.nil_append, List.length_append, length_headerBytes, List.length_singleton]
    omega
  have bounded := length_resultBytes_le within labelled
  have framable : Framable (encodeResponse response []) := by
    rw [Framable, size, kMinFrameSize, kMaxFrameSize]
    simp only [UInt32.reduceMul, UInt32.reduceToNat]
    omega
  refine ⟨own, framable, ?_⟩
  intro out
  refine (decodeResponse_iff _ out response).mpr ⟨within, measured_of_short ?_, rfl⟩
  omega

end Sizes

/-! ## Rejections -/

/-- A rejection carries the id of the header it was read behind. -/
theorem accepted_of_rejected {D : Type} [BitCast D] {body : Bytes} {response : Response D}
    (rejected : receive body = .reject response) :
    ∃ header later, (header.version = kVersion ∧ header.flags = 0) ∧
      body = headerBytes header ++ later ∧ Accepted header.requestId response := by
  unfold receive at rejected
  split at rejected
  · cases rejected
  · rename_i left refused
    cases rejected
    obtain ⟨type, later, split⟩ := decodeRequest_fieldTooLarge refused
    refine ⟨_, later, ⟨rfl, rfl⟩, split, accepted_of_limits rfl ?_ trivial⟩
    change (text DecodeError.fieldTooLarge.toString).length ≤ kMaxMessageLength
    decide +kernel
  · cases rejected

variable {D : Type} [Double D] {config : Config D}

/-! ## What the cache holds -/

/-- Every request of the schedule was decoded from some bytes. -/
def Decoded (schedule : List (Label Timestamp (Request D))) : Prop :=
  ∀ request, .invoke request ∈ schedule →
    ∃ body out, decodeRequest body out = (.none, request)

variable {schedule : List (Label Timestamp (Request D))}

/-- What was decoded is within the limits. -/
theorem Decoded.withinLimits (decoded : Decoded schedule) {request : Request D}
    (invoked : .invoke request ∈ schedule) : request.body.WithinLimits := by
  obtain ⟨body, out, accepted⟩ := decoded request invoked
  exact ((decodeRequest_iff body out request).mp accepted).1

/-- Earlier requests were decoded too. -/
theorem Decoded.earlier {earlier later : List (Label Timestamp (Request D))}
    (decoded : Decoded schedule) (split : schedule = earlier ++ later) : Decoded earlier := by
  intro request invoked
  apply decoded
  rw [split]
  exact List.mem_append_left _ invoked

/-- An item that was written last was in a decoded `PutItem`. -/
theorem stored_withinLimits (decoded : Decoded schedule) {id : ItemId} {item : Item D}
    (last : latest (itemWrites (reached config schedule).history) id = some (some item)) :
    itemWithinLimits item = true := by
  obtain ⟨event, performed, written⟩ := List.mem_filterMap.mp (mem_of_latest last)
  obtain ⟨call, made, _, requested⟩ := write_requested schedule performed written
  have within := decoded.withinLimits (System.run_invoked _ schedule call made)
  rcases requested with ⟨stored, isPut, _, same⟩ | ⟨_, _, same⟩
  · cases same
    rw [isPut] at within
    exact within
  · cases same

/-! ## Responses -/

omit [Double D] in
theorem length_putErrors_le : ∀ message ∈ putErrors, message.length ≤ kMaxMessageLength := by
  decide +kernel

/-- The one error that a decoded `Recommend` can meet is short. -/
theorem length_recommendErrors_le {count : UInt32} (few : count ≤ kMaxRecommendCount) :
    ∀ message ∈ recommendErrors count, message.length ≤ kMaxMessageLength := by
  intro message member
  rw [recommendErrors, if_neg (UInt32.not_lt.mpr few)] at member
  split at member
  · rw [List.mem_singleton.mp member]
    decide +kernel
  · exact absurd member List.not_mem_nil

/-- Every response keeps the limits. -/
theorem limits_of_finished (decoded : Decoded schedule) {index : Nat}
    {call : Call (steps config) (Request D) (Response D)}
    (made : (reached config schedule).calls[index]? = some call) {response : Response D}
    (finished : call.result? = some response) :
    response.body.WithinLimits ∧ Labelled response.body := by
  have within := decoded.withinLimits
    (System.run_invoked _ schedule call (List.mem_of_getElem? made))
  have current := current_of_finished schedule made finished
  obtain ⟨_, rest, traced, answered⟩ :=
    answered_of_finished schedule (List.mem_of_getElem? made) finished
  unfold Current at current
  generalize call.request.body = body at answered current within
  generalize responded : response.body = reply at answered current ⊢
  cases answered with
  | found id item =>
      rcases current with missed | ⟨_, earlier, same, performed, last⟩
      · cases missed
      · cases same
        obtain ⟨_, _, split, _⟩ := performed
        have kept := stored_withinLimits (decoded.earlier split) last
        exact ⟨⟨kept, fun other => absurd rfl other⟩, trivial⟩
  | missed id =>
      refine ⟨⟨rfl, fun _ => ?_⟩, trivial⟩
      rw [defaultItem, Double.bitsToDouble_zero]
  | refused item message named => exact ⟨length_putErrors_le message named, trivial⟩
  | recommended recommend now batches later slate bounded scanned drawn =>
      refine ⟨drawn.short.trans (UInt32.le_iff_toNat_le.mp bounded), ?_⟩
      intro ranked member
      simp only [slateOf, responded] at current
      obtain ⟨item, earlier, ⟨_, _, split, _⟩, _, last, label⟩ := current.2 ranked member
      have kept := stored_withinLimits (decoded.earlier split) last
      obtain ⟨_, category, advertiser⟩ : ranked.id = item.id ∧ ranked.category = item.category ∧
          ranked.advertiser = item.advertiser := by
        simpa only [RankedItem.label, Item.label, Prod.mk.injEq] using label
      rw [itemWithinLimits, Bool.and_eq_true, decide_eq_true_eq, decide_eq_true_eq] at kept
      rw [category, advertiser]
      exact kept
  | rejected recommend message named =>
      exact ⟨length_recommendErrors_le within.2 message named, trivial⟩
  | _ => exact ⟨trivial, trivial⟩

/-- Every response is accepted. -/
theorem accepted_of_finished (decoded : Decoded schedule)
    {call : Call (steps config) (Request D) (Response D)}
    (made : call ∈ (reached config schedule).calls) {response : Response D}
    (finished : call.result? = some response) :
    Accepted call.request.requestId response := by
  obtain ⟨index, here⟩ := List.getElem?_of_mem made
  obtain ⟨within, labelled⟩ := limits_of_finished decoded here finished
  exact accepted_of_limits (answered_of_finished schedule made finished).1 within labelled

/-- No reply of the daemon has to be refused. In every run whose requests were all
decoded, every response and every rejection carries the id of its request, fits into a
frame and is decoded to itself. -/
theorem replies_accepted (schedule : List (Label Timestamp (Request D)))
    (decoded : Decoded schedule) :
    (∀ call ∈ (reached config schedule).calls, ∀ response, call.result? = some response →
      Accepted call.request.requestId response) ∧
    ∀ (body : Bytes) (response : Response D), receive body = .reject response →
      ∃ header later, body = headerBytes header ++ later ∧
        Accepted header.requestId response := by
  refine ⟨?_, ?_⟩
  · intro call made response finished
    exact accepted_of_finished decoded made finished
  · intro body response rejected
    obtain ⟨header, later, _, split, accepted⟩ := accepted_of_rejected rejected
    exact ⟨header, later, split, accepted⟩

/-! ## A small daemon on 64-bit scalars -/

/-- A daemon with one shard and no caps. -/
def wordDaemon : Config UInt64 where
  cache := ⟨100, .one, oneShard_enough⟩
  policy := ⟨{}, .one, Settings.enough_default⟩
  scoring := ⟨0, 0, 0, 0, 1, 0⟩
  privacy := {}
  noise := fun _ exact _ => exact
  heaps := siftHeap (Candidate UInt64)

/-- Publish an item of the category that `preview` asks for. -/
def announcing : Request UInt64 := ⟨6, .putItem ⟨9, [110], [1], 2, ⟨0⟩, ⟨0⟩⟩⟩

/-- An item is published and then asked for. -/
def previewing : List (Label Timestamp (Request UInt64)) :=
  .invoke announcing :: (List.replicate 4 (.advance 0 ⟨0⟩) ++
    .invoke preview :: List.replicate 8 (.advance 1 ⟨0⟩))

/-- Both requests were decoded. -/
theorem previewing_decoded : Decoded previewing := by
  have accepted : ∀ request : Request UInt64, request.body.WithinLimits →
      ∃ body out, decodeRequest body out = (.none, request) := fun request within =>
    ⟨_, request, (decodeRequest_iff _ request request).mpr ⟨within, Or.inl rfl⟩⟩
  have quiet : ∀ {count ticket : Nat} {request : Request UInt64},
      Label.invoke request ∉ List.replicate count (Label.advance ticket (⟨0⟩ : Timestamp)) := by
    intro count ticket request member
    cases List.eq_of_mem_replicate member
  intro request invoked
  simp only [previewing, List.mem_cons, List.mem_append, Label.invoke.injEq, quiet, or_false,
    false_or] at invoked
  rcases invoked with rfl | rfl
  · exact accepted announcing (show itemWithinLimits _ = true by decide)
  · exact accepted preview preview_withinLimits

theorem replies_accepted_preview :
    ∃ call ∈ (reached wordDaemon previewing).calls, ∃ response,
      call.result? = some response ∧
        response = ⟨7, .recommendResult .ok [⟨9, 10, [110], [1]⟩]⟩ ∧
        Accepted call.request.requestId response := by
  have finished : (reached wordDaemon previewing).calls.map Call.result? =
      [some ⟨6, .putItemResult .ok⟩, some ⟨7, .recommendResult .ok [⟨9, 10, [110], [1]⟩]⟩] := by
    decide +kernel
  obtain ⟨call, made, response⟩ : ∃ call ∈ (reached wordDaemon previewing).calls,
      call.result? = some ⟨7, .recommendResult .ok [⟨9, 10, [110], [1]⟩]⟩ := by
    apply List.mem_map.mp
    rw [finished]
    exact List.mem_cons_of_mem _ List.mem_cons_self
  exact ⟨call, made, _, response, rfl,
    (replies_accepted previewing previewing_decoded).1 call made _ response⟩

end Lrd.Daemon
