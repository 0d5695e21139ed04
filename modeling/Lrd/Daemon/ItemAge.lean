import Lrd.Daemon.Footprint
import Lrd.Daemon.Replies
import Mathlib.Algebra.Ring.Nat

/-!
# The age of an item

`base_relevance` subtracts the time of creation from the clock in 64 signed bits. The time
of creation is the peer's own: the codec reads all of 64 bits, `on_put` looks at the id and
the category only, and the cache stores what it is given. The difference is therefore the
age only of items created less than `2^63` milliseconds ago (`itemAge_eq`); an older one
wraps around and counts as new. In C++ the overflow is undefined.
-/

namespace Lrd.Daemon

open Foundation Common Rank Policy Cache Proto BinaryCodec

variable {D : Type}

/-- The milliseconds by which `base_relevance` lets the score decay. -/
def itemAge (item : Item D) (now : Timestamp) : Int :=
  max 0 (now.millis - item.createdAt.millis).toInt

/-- The relevance of an item that decays, in terms of its age. -/
theorem baseRelevance_eq [Scalar D] (item : Item D) (signal : UserSignal D)
    (config : ScoringConfig D) (now : Timestamp) (decays : 0 < config.recencyHalfLife) :
    baseRelevance item signal config now =
      item.baseScore * signal.affinityFor item.category config.defaultAffinity *
        Scalar.halve (itemAge item now) config.recencyHalfLife.toInt := by
  rw [baseRelevance, recencyMultiplier, if_neg (by simpa using decays), itemAge]

/-- The age without the bounds of a machine integer. -/
def exactAge (item : Item D) (now : Timestamp) : Int :=
  max 0 (now.millis.toInt - item.createdAt.millis.toInt)

/-- The 64-bit difference is exact unless it overflows, and then it is negative. -/
theorem itemAge_eq (item : Item D) {now : Timestamp} (after : 0 ≤ now.millis.toInt)
    (early : now.millis.toInt < 2 ^ 62) :
    itemAge item now =
      if now.millis.toInt - item.createdAt.millis.toInt < 2 ^ 63 then exactAge item now else 0 := by
  have least := item.createdAt.millis.le_toInt
  have greatest := item.createdAt.millis.toInt_lt
  rw [itemAge, exactAge, Int64.toInt_sub, Int.bmod_def]
  split <;> omega

/-- `on_put` stores an item whatever its time of creation. -/
theorem handle_put_stores [Scalar D] {config : Config D} (requestId : UInt64) {item : Item D}
    (acceptable : Acceptable item) (clock : Timestamp) (state : State config) :
    let served := (handle ⟨requestId, .putItem item⟩).run (perform clock) state
    served.1 = ⟨requestId, .putItemResult .ok⟩ ∧ served.2.cache.peek item.id = some item := by
  have named : ¬ item.category.isEmpty = true := by
    rw [List.isEmpty_iff]
    exact acceptable.2
  simp only [handle, dispatch, onPut, if_neg acceptable.1, if_neg named]
  exact ⟨rfl, state.cache.peek_put_self item.id item⟩

/-- Any time of creation gets into the cache: an item within the limits is decoded as it was
sent, and stored if it has an id and a category. Its age at a time before `2^62` is exact,
and no smaller than that of an item created later, exactly if it was created less than
`2^63` milliseconds ago. -/
theorem itemAge_exact_iff [Double D] {config : Config D} (requestId : UInt64) {item : Item D}
    (within : itemWithinLimits item = true) (acceptable : Acceptable item) (clock : Timestamp)
    (state : State config) :
    let request : Request D := ⟨requestId, .putItem item⟩
    (∀ out, decodeRequest (encodeRequest request []) out = (.none, request)) ∧
      ((handle request).run (perform clock) state).2.cache.peek item.id = some item ∧
      ∀ now : Timestamp, 0 ≤ now.millis.toInt → now.millis.toInt < 2 ^ 62 →
        (∀ (signal : UserSignal D) (scoring : ScoringConfig D), 0 < scoring.recencyHalfLife →
          baseRelevance item signal scoring now =
            item.baseScore * signal.affinityFor item.category scoring.defaultAffinity *
              Scalar.halve (itemAge item now) scoring.recencyHalfLife.toInt) ∧
          (itemAge item now = exactAge item now ↔
            now.millis.toInt - item.createdAt.millis.toInt < 2 ^ 63) ∧
          ((∀ later : Item D, item.createdAt.millis.toInt ≤ later.createdAt.millis.toInt →
              itemAge later now ≤ itemAge item now) ↔
            now.millis.toInt - item.createdAt.millis.toInt < 2 ^ 63) := by
  intro request
  refine ⟨?_, (handle_put_stores requestId acceptable clock state).2, ?_⟩
  · intro out
    exact (decodeRequest_iff _ out request).mpr ⟨within, Or.inl rfl⟩
  intro now after early
  refine ⟨fun signal scoring => baseRelevance_eq item signal scoring now, ?_, ?_, ?_⟩
  · rw [itemAge_eq item after early]
    split
    · rename_i recent
      exact iff_of_true rfl recent
    · rename_i overflow
      refine iff_of_false ?_ overflow
      rw [exactAge]
      omega
  · intro ordered
    by_contra overflow
    -- An item created just before the epoch is younger, and has a positive age.
    have epoch : (-1 : Int64).toInt = -1 := by decide
    have older := ordered { item with createdAt := ⟨-1⟩ } (by rw [epoch]; omega)
    rw [itemAge_eq item after early, if_neg overflow, itemAge_eq _ after early,
      if_pos (by rw [epoch]; omega), exactAge, epoch] at older
    omega
  · intro recent later created
    rw [itemAge_eq item after early, if_pos recent, itemAge_eq later after early,
      if_pos (by omega), exactAge, exactAge]
    omega

/-- An item created at the given time. -/
def createdAt (millis : Int64) : Item UInt64 := ⟨1, [0], [0], 1, ⟨millis⟩, ⟨0⟩⟩

theorem itemAge_exact_iff_recent : itemAge (createdAt 1000) ⟨5000⟩ = 4000 :=
  ((itemAge_exact_iff 7 (by decide) (by decide) ⟨0⟩
    (State.initial wordDaemon)).2.2 ⟨5000⟩ (by decide) (by decide)).2.1.mpr (by decide)

/-- The first instant that 64 bits can name is stored as any other, and at the epoch the item
counts as younger than one created a millisecond before. -/
theorem itemAge_overflows :
    let request : Request UInt64 := ⟨7, .putItem (createdAt Int64.minValue)⟩
    decodeRequest (encodeRequest request []) ⟨0, defaultRequestBody⟩ = (.none, request) ∧
      ((handle request).run (perform ⟨0⟩) (State.initial wordDaemon)).2.cache.peek 1 =
        some (createdAt Int64.minValue) ∧
      exactAge (createdAt Int64.minValue) ⟨0⟩ = 2 ^ 63 ∧
      itemAge (createdAt Int64.minValue) ⟨0⟩ = 0 ∧
      itemAge (createdAt (-1)) ⟨0⟩ = 1 := by
  decide +kernel

end Lrd.Daemon
