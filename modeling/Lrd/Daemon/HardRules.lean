import Lrd.Daemon.Replies

/-!
# The hard rules of a slate

Whether an item may be shown at all is decided by `is_eligible` and by the minimal score
(`rank/scorer.cpp`). Both are coded as rejections: an item is dropped if its base score is at
most zero, or its relevance at most the minimum. Of doubles this is weaker than what the rules
ask for, a positive score and a relevance above the minimum, since a NaN is neither.

In every interleaving of the workers an entry of a slate stems from an item that was cached,
unexpired and not excluded; it obeys the rules if and only if the values compared are numbers
(`hard_rules_iff_numbers`). The codec takes all bits for a double, so a client can publish an
item whose score is a NaN, and the daemon shows it (`nan_shown`).
-/

namespace Lrd.Daemon

open Foundation Common Rank Policy Cache Proto BinaryCodec

/-! ## What the rules ask for -/

section Rules

variable {D : Type} [Scalar D]

/-- The item has no expiry, or it is still to come. -/
def Unexpired (item : Item D) (now : Timestamp) : Prop :=
  item.expiresAt.millis = 0 ∨ now.millis < item.expiresAt.millis

/-- The rules for an item that is shown. -/
structure Obeys (query : Query D) (item : Item D) : Prop where
  positive : Scalar.lt (Scalar.ofNat 0) item.baseScore = true
  unexpired : Unexpired item query.now
  included : item.category ∉ query.signal.excludedCategories
  relevant : Scalar.lt query.config.minScore
    (baseRelevance item query.signal query.config query.now) = true

/-- The doubles that the rules compare are numbers. -/
structure Numbers (query : Query D) (item : Item D) : Prop where
  zero : Scalar.IsNumber (Scalar.ofNat 0 : D)
  baseScore : Scalar.IsNumber item.baseScore
  minScore : Scalar.IsNumber query.config.minScore
  relevance : Scalar.IsNumber (baseRelevance item query.signal query.config query.now)

/-- An item that is not rejected. -/
structure Passes (query : Query D) (item : Item D) : Prop where
  notZero : Scalar.le item.baseScore (Scalar.ofNat 0) = false
  unexpired : Unexpired item query.now
  included : item.category ∉ query.signal.excludedCategories
  notLow : Scalar.le (baseRelevance item query.signal query.config query.now)
    query.config.minScore = false

/-- A candidate has passed the source's checks. -/
theorem passes_of_candidate {query : Query D} {item : Item D}
    (offered : (candidateOf query item).isSome) : Passes query item := by
  unfold candidateOf at offered
  split at offered
  · rename_i passed
    rw [Bool.and_eq_true, Bool.not_eq_true'] at passed
    obtain ⟨eligible, notLow⟩ := passed
    unfold isEligible at eligible
    split at eligible
    · cases eligible
    rename_i notZero
    split at eligible
    · cases eligible
    rename_i lasting
    split at eligible
    · cases eligible
    rename_i included
    refine ⟨Bool.eq_false_iff.mpr notZero, ?_, ?_, notLow⟩
    · rw [Item.neverExpires] at lasting
      by_cases never : item.expiresAt.millis = 0
      · exact Or.inl never
      · refine Or.inr (Int64.not_le.mp ?_)
        intro past
        apply lasting
        simp [never, past]
    · rw [UserSignal.excludes, List.contains_iff_mem] at included
      exact included
  · cases offered

/-- What has passed the checks obeys the rules exactly if the compared values are numbers. -/
theorem Passes.obeys_iff {query : Query D} {item : Item D} (passes : Passes query item) :
    Obeys query item ↔ Numbers query item := by
  have positive := Scalar.lt_iff_of_not_le passes.notZero
  have relevant := Scalar.lt_iff_of_not_le passes.notLow
  constructor
  · intro obeys
    obtain ⟨base, zero⟩ := positive.mp obeys.positive
    obtain ⟨relevance, minimum⟩ := relevant.mp obeys.relevant
    exact ⟨zero, base, minimum, relevance⟩
  · intro numbers
    exact ⟨positive.mpr ⟨numbers.baseScore, numbers.zero⟩, passes.unexpired, passes.included,
      relevant.mpr ⟨numbers.relevance, numbers.minScore⟩⟩

end Rules

/-! ## Slates -/

/-- Every entry of every slate stems from an item that was cached when its shard was copied
for the request, and that is unexpired at the time of the request's clock and not excluded by
its signal. The item obeys the hard rules if and only if the doubles compared are numbers. -/
theorem hard_rules_iff_numbers {D : Type} [Scalar D] {config : Config D}
    (schedule : List (Label Timestamp (Request D))) {index : Nat}
    {call : Call (steps config) (Request D) (Response D)} {response : Response D}
    (made : (reached config schedule).calls[index]? = some call)
    (finished : call.result? = some response) {recommend : Recommend D}
    (asked : call.request.body = .recommend recommend) {entry : RankedItem D}
    (shown : entry ∈ slateOf response) :
    ∃ (item : Item D) (now : Timestamp) (earlier : List (Label Timestamp (Request D))),
      (⟨.clock, now⟩ : Event (steps config)) ∈ call.trace ∧
      PerformedAfter config schedule earlier index
        (.snapshotShard (ShardedCache.shardIndex (fun id => id) config.cache entry.id)) ∧
      (reached config earlier).state.cache.peek entry.id = some item ∧
      entry.label = item.label ∧ Unexpired item now ∧
      item.category ∉ recommend.signal.excludedCategories ∧
      (Obeys ⟨config.scoring, recommend.signal, now, recommend.count.toUInt64⟩ item ↔
        Numbers ⟨config.scoring, recommend.signal, now, recommend.count.toUInt64⟩ item) := by
  obtain ⟨rest, traced, recommended⟩ :=
    recommended_of_finished schedule (List.mem_of_getElem? made) finished asked
  generalize responded : response.body = reply at recommended
  simp only [slateOf, responded] at shown
  cases recommended with
  | slate now batches later slate drawn within scanned among labels short =>
      obtain ⟨item, met, label, offered⟩ := item_of_entry among labels shown
      have passes := passes_of_candidate offered
      have copies : ∀ batch ∈ batches, copied batch ∈ call.trace := by
        intro batch member
        rw [traced]
        simp [List.mem_map_of_mem member]
      obtain ⟨earlier, performed, looked⟩ := stored_of_met schedule made copies met
      have own : entry.id = item.id := congrArg Prod.fst label
      rw [← own] at performed looked
      refine ⟨item, now, earlier, ?_, performed, looked, label, passes.unexpired, passes.included,
        passes.obeys_iff⟩
      rw [traced]
      simp
  | rejected message named => cases shown

/-! ## Doubles -/

/-- A double by its bits. -/
structure Binary64 where
  bits : UInt64
deriving DecidableEq

namespace Binary64

/-- The sign is the first bit, and the other bits are ordered as the magnitudes they stand
for, up to infinity. Greater bits than those of infinity are NaNs. -/
def value (double : Binary64) : Option Int :=
  let magnitude := (double.bits &&& 0x7FFFFFFFFFFFFFFF).toNat
  if 0x7FF0000000000000 < magnitude then none
  else if double.bits < 0x8000000000000000 then some magnitude
  else some (-magnitude)

/-- The double as Lean's own. -/
def toFloat (double : Binary64) : Float := .ofBits double.bits

/-- Lean's own double, bit by bit. -/
def ofFloat (float : Float) : Binary64 := ⟨float.toBits⟩

/-- The platform's `pow`, which is one at exponent zero whatever the base. -/
def pow (base : Binary64) (exponent : Nat) : Binary64 :=
  if exponent = 0 then ofFloat 1 else ofFloat (base.toFloat.pow (.ofNat exponent))

end Binary64

instance : Double Binary64 where
  add a b := .ofFloat (a.toFloat + b.toFloat)
  sub a b := .ofFloat (a.toFloat - b.toFloat)
  mul a b := .ofFloat (a.toFloat * b.toFloat)
  div a b := .ofFloat (a.toFloat / b.toFloat)
  Value := Int
  value := Binary64.value
  ofNat n := .ofFloat (.ofNat n)
  pow := Binary64.pow
  halve age halfLife := .ofFloat
    (Float.exp (-0.6931471805599453 * Float.ofInt age / Float.ofInt halfLife))
  doubleToBits := Binary64.bits
  bitsToDouble := Binary64.mk
  bitsToDouble_doubleToBits _ := rfl
  doubleToBits_bitsToDouble _ := rfl
  bitsToDouble_zero := by decide +kernel

/-- A quiet NaN. -/
def nan : Binary64 := ⟨0x7FF8000000000000⟩

/-- A daemon with one shard, the default scoring without decay and no caps. -/
def doubleDaemon : Config Binary64 where
  cache := ⟨100, .one, oneShard_enough⟩
  policy := ⟨{}, .one, Settings.enough_default⟩
  scoring := ⟨.ofFloat 0.1, 0, .ofFloat 0.5, .ofFloat 0.3, 4, .ofFloat 0⟩
  privacy := {}
  noise := fun _ exact _ => exact
  heaps := siftHeap (Candidate Binary64)

/-- Publish an item of the given score. -/
def offering (score : Binary64) : Request Binary64 :=
  ⟨1, .putItem ⟨9, [110], [], score, ⟨0⟩, ⟨0⟩⟩⟩

/-- Ask for one item, live. -/
def askForOne : Recommend Binary64 := ⟨⟨[], []⟩, 1, false⟩

/-- An item of the given score is published, and then a slate of one is asked for. -/
def offeredThenAsked (score : Binary64) : List (Label Timestamp (Request Binary64)) :=
  Label.inTurn 16 [(offering score, ⟨1000⟩), (⟨2, .recommend askForOne⟩, ⟨1000⟩)]

/-- An item of score one is shown, and it was in the cache. -/
theorem hard_rules_iff_numbers_one :
    ∃ (item : Item Binary64) (earlier : List (Label Timestamp (Request Binary64))),
      (reached doubleDaemon earlier).state.cache.peek 9 = some item ∧
        item.category ∉ askForOne.signal.excludedCategories := by
  have calls : (reached doubleDaemon (offeredThenAsked (.ofFloat 1))).calls.map
      (fun call => (call.request.body, call.result?)) =
      [((offering (.ofFloat 1)).body, some ⟨1, .putItemResult .ok⟩),
        (.recommend askForOne, some ⟨2, .recommendResult .ok [⟨9, .ofFloat 0.1, [110], []⟩]⟩)] := by
    decide +kernel
  obtain ⟨_, _, both, _, second⟩ := List.map_eq_cons_iff.mp calls
  obtain ⟨call, _, rfl, last, _⟩ := List.map_eq_cons_iff.mp second
  obtain ⟨asked, finished⟩ := Prod.mk.inj last
  have made : (reached doubleDaemon (offeredThenAsked (.ofFloat 1))).calls[1]? = some call := by
    rw [both]
    rfl
  obtain ⟨item, _, earlier, _, _, looked, _, _, included, _⟩ :=
    hard_rules_iff_numbers _ made finished asked List.mem_cons_self
  exact ⟨item, earlier, looked, included⟩

/-- A NaN is published over the wire and shown. -/
theorem nan_shown :
    decodeRequest (encodeRequest (offering nan) []) ⟨0, defaultRequestBody⟩ =
      (.none, offering nan) ∧
    (reached doubleDaemon (offeredThenAsked nan)).calls.map Call.result? =
      [some ⟨1, .putItemResult .ok⟩, some ⟨2, .recommendResult .ok [⟨9, nan, [110], []⟩]⟩] ∧
    ((reached doubleDaemon (offeredThenAsked nan)).state.cache.peek 9).map Item.baseScore =
      some nan ∧
    Scalar.lt (Scalar.ofNat 0) nan = false := by
  decide +kernel

end Lrd.Daemon
