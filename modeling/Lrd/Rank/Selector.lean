import Lrd.Foundation.Heap
import Lrd.Foundation.Scalar
import Lrd.Rank.Item

/-!
# Scoring and candidate selection

The scorer and the two stages of `CandidateSelector` (`rank/scorer.cpp`).
Retrieval scores every offered item and keeps the best in a bounded heap. The
greedy pass then picks the best remaining candidate given what is already
chosen, and consults `accept` before taking it. `accept` runs in an arbitrary
monad, so it may have effects of its own.
-/

namespace Lrd.Rank

open Foundation

variable {D : Type} [Scalar D]

/-- The weights of the score, and how many candidates are kept for each item asked for. -/
structure ScoringConfig (D : Type) where
  defaultAffinity : D
  recencyHalfLife : Int64
  categoryRepeatFactor : D
  advertiserRepeatFactor : D
  overfetch : UInt64
  minScore : D

/-- Exponential decay with a half-life; a non-positive half-life disables it, and
an item from the future is treated as new. -/
def recencyMultiplier (age halfLife : Int64) : D :=
  if halfLife ≤ 0 then Scalar.ofNat 1 else Scalar.halve (max 0 age.toInt) halfLife.toInt

/-- `is_eligible`: a positive score, a category that is not excluded, and a time before the
expiry. -/
def isEligible (item : Item D) (signal : UserSignal D) (now : Timestamp) : Bool :=
  if Scalar.le item.baseScore (Scalar.ofNat 0) then false
  else if !item.neverExpires && decide (item.expiresAt.millis ≤ now.millis) then false
  else if signal.excludes item.category then false
  else true

/-- `base_relevance`: score, affinity and recency multiplied. -/
def baseRelevance (item : Item D) (signal : UserSignal D) (config : ScoringConfig D)
    (now : Timestamp) : D :=
  let affinity := signal.affinityFor item.category config.defaultAffinity
  let age := now.millis - item.createdAt.millis
  let recency := recencyMultiplier age config.recencyHalfLife
  item.baseScore * affinity * recency

/-- What the constructor of a selector fixes. -/
structure Query (D : Type) where
  config : ScoringConfig D
  signal : UserSignal D
  now : Timestamp
  count : UInt64

/-- How many candidates retrieval keeps, computed in `size_t`. -/
def Query.limit (query : Query D) : Nat :=
  if query.count = 0 then 0 else (query.count * max query.config.overfetch 1).toNat

/-- What is kept of an item that may be shown. -/
structure Candidate (D : Type) where
  relevance : D
  id : ItemId
  category : Bytes
  advertiser : Bytes
deriving DecidableEq

/-- What a candidate copies from its item. -/
def Candidate.label (candidate : Candidate D) : ItemId × Bytes × Bytes :=
  (candidate.id, candidate.category, candidate.advertiser)

/-- The order of the heap: less relevance, or the same and a smaller id. -/
def worse (a b : Candidate D) : Bool :=
  if !Scalar.eq a.relevance b.relevance then Scalar.lt a.relevance b.relevance
  else decide (a.id < b.id)

/-- The state of a selector between two calls of `consider`. -/
structure CandidateSelector (query : Query D) where
  shortlist : List (Candidate D)
  considered : Nat
  eligible : Nat

namespace CandidateSelector

variable {query : Query D}

/-- The selector of a query, with nothing considered. The constructor reserves room for the
shortlist; that `reserve` may throw `length_error`, and that an allocation may fail, is left out
here and below. -/
def create (query : Query D) : CandidateSelector query := ⟨[], 0, 0⟩

/-! ## Retrieval -/

section Retrieval

variable (heaps : HeapAlgorithms (Candidate D))

/-- Keep a candidate in the bounded heap, whose root is the worst one kept. -/
def retain (limit : Nat) (shortlist : List (Candidate D)) (candidate : Candidate D) :
    List (Candidate D) :=
  if shortlist.length < limit then
    heaps.pushHeap (fun a b => worse b a) (shortlist ++ [candidate])
  else if limit = 0 then shortlist
  else
    match shortlist with
    | [] => shortlist
    | root :: _ =>
        if !worse candidate root then
          let popped := heaps.popHeap (fun a b => worse b a) shortlist
          heaps.pushHeap (fun a b => worse b a) (popped.dropLast ++ [candidate])
        else shortlist

/-- Offer one item to retrieval. -/
def consider (selector : CandidateSelector query) (item : Item D) : CandidateSelector query :=
  let selector := { selector with considered := selector.considered + 1 }
  if !isEligible item query.signal query.now then selector
  else
    let selector := { selector with eligible := selector.eligible + 1 }
    let relevance := baseRelevance item query.signal query.config query.now
    if Scalar.le relevance query.config.minScore then selector
    else
      let candidate : Candidate D := ⟨relevance, item.id, item.category, item.advertiser⟩
      { selector with shortlist := retain heaps query.limit selector.shortlist candidate }

end Retrieval

/-! ## The greedy pass -/

/-- How often a key has been counted. -/
def countOf (counts : List (Bytes × Nat)) (key : Bytes) : Nat :=
  match counts.find? fun entry => entry.1 == key with
  | some entry => entry.2
  | none => 0

/-- Count a key once more. -/
def increment : List (Bytes × Nat) → Bytes → List (Bytes × Nat)
  | [], key => [(key, 1)]
  | entry :: rest, key =>
      if entry.1 == key then (entry.1, entry.2 + 1) :: rest else entry :: increment rest key

/-- The locals of the selection loop: the shortlist with its `taken` flags, the
slate so far, and what it holds of each category and advertiser. -/
structure Selection (D : Type) where
  slots : List (Candidate D × Bool)
  chosen : List (RankedItem D)
  categoryCounts : List (Bytes × Nat)
  advertiserCounts : List (Bytes × Nat)

/-- The score of a candidate given what is already chosen. -/
def adjusted (config : ScoringConfig D) (selection : Selection D) (candidate : Candidate D) : D :=
  let categoryPenalty :=
    Scalar.pow config.categoryRepeatFactor (countOf selection.categoryCounts candidate.category)
  let advertiserPenalty :=
    Scalar.pow config.advertiserRepeatFactor
      (countOf selection.advertiserCounts candidate.advertiser)
  candidate.relevance * categoryPenalty * advertiserPenalty

/-- The leader of a scan: its index, its candidate and its adjusted score. -/
structure Best (D : Type) where
  index : Nat
  candidate : Candidate D
  adjusted : D

/-- Whether a candidate replaces the leader: a strictly greater score, or an equal
one with a smaller id. -/
def overtakes (candidate : Candidate D) (score : D) : Option (Best D) → Bool
  | none => true
  | some best =>
      Scalar.lt best.adjusted score ||
        (Scalar.eq score best.adjusted && decide (candidate.id < best.candidate.id))

/-- Scan the slots from an index on for the best candidate not yet taken. -/
def scan (score : Candidate D → D) :
    List (Candidate D × Bool) → Nat → Option (Best D) → Option (Best D)
  | [], _, best => best
  | (candidate, taken) :: rest, index, best =>
      if taken then scan score rest (index + 1) best
      else if overtakes candidate (score candidate) best then
        scan score rest (index + 1) (some ⟨index, candidate, score candidate⟩)
      else scan score rest (index + 1) best

/-- Mark the winner as consumed. -/
def Selection.take (selection : Selection D) (best : Best D) : Selection D :=
  { selection with slots := selection.slots.set best.index (best.candidate, true) }

/-- Append the winner to the slate and count its category and advertiser. -/
def Selection.choose (selection : Selection D) (best : Best D) : Selection D :=
  { selection with
    chosen := selection.chosen ++
      [⟨best.candidate.id, best.adjusted, best.candidate.category, best.candidate.advertiser⟩]
    categoryCounts := increment selection.categoryCounts best.candidate.category
    advertiserCounts := increment selection.advertiserCounts best.candidate.advertiser }

section Select

variable {m : Type → Type} [Monad m]

/-- Ask `accept`; an absent function accepts everything. -/
def consult (accept : Option (ItemId → m Bool)) (id : ItemId) : m Bool :=
  match accept with
  | none => pure true
  | some ask => ask id

/-- The selection loop. Every round takes a slot, so as many rounds as there are
slots are enough (`selectLoop_fuel`). -/
def selectLoop (query : Query D) (accept : Option (ItemId → m Bool)) :
    Nat → Selection D → m (List (RankedItem D))
  | 0, selection => pure selection.chosen
  | fuel + 1, selection =>
      if selection.chosen.length < query.count.toNat then
        match scan (adjusted query.config selection) selection.slots 0 none with
        | none => pure selection.chosen
        | some best => do
            let accepted ← consult accept best.candidate.id
            if accepted then selectLoop query accept fuel ((selection.take best).choose best)
            else selectLoop query accept fuel (selection.take best)
      else pure selection.chosen

/-- Every shortlisted candidate untaken and nothing chosen. -/
def Selection.start (shortlist : List (Candidate D)) : Selection D :=
  ⟨shortlist.map fun candidate => (candidate, false), [], [], []⟩

/-- The slate: up to `count` accepted candidates, best first. -/
def select (selector : CandidateSelector query) (accept : Option (ItemId → m Bool)) :
    m (List (RankedItem D)) :=
  if query.count = 0 || selector.shortlist.isEmpty then pure []
  else selectLoop query accept selector.shortlist.length (Selection.start selector.shortlist)

end Select

end CandidateSelector

end Lrd.Rank
