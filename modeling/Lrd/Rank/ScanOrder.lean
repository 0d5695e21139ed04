import Lrd.Rank.Greedy
import Mathlib.Data.UInt

/-!
# Ranking does not depend on the scan order

Two scans that offer the same items in different orders leave heaps of different
layouts. Both hold the same candidates (`considerAll_strongest`), and a round of
the greedy pass picks the greatest of them in a total order (`pick_greatest`), so
the loop consults `accept` about the same ids in the same order and returns the
same slate (`selectLoop_perm`). The scores have to be numbers for that: a NaN
neither overtakes a leader nor is overtaken.
-/

namespace Lrd.Rank.CandidateSelector

open Foundation

variable {D : Type} [Scalar D]

/-- The order of the greedy pass: the score, then the smaller id. -/
def standing (score : Candidate D → D) (candidate : Candidate D) :
    WithBot (Scalar.Value D) ×ₗ Natᵒᵈ :=
  toLex (Scalar.value (score candidate), OrderDual.toDual candidate.id.toNat)

variable {score : Candidate D → D} {best : Best D} {query : Query D} {selection : Selection D}
  {first second : Selection D} {left right : Best D}

/-- Candidates that stand equal have the same id. -/
theorem standing_inj {a b : Candidate D} (same : standing score a = standing score b) :
    a.id = b.id := by
  have ids : a.id.toNat = b.id.toNat :=
    congrArg (fun place => OrderDual.ofDual (ofLex place).2) same
  exact UInt64.toNat.inj ids

/-- Among numbers a candidate overtakes the leader exactly if it stands higher. -/
theorem overtakes_eq_of_numbers {candidate : Candidate D}
    (scored : best.adjusted = score best.candidate) (challenger : Scalar.IsNumber (score candidate))
    (leader : Scalar.IsNumber (score best.candidate)) :
    overtakes candidate (score candidate) (some best) =
      decide (standing score best.candidate < standing score candidate) := by
  obtain ⟨x, xValue⟩ := Option.isSome_iff_exists.mp leader
  obtain ⟨y, yValue⟩ := Option.isSome_iff_exists.mp challenger
  have places : standing score best.candidate < standing score candidate ↔
      x < y ∨ y = x ∧ candidate.id < best.candidate.id := by
    rw [standing, standing, Prod.Lex.toLex_lt_toLex, xValue, yValue, UInt64.lt_iff_toNat_lt,
      eq_comm (a := y)]
    exact or_congr WithBot.coe_lt_coe (and_congr WithBot.coe_inj OrderDual.toDual_lt_toDual)
  rw [overtakes, scored, Scalar.lt_of_values xValue yValue, Scalar.eq_of_values yValue xValue]
  simp only [places, Bool.decide_or, Bool.decide_and]

/-- A scan ends with a leader that nothing it came across overtakes. -/
theorem scan_greatest {slots : List (Candidate D × Bool)} {index : Nat} {leader : Option (Best D)}
    (numbers : ∀ candidate ∈ untaken slots, Scalar.IsNumber (score candidate))
    (leading : ∀ first, leader = some first → first.adjusted = score first.candidate ∧
      Scalar.IsNumber (score first.candidate))
    (result : scan score slots index leader = some best) :
    (∀ first, leader = some first →
      standing score first.candidate ≤ standing score best.candidate) ∧
    ∀ candidate ∈ untaken slots, standing score candidate ≤ standing score best.candidate := by
  induction slots generalizing index leader with
  | nil =>
      refine ⟨?_, fun _ member => absurd member List.not_mem_nil⟩
      intro first isFirst
      rw [scan, isFirst] at result
      cases result
      exact le_refl _
  | cons slot slots ih =>
      obtain ⟨candidate, taken⟩ := slot
      unfold scan at result
      split at result
      · rename_i isTaken
        subst isTaken
        exact ih numbers leading result
      · rename_i isFree
        have free : taken = false := Bool.eq_false_iff.mpr isFree
        subst free
        rw [untaken_cons_free] at numbers ⊢
        have number := numbers candidate List.mem_cons_self
        have others := fun other member => numbers other (List.mem_cons_of_mem candidate member)
        split at result
        · rename_i ahead
          obtain ⟨overLeader, exceeds⟩ := ih others
            (fun first isFirst => by cases isFirst; exact ⟨rfl, number⟩) result
          have overCandidate := overLeader _ rfl
          constructor
          · intro first isFirst
            obtain ⟨scored, firstNumber⟩ := leading first isFirst
            rw [isFirst, overtakes_eq_of_numbers scored number firstNumber,
              decide_eq_true_eq] at ahead
            exact ahead.le.trans overCandidate
          · intro other member
            rcases List.mem_cons.mp member with rfl | later
            · exact overCandidate
            · exact exceeds other later
        · rename_i behind
          obtain ⟨overLeader, exceeds⟩ := ih others leading result
          refine ⟨overLeader, ?_⟩
          intro other member
          rcases List.mem_cons.mp member with rfl | later
          · cases leader with
            | none => exact absurd rfl behind
            | some first =>
                obtain ⟨scored, firstNumber⟩ := leading first rfl
                rw [overtakes_eq_of_numbers scored number firstNumber, decide_eq_true_eq,
                  not_lt] at behind
                exact behind.trans (overLeader first rfl)
          · exact exceeds other later

/-- The picked candidate is the greatest of the untaken ones. -/
theorem pick_greatest
    (numbers : ∀ candidate ∈ untaken selection.slots,
      Scalar.IsNumber (adjusted query.config selection candidate))
    (picked : pick query selection = some best) :
    ∀ candidate ∈ untaken selection.slots,
      standing (adjusted query.config selection) candidate ≤
        standing (adjusted query.config selection) best.candidate :=
  (scan_greatest numbers (fun _ impossible => absurd impossible (by simp)) picked).2

/-! ## How often a key can have been counted -/

/-- The count of a key, entry by entry. -/
theorem countOf_cons (entry : Bytes × Nat) (counts : List (Bytes × Nat)) (key : Bytes) :
    countOf (entry :: counts) key = if entry.1 == key then entry.2 else countOf counts key := by
  unfold countOf
  rw [List.find?_cons]
  cases entry.1 == key with
  | true => rfl
  | false => rfl

/-- Incrementing a key changes its own count only. -/
theorem countOf_increment (counts : List (Bytes × Nat)) (counted key : Bytes) :
    countOf (increment counts counted) key =
      countOf counts key + if counted == key then 1 else 0 := by
  induction counts with
  | nil =>
      rw [increment, countOf_cons]
      simp [countOf]
  | cons entry counts ih =>
      unfold increment
      split
      · rename_i found
        rw [countOf_cons, countOf_cons, beq_iff_eq.mp found]
        split <;> rfl
      · rename_i other
        rw [countOf_cons, countOf_cons, ih]
        split
        · rename_i same
          rw [← beq_iff_eq.mp same, if_neg (by rw [Bool.beq_comm]; exact other), Nat.add_zero]
        · rfl

theorem countOf_increment_le (counts : List (Bytes × Nat)) (counted key : Bytes) :
    countOf (increment counts counted) key ≤ countOf counts key + 1 := by
  rw [countOf_increment]
  split <;> omega

/-- No key is counted more often than items were chosen. -/
def Counted (selection : Selection D) : Prop :=
  ∀ key, countOf selection.categoryCounts key ≤ selection.chosen.length ∧
    countOf selection.advertiserCounts key ≤ selection.chosen.length

omit [Scalar D] in
/-- A choice adds one to each count and to the slate. -/
theorem Counted.choose (counted : Counted selection) (best : Best D) :
    Counted (selection.choose best) := by
  intro key
  have category := countOf_increment_le selection.categoryCounts best.candidate.category key
  have advertiser := countOf_increment_le selection.advertiserCounts best.candidate.advertiser key
  obtain ⟨categoryBound, advertiserBound⟩ := counted key
  simp only [Selection.choose, List.length_append, List.length_cons, List.length_nil]
  omega

/-- Every score the greedy pass can compute for the candidate is a number. -/
def Comparable (query : Query D) (candidate : Candidate D) : Prop :=
  ∀ a < query.count.toNat, ∀ b < query.count.toNat,
    Scalar.IsNumber (candidate.relevance * Scalar.pow query.config.categoryRepeatFactor a *
      Scalar.pow query.config.advertiserRepeatFactor b)

/-- Where all adjusted scores are numbers, that of a candidate is one. -/
theorem Comparable.isNumber_adjusted {candidate : Candidate D}
    (comparable : Comparable query candidate) (counted : Counted selection)
    (room : selection.chosen.length < query.count.toNat) :
    Scalar.IsNumber (adjusted query.config selection candidate) :=
  comparable _ ((counted candidate.category).1.trans_lt room) _
    ((counted candidate.advertiser).2.trans_lt room)

/-! ## Permuted slots -/

/-- Two loop states that differ in the layout of the slots only. -/
structure SameUpToLayout (first second : Selection D) : Prop where
  untaken : (untaken first.slots).Perm (untaken second.slots)
  chosen : first.chosen = second.chosen
  categoryCounts : first.categoryCounts = second.categoryCounts
  advertiserCounts : first.advertiserCounts = second.advertiserCounts

/-- States that differ in layout adjust scores alike. -/
theorem SameUpToLayout.adjusted_eq (same : SameUpToLayout first second) (config : ScoringConfig D) :
    adjusted config first = adjusted config second := by
  funext candidate
  rw [adjusted, adjusted, same.categoryCounts, same.advertiserCounts]

/-- States that differ in layout only pick the same candidate with the same score. -/
theorem SameUpToLayout.pick_eq (same : SameUpToLayout first second)
    (distinct : ((CandidateSelector.untaken first.slots).map Candidate.id).Nodup)
    (numbers : ∀ candidate ∈ CandidateSelector.untaken first.slots,
      Scalar.IsNumber (adjusted query.config first candidate))
    (leftPicked : pick query first = some left) (rightPicked : pick query second = some right) :
    left.candidate = right.candidate ∧ left.adjusted = right.adjusted := by
  obtain ⟨leftScore, leftPerm⟩ := pick_some leftPicked
  obtain ⟨rightScore, rightPerm⟩ := pick_some rightPicked
  have leftMember : left.candidate ∈ CandidateSelector.untaken first.slots :=
    leftPerm.mem_iff.mp List.mem_cons_self
  have rightMember : right.candidate ∈ CandidateSelector.untaken first.slots :=
    same.untaken.mem_iff.mpr (rightPerm.mem_iff.mp List.mem_cons_self)
  have scores := same.adjusted_eq query.config
  have below := pick_greatest numbers leftPicked right.candidate rightMember
  have secondNumbers : ∀ candidate ∈ CandidateSelector.untaken second.slots,
      Scalar.IsNumber (adjusted query.config second candidate) := by
    intro candidate member
    rw [← scores]
    exact numbers candidate (same.untaken.mem_iff.mpr member)
  have above := pick_greatest secondNumbers rightPicked left.candidate
    (same.untaken.mem_iff.mp leftMember)
  rw [← scores] at above
  have candidates : left.candidate = right.candidate :=
    List.inj_on_of_nodup_map distinct leftMember rightMember
      (standing_inj (le_antisymm above below))
  refine ⟨candidates, ?_⟩
  rw [leftScore, rightScore, candidates, scores]

omit [Scalar D] in
/-- Taking the same candidate out of both keeps them alike. -/
theorem SameUpToLayout.take (same : SameUpToLayout first second)
    (candidates : left.candidate = right.candidate)
    (leftPerm : (left.candidate :: CandidateSelector.untaken (first.take left).slots).Perm
      (CandidateSelector.untaken first.slots))
    (rightPerm : (right.candidate :: CandidateSelector.untaken (second.take right).slots).Perm
      (CandidateSelector.untaken second.slots)) :
    SameUpToLayout (first.take left) (second.take right) where
  untaken := by
    rw [candidates] at leftPerm
    exact (leftPerm.trans (same.untaken.trans rightPerm.symm)).cons_inv
  chosen := same.chosen
  categoryCounts := same.categoryCounts
  advertiserCounts := same.advertiserCounts

omit [Scalar D] in
/-- Choosing the same candidate in both keeps them alike. -/
theorem SameUpToLayout.choose (same : SameUpToLayout first second)
    (candidates : left.candidate = right.candidate) (scores : left.adjusted = right.adjusted) :
    SameUpToLayout (first.choose left) (second.choose right) where
  untaken := same.untaken
  chosen := by rw [Selection.choose, Selection.choose, same.chosen, candidates, scores]
  categoryCounts := by rw [Selection.choose, Selection.choose, same.categoryCounts, candidates]
  advertiserCounts := by
    rw [Selection.choose, Selection.choose, same.advertiserCounts, candidates]

/-- The layout of the slots does not matter to the loop, in any monad. -/
theorem selectLoop_perm {m : Type → Type} [Monad m] (accept : Option (ItemId → m Bool)) (fuel : Nat)
    (same : SameUpToLayout first second) (counted : Counted first)
    (distinct : ((untaken first.slots).map Candidate.id).Nodup)
    (comparable : ∀ candidate ∈ untaken first.slots, Comparable query candidate) :
    selectLoop query accept fuel first = selectLoop query accept fuel second := by
  induction fuel generalizing first second with
  | zero => rw [selectLoop, selectLoop, same.chosen]
  | succ fuel ih =>
      rw [selectLoop_succ, selectLoop_succ, ← same.chosen]
      split
      · rename_i room
        have numbers := fun candidate member =>
          (comparable candidate member).isNumber_adjusted counted room
        rcases pick_cases query first with ⟨leftNone, leftEmpty⟩ | ⟨left, leftPicked, _, leftPerm⟩
        · rcases pick_cases query second with ⟨rightNone, _⟩ | ⟨right, _, _, rightPerm⟩
          · rw [leftNone, rightNone]
          · have sizes := (rightPerm.trans same.untaken.symm).length_eq
            rw [leftEmpty] at sizes
            cases sizes
        · rcases pick_cases query second with ⟨_, rightEmpty⟩ | ⟨right, rightPicked, _, rightPerm⟩
          · have sizes := (leftPerm.trans same.untaken).length_eq
            rw [rightEmpty] at sizes
            cases sizes
          · obtain ⟨candidates, scores⟩ := same.pick_eq distinct numbers leftPicked rightPicked
            have taken := same.take candidates leftPerm rightPerm
            have restDistinct : ((untaken (first.take left).slots).map Candidate.id).Nodup :=
              ((leftPerm.map Candidate.id).nodup_iff.mpr distinct).of_cons
            have restComparable : ∀ candidate ∈ untaken (first.take left).slots,
                Comparable query candidate := fun candidate member =>
              comparable candidate (leftPerm.mem_iff.mp (List.mem_cons_of_mem _ member))
            have takenCounted : Counted (first.take left) := counted
            have accepted := ih (taken.choose candidates scores) (takenCounted.choose left)
              restDistinct restComparable
            have rejected := ih taken takenCounted restDistinct restComparable
            simp only [leftPicked, rightPicked, accepted, rejected, candidates]
      · rfl

/-- Considering the same items in another order changes nothing: the shortlist
holds the strongest candidates, and `select` is the same computation in every
monad, so it consults `accept` about the same ids in the same order. -/
theorem select_considerAll_perm (heaps : HeapAlgorithms (Candidate D)) (query : Query D)
    (items other : List (Item D)) (same : items.Perm other)
    (distinct : (items.map Item.id).Nodup)
    (numbers : ∀ candidate ∈ candidates query items, Scalar.IsNumber candidate.relevance)
    (comparable : ∀ candidate ∈ candidates query items, Comparable query candidate) :
    ((create query).considerAll heaps items).shortlist.Perm
        (strongest query.limit (candidates query items)) ∧
      ((create query).considerAll heaps items).shortlist.length =
        min query.limit (candidates query items).length ∧
      ∀ (m : Type → Type) [Monad m] (accept : Option (ItemId → m Bool)),
        ((create query).considerAll heaps items).select accept =
          ((create query).considerAll heaps other).select accept := by
  have shortlists : ∀ {offered : List (Item D)}, items.Perm offered →
      ((create query).considerAll heaps offered).shortlist.Perm
        (strongest query.limit (candidates query items)) := by
    intro offered permuted
    have offeredPerm := permuted.filterMap (candidateOf query)
    refine (considerAll_strongest heaps ((permuted.map Item.id).nodup_iff.mp distinct) ?_).trans
      (strongest_perm query.limit offeredPerm.symm)
    exact fun candidate member => numbers candidate (offeredPerm.mem_iff.mpr member)
  have layouts := (shortlists (List.Perm.refl items)).trans (shortlists same).symm
  have keptCandidate : ∀ candidate ∈ ((create query).considerAll heaps items).shortlist,
      candidate ∈ candidates query items := fun candidate member =>
    (List.mem_filter.mp ((shortlists (List.Perm.refl items)).mem_iff.mp member)).1
  refine ⟨shortlists (List.Perm.refl items), ?_, ?_⟩
  · rw [considerAll_shortlist]
    exact (foldl_retain_retained heaps query.limit numbers).greatest.1
  · intro m _ accept
    rw [select_eq, select_eq, layouts.length_eq]
    apply selectLoop_perm
    · exact ⟨by simpa only [untaken_start] using layouts, rfl, rfl, rfl⟩
    · exact fun key => ⟨Nat.le_refl 0, Nat.le_refl 0⟩
    · simpa only [untaken_start] using considerAll_ids_nodup heaps query distinct
    · simpa only [untaken_start] using fun candidate member =>
        comparable candidate (keptCandidate candidate member)

/-- A query for two items whose category penalty and overfetch are given. -/
def pairQuery {D : Type} (one zero penalty : D) (overfetch : UInt64) : Query D :=
  ⟨⟨one, 0, penalty, one, overfetch, zero⟩, ⟨[], []⟩, ⟨0⟩, 2⟩

/-- An item of the one category, from an advertiser of its own. -/
def plainItem {D : Type} (one : D) (id : UInt8) : Item D :=
  ⟨id.toUInt64, [0], [id], one, ⟨0⟩, ⟨0⟩⟩

theorem select_considerAll_perm_three :
    ((create (pairQuery (1 : ℚ) 0 (1 / 2) 4)).considerAll (siftHeap _)
        [plainItem 1 1, plainItem 1 2, plainItem 1 3]).select (m := Id) none =
      ((create (pairQuery (1 : ℚ) 0 (1 / 2) 4)).considerAll (siftHeap _)
        [plainItem 1 3, plainItem 1 2, plainItem 1 1]).select (m := Id) none :=
  (select_considerAll_perm (siftHeap _) (pairQuery (1 : ℚ) 0 (1 / 2) 4)
    [plainItem 1 1, plainItem 1 2, plainItem 1 3] [plainItem 1 3, plainItem 1 2, plainItem 1 1]
    (by decide +kernel) (by decide +kernel) (fun _ _ => ExactScalar.isNumber _)
    (fun _ _ _ _ _ _ => ExactScalar.isNumber _)).2.2 Id none

/-- A NaN penalty lets the layout of the heap decide the slate, and a product of
count and overfetch that wraps leaves the shortlist without an eligible item that
belongs there. -/
theorem select_considerAll_order_matters :
    (((create (pairQuery (some (1 : ℚ)) (some 0) none 4)).considerAll (siftHeap _)
        [plainItem (some 1) 1, plainItem (some 1) 2, plainItem (some 1) 3]).select (m := Id)
          none).map RankedItem.id = [1, 2] ∧
    (((create (pairQuery (some (1 : ℚ)) (some 0) none 4)).considerAll (siftHeap _)
        [plainItem (some 1) 1, plainItem (some 1) 3, plainItem (some 1) 2]).select (m := Id)
          none).map RankedItem.id = [1, 3] ∧
    (candidates (pairQuery (1 : ℚ) 0 1 (2 ^ 63)) [plainItem 1 1]).length = 1 ∧
    ((create (pairQuery (1 : ℚ) 0 1 (2 ^ 63))).considerAll (siftHeap _)
        [plainItem 1 1]).shortlist = [] := by
  decide +kernel

end Lrd.Rank.CandidateSelector
