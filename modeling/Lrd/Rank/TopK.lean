import Lrd.Rank.ScanOrder

/-!
# The best candidates

Without repeat penalties and with every candidate accepted, the greedy pass ranks the
shortlist: by relevance, and among equal relevances by the smaller id (`select_ranking`).
Retrieval breaks ties the other way: among equally relevant candidates it drops the one
with the smallest id first. So the slate is the first `count` candidates of all exactly when
everything as relevant as one of them fits in the shortlist (`select_topK_iff`).
-/

namespace Lrd.Rank.CandidateSelector

open Foundation

variable {D : Type}

/-- The first candidates in the order of relevance, then of the smaller id. -/
def topK [Scalar D] (count : Nat) (all : List (Candidate D)) : List (Candidate D) :=
  (ranking (standing Candidate.relevance) all).take count

/-- A candidate as it is returned, unpenalised. -/
def ranked (candidate : Candidate D) : RankedItem D :=
  ⟨candidate.id, candidate.relevance, candidate.category, candidate.advertiser⟩

/-- A slate entry without penalties determines its candidate. -/
theorem ranked_injective : Function.Injective (ranked : Candidate D → RankedItem D) := by
  rintro ⟨relevance, id, category, advertiser⟩ ⟨relevance', id', category', advertiser'⟩ same
  cases same
  rfl

/-- Different ids stand differently. -/
theorem standings_nodup [Scalar D] {all : List (Candidate D)}
    (distinct : (all.map Candidate.id).Nodup) (score : Candidate D → D) :
    (all.map (standing score)).Nodup := by
  rw [List.nodup_map_iff_inj_on distinct.of_map]
  intro a aMember b bMember same
  exact List.inj_on_of_nodup_map distinct aMember bMember (standing_inj same)

/-! ## The greedy pass without penalties -/

/-- Both repeat factors are one. -/
def Unpenalised [Scalar D] (config : ScoringConfig D) : Prop :=
  config.categoryRepeatFactor = Scalar.ofNat 1 ∧ config.advertiserRepeatFactor = Scalar.ofNat 1

section Loop

variable [UnitScalar D] {query : Query D}

/-- Without penalties the adjusted score is the relevance. -/
theorem adjusted_eq_relevance {config : ScoringConfig D} (unpenalised : Unpenalised config)
    (selection : Selection D) : adjusted config selection = Candidate.relevance := by
  funext candidate
  rw [adjusted, unpenalised.1, unpenalised.2, UnitScalar.one_pow, UnitScalar.one_pow,
    UnitScalar.mul_one, UnitScalar.mul_one]

/-- The loop ranks what is not yet taken. -/
theorem selectLoop_ranking (unpenalised : Unpenalised query.config)
    {m : Type → Type} [Monad m] [LawfulMonad m] {accept : Option (ItemId → m Bool)}
    (accepts : ∀ id, consult accept id = pure true) (fuel : Nat) (selection : Selection D)
    (enough : (untaken selection.slots).length ≤ fuel)
    (distinct : ((untaken selection.slots).map Candidate.id).Nodup)
    (numbers : ∀ candidate ∈ untaken selection.slots, Scalar.IsNumber candidate.relevance) :
    selectLoop query accept fuel selection =
      pure (selection.chosen ++
        (topK (query.count.toNat - selection.chosen.length) (untaken selection.slots)).map
          ranked) := by
  have scores := adjusted_eq_relevance unpenalised selection
  induction fuel generalizing selection with
  | zero =>
      rw [List.eq_nil_of_length_eq_zero (Nat.le_zero.mp enough), selectLoop]
      simp [topK, ranking]
  | succ fuel ih =>
      rw [selectLoop_answered]
      split
      · rename_i room
        rcases pick_cases query selection with ⟨picked, nothing⟩ | ⟨best, picked, scored, perm⟩
        · rw [picked, nothing]
          simp [topK, ranking]
        · have greatest := pick_greatest (by rw [scores]; exact numbers) picked
          rw [scores] at greatest scored
          have sizes := perm.length_eq
          rw [List.length_cons] at sizes
          have rest := untaken_answered selection best true
          have first : topK (query.count.toNat - selection.chosen.length)
              (untaken selection.slots) = best.candidate ::
                topK (query.count.toNat - (selection.chosen.length + 1))
                  (untaken (selection.take best).slots) := by
            have more : query.count.toNat - selection.chosen.length =
                query.count.toNat - (selection.chosen.length + 1) + 1 := by omega
            rw [topK, more, ranking_cons (standings_nodup distinct _) perm greatest,
              List.take_succ_cons]
            rfl
          rw [picked]
          simp only [accepts, pure_bind]
          rw [ih, rest, first, List.map_cons]
          · simp [Selection.answered, Selection.choose, Selection.take, ranked, scored]
          · rw [rest]
            omega
          · rw [rest]
            exact ((perm.map Candidate.id).nodup_iff.mpr distinct).of_cons
          · rw [rest]
            exact fun candidate member =>
              numbers candidate (perm.mem_iff.mp (List.mem_cons_of_mem _ member))
          · exact adjusted_eq_relevance unpenalised _
      · rename_i full
        rw [Nat.sub_eq_zero_of_le (Nat.not_lt.mp full)]
        simp [topK]

/-- Without penalties and refusals the slate is the shortlist's best. -/
theorem select_ranking (unpenalised : Unpenalised query.config)
    {m : Type → Type} [Monad m] [LawfulMonad m] {accept : Option (ItemId → m Bool)}
    (accepts : ∀ id, consult accept id = pure true) (selector : CandidateSelector query)
    (distinct : (selector.shortlist.map Candidate.id).Nodup)
    (numbers : ∀ candidate ∈ selector.shortlist, Scalar.IsNumber candidate.relevance) :
    selector.select accept = pure ((topK query.count.toNat selector.shortlist).map ranked) := by
  rw [select_eq, selectLoop_ranking unpenalised accepts]
  · rw [untaken_start]
    rfl
  · rw [untaken_start]
  · rw [untaken_start]
    exact distinct
  · rw [untaken_start]
    exact numbers

end Loop

/-! ## Ties at the end of the shortlist -/

variable {a b : Candidate D}

section Ties

variable [Scalar D] {all : List (Candidate D)}

/-- How many candidates are as relevant as the given one. -/
def asRelevant (all : List (Candidate D)) (candidate : Candidate D) : Nat :=
  all.countP fun other => Scalar.le candidate.relevance other.relevance

/-- What a candidate's relevance compares as. -/
def merit (candidate : Candidate D) : WithBot (Scalar.Value D) := Scalar.value candidate.relevance

/-- Among numbers relevance is compared by merit. -/
theorem le_iff_merit (left : Scalar.IsNumber a.relevance) (right : Scalar.IsNumber b.relevance) :
    Scalar.le a.relevance b.relevance = true ↔ merit a ≤ merit b := by
  obtain ⟨x, xValue⟩ := Option.isSome_iff_exists.mp left
  obtain ⟨y, yValue⟩ := Option.isSome_iff_exists.mp right
  rw [merit, merit, Scalar.le, xValue, yValue]
  exact decide_eq_true_iff.trans WithBot.coe_le_coe.symm

/-- Among numbers the heap's order is that of merit, and then of the ids upwards. -/
theorem worse_iff_merit (left : Scalar.IsNumber a.relevance) (right : Scalar.IsNumber b.relevance) :
    worse a b = true ↔ merit a < merit b ∨ merit a = merit b ∧ a.id.toNat < b.id.toNat := by
  rw [worse_eq_of_numbers left right, decide_eq_true_iff]
  exact Prod.Lex.toLex_lt_toLex

/-- The order of the slate is that of merit, and then of the ids downwards. -/
theorem le_standing_iff :
    standing Candidate.relevance a ≤ standing Candidate.relevance b ↔
      merit a < merit b ∨ merit a = merit b ∧ b.id.toNat ≤ a.id.toNat :=
  Prod.Lex.toLex_le_toLex

variable (numbers : ∀ candidate ∈ all, Scalar.IsNumber candidate.relevance)
include numbers

/-- More candidates are as relevant as one than retrieval prefers to it. -/
theorem countP_worse_lt {candidate : Candidate D} (member : candidate ∈ all) :
    all.countP (worse candidate) < asRelevant all candidate := by
  have number := numbers candidate member
  obtain ⟨before, after, rfl⟩ := List.append_of_mem member
  have weaker : ∀ others ⊆ before ++ candidate :: after,
      others.countP (worse candidate) ≤
        others.countP fun other => Scalar.le candidate.relevance other.relevance := by
    intro others within
    refine List.countP_mono_left fun other inside isWorse => ?_
    have otherNumber := numbers other (within inside)
    rw [worse_iff_merit number otherNumber] at isWorse
    rw [le_iff_merit number otherNumber]
    rcases isWorse with below | ⟨same, _⟩
    · exact below.le
    · exact same.le
  have notSelf : worse candidate candidate = false := by
    rw [worse_eq_of_numbers number number]
    exact decide_eq_false (lt_irrefl _)
  have self : Scalar.le candidate.relevance candidate.relevance = true :=
    (le_iff_merit number number).mpr le_rfl
  have first := weaker before (List.subset_append_left _ _)
  have last := weaker after fun other inside =>
    List.mem_append_right _ (List.mem_cons_of_mem _ inside)
  rw [asRelevant, List.countP_append, List.countP_append, List.countP_cons, List.countP_cons,
    notSelf, self]
  simp only [Bool.false_eq_true, ↓reduceIte]
  omega

/-- Of the candidates tied with one, retrieval prefers all others to that with the smallest
id. -/
theorem exists_least_tied (distinct : (all.map Candidate.id).Nodup) {candidate : Candidate D}
    (member : candidate ∈ all) :
    ∃ least ∈ all, standing Candidate.relevance candidate ≤ standing Candidate.relevance least ∧
      asRelevant all candidate ≤ all.countP (worse least) + 1 := by
  let tied := all.filter fun other => merit other = merit candidate
  have inTied : candidate ∈ tied := List.mem_filter.mpr ⟨member, decide_eq_true rfl⟩
  obtain ⟨least, leastTied, greatest⟩ :=
    exists_greatest (standing Candidate.relevance) (List.ne_nil_of_mem inTied)
  obtain ⟨leastMember, same⟩ := List.mem_filter.mp leastTied
  rw [decide_eq_true_iff] at same
  refine ⟨least, leastMember, greatest candidate inTied, ?_⟩
  have number := numbers candidate member
  have leastNumber := numbers least leastMember
  -- Whatever else is as relevant is preferred to `least`.
  have preferred : ∀ other ∈ all, other.id ≠ least.id →
      Scalar.le candidate.relevance other.relevance = true → worse least other = true := by
    intro other inside different asGood
    have otherNumber := numbers other inside
    rw [le_iff_merit number otherNumber] at asGood
    rw [worse_iff_merit leastNumber otherNumber, same]
    rcases lt_or_eq_of_le asGood with better | tie
    · exact Or.inl better
    · have place := greatest other (List.mem_filter.mpr ⟨inside, decide_eq_true tie.symm⟩)
      rw [le_standing_iff, same, tie] at place
      have smaller := (place.resolve_left (lt_irrefl _)).2
      exact Or.inr ⟨tie, lt_of_le_of_ne smaller fun equal =>
        different (UInt64.toNat.inj equal.symm)⟩
  obtain ⟨before, after, split⟩ := List.append_of_mem leastMember
  rw [split, List.map_append, List.map_cons, List.nodup_middle, List.nodup_cons,
    ← List.map_append] at distinct
  have counted : ∀ others ⊆ before ++ after,
      (others.countP fun other => Scalar.le candidate.relevance other.relevance) ≤
        others.countP (worse least) := by
    intro others within
    refine List.countP_mono_left fun other inside asGood => preferred other ?_ ?_ asGood
    · rw [split]
      exact List.perm_middle.symm.subset (List.mem_cons_of_mem _ (within inside))
    · exact fun equal => distinct.1 (List.mem_map.mpr ⟨other, within inside, equal⟩)
  have first := counted before (List.subset_append_left _ _)
  have last := counted after (List.subset_append_right _ _)
  rw [asRelevant, split, List.countP_append, List.countP_append, List.countP_cons,
    List.countP_cons]
  split
  · omega
  · omega

/-- The best candidates survive retrieval exactly when everything as relevant as one of
them fits. -/
theorem topK_subset_strongest_iff (distinct : (all.map Candidate.id).Nodup) (count limit : Nat) :
    (∀ candidate ∈ topK count all, candidate ∈ strongest limit all) ↔
      ∀ candidate ∈ topK count all, asRelevant all candidate ≤ limit := by
  have inAll : ∀ candidate ∈ topK count all, candidate ∈ all := fun candidate member =>
    (ranking_perm _ all).mem_iff.mp (List.mem_of_mem_take member)
  constructor
  · intro survive candidate member
    obtain ⟨least, leastMember, above, tied⟩ :=
      exists_least_tied numbers distinct (inAll candidate member)
    have leastFirst : least ∈ topK count all :=
      mem_take_ranking_of_le (standings_nodup distinct _) member leastMember above
    have kept := (List.mem_filter.mp (survive least leastFirst)).2
    rw [decide_eq_true_iff] at kept
    omega
  · intro fits candidate member
    have room := fits candidate member
    have fewer := countP_worse_lt numbers (inAll candidate member)
    exact List.mem_filter.mpr ⟨inAll candidate member, decide_eq_true (by omega)⟩

end Ties

/-- Top-k, and when. Without repeat penalties and with every candidate accepted, the slate
is the first `count` eligible items above the minimum score, in the order of relevance and
then of the smaller id, exactly when no item of that slate is tied or beaten by more items
than the shortlist holds. -/
theorem select_topK_iff [UnitScalar D] (heaps : HeapAlgorithms (Candidate D)) (query : Query D)
    (unpenalised : Unpenalised query.config) (accept : Option (ItemId → Bool))
    (accepts : ∀ id, consult (m := Id) accept id = true) (items : List (Item D))
    (distinct : (items.map Item.id).Nodup)
    (numbers : ∀ candidate ∈ candidates query items, Scalar.IsNumber candidate.relevance) :
    let all := candidates query items
    ((create query).considerAll heaps items).select (m := Id) accept =
        (topK query.count.toNat all).map ranked ↔
      ∀ candidate ∈ topK query.count.toNat all, asRelevant all candidate ≤ query.limit := by
  intro all
  have allDistinct : (all.map Candidate.id).Nodup :=
    distinct.sublist (candidates_ids_sublist query items)
  have kept := considerAll_strongest heaps distinct numbers
  have part : ((create query).considerAll heaps items).shortlist.Subperm all :=
    considerAll_subperm heaps query items
  have slate := select_ranking (m := Id) unpenalised accepts
    ((create query).considerAll heaps items) (considerAll_ids_nodup heaps query distinct)
    fun candidate member => numbers candidate (part.subset member)
  have same := take_ranking_iff (standings_nodup allDistinct Candidate.relevance) part
    query.count.toNat
  have survive : (∀ candidate ∈ topK query.count.toNat all,
      candidate ∈ ((create query).considerAll heaps items).shortlist) ↔
        ∀ candidate ∈ topK query.count.toNat all, candidate ∈ strongest query.limit all :=
    forall₂_congr fun candidate _ => kept.mem_iff
  rw [slate, ← topK_subset_strongest_iff numbers allDistinct, ← survive]
  refine Iff.trans ?_ same
  constructor
  · intro equal
    exact List.map_injective_iff.mpr ranked_injective equal
  · intro equal
    exact congrArg (List.map ranked) equal

theorem select_topK_iff_two :
    (((create (pairQuery (1 : ℚ) 0 1 2)).considerAll (siftHeap _)
        [plainItem 1 3, plainItem 1 2, plainItem 1 1]).select (m := Id) none).map RankedItem.id =
      [1, 2] := by
  have slate := (select_topK_iff (siftHeap _) (pairQuery (1 : ℚ) 0 1 2) ⟨rfl, rfl⟩ none
    (fun _ => rfl) [plainItem 1 3, plainItem 1 2, plainItem 1 1] (by decide)
    fun _ _ => ExactScalar.isNumber _).mpr (by decide +kernel)
  rw [slate]
  decide +kernel

/-- Three equally relevant items and room for two: the smallest id is dropped, though it is
the one that should win. -/
theorem select_misses_top :
    (((create (pairQuery (1 : ℚ) 0 1 1)).considerAll (siftHeap _)
        [plainItem 1 1, plainItem 1 2, plainItem 1 3]).select (m := Id) none).map RankedItem.id =
        [2, 3] ∧
      (topK 2 (candidates (pairQuery (1 : ℚ) 0 1 1)
        [plainItem 1 1, plainItem 1 2, plainItem 1 3])).map Candidate.id = [1, 2] := by
  decide +kernel

end Lrd.Rank.CandidateSelector
