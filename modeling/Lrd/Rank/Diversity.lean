import Lrd.Foundation.GreedyRun
import Lrd.Rank.ScanOrder

/-!
# The slate as a greedy diversity ranking

In exact arithmetic the selection loop is a greedy run (`selectLoop_greedyRun`) whose score
discounts a candidate for every item of its category and of its advertiser that has been
returned. Since `accept` decides what is returned, the discounts depend on its answers; but
a discount is at most one, so it never lifts a candidate, and the offers come in the order of
their scores whatever is refused (`select_diverse`).
-/

namespace Lrd.Rank.CandidateSelector

open Foundation

variable {D : Type}

/-! ## The ranking -/

/-- The slate entry of an offer. -/
def entryOf (offer : Offer (Candidate D) D) : RankedItem D :=
  ⟨offer.candidate.id, offer.score, offer.candidate.category, offer.candidate.advertiser⟩

/-- The slate that some offers lead to. -/
def returned (offers : List (Offer (Candidate D) D)) : List (RankedItem D) :=
  (offers.filter Offer.accepted).map entryOf

/-- What is returned after one more offer. -/
theorem returned_snoc (offers : List (Offer (Candidate D) D)) (offer : Offer (Candidate D) D) :
    returned (offers ++ [offer]) =
      if offer.accepted then returned offers ++ [entryOf offer] else returned offers := by
  rw [returned, List.filter_append, List.map_append]
  cases accepted : offer.accepted with
  | true => simp [accepted, returned]
  | false => simp [accepted, returned]

/-- An entry of the slate stems from an accepted offer, and the entries before it from the
offers before that. -/
theorem returned_split {offers : List (Offer (Candidate D) D)} {before after : List (RankedItem D)}
    {entry : RankedItem D} (split : returned offers = before ++ entry :: after) :
    ∃ earlier offer later, offers = earlier ++ offer :: later ∧ returned earlier = before ∧
      entryOf offer = entry := by
  obtain ⟨front, back, kept, rfl, rest⟩ := List.map_eq_append_iff.mp split
  obtain ⟨offer, behind, rfl, rfl, _⟩ := List.map_eq_cons_iff.mp rest
  obtain ⟨earlier, later, rfl, rfl, taken⟩ := List.filter_eq_append_iff.mp kept
  obtain ⟨refused, others, rfl, skipped, _, _⟩ := List.filter_eq_cons_iff.mp taken
  refine ⟨earlier ++ refused, offer, others, ?_, ?_, rfl⟩
  · rw [List.append_assoc]
  · rw [returned, List.filter_append, List.filter_eq_nil_iff.mpr skipped, List.append_nil]

/-- What is returned was offered, in that order. -/
theorem returned_ids_sublist (offers : List (Offer (Candidate D) D)) :
    ((returned offers).map RankedItem.id).Sublist (offers.map fun offer => offer.candidate.id) := by
  rw [returned, List.map_map]
  exact List.filter_sublist.map _

/-- How many entries of a slate are of a category. -/
def ofCategory (slate : List (RankedItem D)) (category : Bytes) : Nat :=
  slate.countP fun entry => entry.category == category

/-- How many entries of a slate are of an advertiser. -/
def ofAdvertiser (slate : List (RankedItem D)) (advertiser : Bytes) : Nat :=
  slate.countP fun entry => entry.advertiser == advertiser

/-- The loop's counts are those of the slate. -/
def Tallied (selection : Selection D) : Prop :=
  ∀ key, countOf selection.categoryCounts key = ofCategory selection.chosen key ∧
    countOf selection.advertiserCounts key = ofAdvertiser selection.chosen key

variable {selection : Selection D}

/-- A choice is tallied. -/
theorem Tallied.choose (tallied : Tallied selection) (best : Best D) :
    Tallied (selection.choose best) := by
  intro key
  obtain ⟨category, advertiser⟩ := tallied key
  simp only [Selection.choose, countOf_increment, category, advertiser, ofCategory, ofAdvertiser,
    List.countP_append, List.countP_singleton, and_self]

/-- An answer is tallied. -/
theorem Tallied.answered (tallied : Tallied selection) (best : Best D) (accepted : Bool) :
    Tallied (selection.answered best accepted) := by
  have taken : Tallied (selection.take best) := tallied
  cases accepted with
  | true => exact taken.choose best
  | false => exact taken

/-! ## Consulting `accept` -/

section Consulted

variable {σ : Type} (accept : Option (ItemId → StateM σ Bool))

/-- Asked about the offers one after the other, `accept` gives their answers and ends in a
state. -/
def Consulted (state : σ) (offers : List (Offer (Candidate D) D)) (final : σ) : Prop :=
  (offers.map fun offer => offer.candidate.id).mapM (consult accept) state =
    (offers.map Offer.accepted, final)

variable {accept}

/-- One more question, and what follows. -/
theorem Consulted.cons {state asked final : σ} {offer : Offer (Candidate D) D}
    {offers : List (Offer (Candidate D) D)}
    (first : consult accept offer.candidate.id state = (offer.accepted, asked))
    (later : Consulted accept asked offers final) :
    Consulted accept state (offer :: offers) final := by
  rw [Consulted] at later ⊢
  rw [List.map_cons, List.mapM_cons, List.map_cons]
  change (StateT.bind (consult accept offer.candidate.id) _ state : Id _) = _
  simp only [StateT.bind, first]
  change (StateT.bind (List.mapM _ _) _ asked : Id _) = _
  simp only [StateT.bind, later]
  rfl

end Consulted

/-! ## Exact scores -/

section Exact

variable [ExactScalar D]

/-- The relevance of a candidate, discounted for what of its category and its advertiser is
already in the slate. -/
def diversityScore (config : ScoringConfig D) (slate : List (RankedItem D))
    (candidate : Candidate D) : D :=
  candidate.relevance * config.categoryRepeatFactor ^ ofCategory slate candidate.category *
    config.advertiserRepeatFactor ^ ofAdvertiser slate candidate.advertiser

/-- The loop adjusts a score by the entries already chosen. -/
theorem Tallied.adjusted_eq (tallied : Tallied selection) (config : ScoringConfig D)
    (candidate : Candidate D) :
    adjusted config selection candidate = diversityScore config selection.chosen candidate := by
  rw [adjusted, diversityScore, (tallied candidate.category).1, (tallied candidate.advertiser).2,
    ExactScalar.pow_eq, ExactScalar.pow_eq]

/-- The factors that discount a repeated category or advertiser never raise a score. -/
structure Discounts (config : ScoringConfig D) : Prop where
  category_nonneg : 0 ≤ config.categoryRepeatFactor
  category_le_one : config.categoryRepeatFactor ≤ 1
  advertiser_nonneg : 0 ≤ config.advertiserRepeatFactor
  advertiser_le_one : config.advertiserRepeatFactor ≤ 1

/-- One more entry in the slate lifts no candidate. -/
theorem Discounts.fading {config : ScoringConfig D} (discounts : Discounts config)
    {candidate : Candidate D} (positive : 0 < candidate.relevance)
    (earlier : List (Offer (Candidate D) D)) (offer : Offer (Candidate D) D) :
    diversityScore config (returned (earlier ++ [offer])) candidate ≤
      diversityScore config (returned earlier) candidate := by
  rw [returned_snoc]
  split
  · rw [diversityScore, diversityScore]
    have categories : ofCategory (returned earlier) candidate.category ≤
        ofCategory (returned earlier ++ [entryOf offer]) candidate.category := by
      rw [ofCategory, ofCategory, List.countP_append]
      exact Nat.le_add_right _ _
    have advertisers : ofAdvertiser (returned earlier) candidate.advertiser ≤
        ofAdvertiser (returned earlier ++ [entryOf offer]) candidate.advertiser := by
      rw [ofAdvertiser, ofAdvertiser, List.countP_append]
      exact Nat.le_add_right _ _
    have category := pow_le_pow_of_le_one discounts.category_nonneg discounts.category_le_one
      categories
    have advertiser := pow_le_pow_of_le_one discounts.advertiser_nonneg
      discounts.advertiser_le_one advertisers
    have relevant := positive.le
    have some := pow_nonneg discounts.category_nonneg
      (ofCategory (returned earlier) candidate.category)
    have others := pow_nonneg discounts.advertiser_nonneg
      (ofAdvertiser (returned earlier ++ [entryOf offer]) candidate.advertiser)
    gcongr
  · exact le_refl _

/-- The candidate that a round picks has the greatest score. -/
theorem pick_greatest_exact {query : Query D} {best : Best D}
    (picked : pick query selection = some best) :
    ∀ candidate ∈ untaken selection.slots, adjusted query.config selection candidate ≤
      adjusted query.config selection best.candidate := by
  intro candidate member
  have places := pick_greatest (fun _ _ => ExactScalar.isNumber _) picked candidate member
  have values := Prod.Lex.monotone_fst _ _ places
  simp only [standing, ExactScalar.value_eq] at values
  exact ExactScalar.embed_strictMono.le_iff_le.mp (WithBot.coe_le_coe.mp values)

/-! ## The loop as a greedy run -/

variable {σ : Type} (accept : Option (ItemId → StateM σ Bool))

omit [ExactScalar D] in
/-- The slate after a round's offer. -/
theorem chosen_answered {earlier : List (Offer (Candidate D) D)}
    (mirrors : selection.chosen = returned earlier) (best : Best D) (accepted : Bool) :
    (selection.answered best accepted).chosen =
      returned (earlier ++ [⟨best.candidate, best.adjusted, accepted⟩]) := by
  rw [returned_snoc, ← mirrors]
  cases accepted <;> rfl

/-- Offers that lead from a state of the loop to its result. -/
structure Explains (query : Query D) (earlier : List (Offer (Candidate D) D))
    (left : List (Candidate D)) (state : σ) (result : List (RankedItem D) × σ)
    (later : List (Offer (Candidate D) D)) (unoffered : List (Candidate D)) : Prop where
  run : GreedyRun (fun offers => diversityScore query.config (returned offers)) earlier left later
    unoffered
  consulted : Consulted accept state later result.2
  slate : result.1 = returned (earlier ++ later)
  within : result.1.length ≤ query.count.toNat
  short : result.1.length < query.count.toNat → unoffered = []

variable {accept} {query : Query D} {earlier : List (Offer (Candidate D) D)}

/-- A loop that ends explains itself. -/
theorem Explains.stop {left : List (Candidate D)} {chosen : List (RankedItem D)} {state : σ}
    (mirrors : chosen = returned earlier) (within : chosen.length ≤ query.count.toNat)
    (ended : chosen.length < query.count.toNat → left = []) :
    Explains accept query earlier left state (chosen, state) [] left := by
  refine ⟨GreedyRun.stop _ _, rfl, ?_, within, ended⟩
  rw [List.append_nil]
  exact mirrors

/-- A round, and what follows it. -/
theorem Explains.next {left rest unoffered : List (Candidate D)} {candidate : Candidate D}
    {accepted : Bool} {state asked : σ} {result : List (RankedItem D) × σ}
    {later : List (Offer (Candidate D) D)} (picked : (candidate :: rest).Perm left)
    (greatest : ∀ other ∈ left, diversityScore query.config (returned earlier) other ≤
      diversityScore query.config (returned earlier) candidate)
    (answer : consult accept candidate.id state = (accepted, asked))
    (behind : Explains accept query
      (earlier ++ [⟨candidate, diversityScore query.config (returned earlier) candidate, accepted⟩])
      rest asked result later unoffered) :
    Explains accept query earlier left state result
      (⟨candidate, diversityScore query.config (returned earlier) candidate, accepted⟩ :: later)
      unoffered := by
  refine ⟨GreedyRun.next accepted picked greatest behind.run, ?_, ?_, behind.within, behind.short⟩
  · exact Consulted.cons answer behind.consulted
  · rw [behind.slate, List.append_assoc]
    rfl

variable (accept)

/-- The loop makes offers greedily, one for each round, until the slate is full or nothing
is left. -/
theorem selectLoop_explained (query : Query D) {fuel : Nat} (state : σ)
    (tallied : Tallied selection) (mirrors : selection.chosen = returned earlier)
    (enough : (untaken selection.slots).length ≤ fuel)
    (within : selection.chosen.length ≤ query.count.toNat) :
    ∃ later unoffered, Explains accept query earlier (untaken selection.slots) state
      (selectLoop query accept fuel selection state) later unoffered := by
  induction fuel generalizing selection earlier state with
  | zero =>
      have nothing := List.eq_nil_of_length_eq_zero (Nat.le_zero.mp enough)
      exact ⟨[], _, Explains.stop mirrors within fun _ => nothing⟩
  | succ fuel ih =>
      rw [selectLoop_answered]
      split
      · rename_i room
        rcases pick_cases query selection with ⟨picked, nothing⟩ | ⟨best, picked, scored, perm⟩
        · rw [picked]
          exact ⟨[], _, Explains.stop mirrors within fun _ => nothing⟩
        · rw [picked]
          obtain ⟨⟨accepted, asked⟩, answer⟩ :
              ∃ answer : Bool × σ, consult accept best.candidate.id state = answer := ⟨_, rfl⟩
          have goesOn : (consult accept best.candidate.id >>= fun accepted =>
              selectLoop query accept fuel (selection.answered best accepted)) state =
              selectLoop query accept fuel (selection.answered best accepted) asked := by
            change (StateT.bind (consult accept best.candidate.id) _ state : Id _) = _
            simp only [StateT.bind, answer]
            rfl
          rw [tallied.adjusted_eq, mirrors] at scored
          have fewer : (untaken (selection.answered best accepted).slots).length ≤ fuel := by
            rw [untaken_answered]
            have sizes := perm.length_eq
            rw [List.length_cons] at sizes
            omega
          have still : (selection.answered best accepted).chosen.length ≤ query.count.toNat := by
            cases accepted with
            | true =>
                have grown : (selection.answered best true).chosen.length =
                    selection.chosen.length + 1 := List.length_append
                omega
            | false => exact within
          obtain ⟨later, unoffered, behind⟩ := ih asked (tallied.answered best accepted)
            (chosen_answered mirrors best accepted) fewer still
          rw [scored, untaken_answered] at behind
          have greatest := pick_greatest_exact picked
          simp only [tallied.adjusted_eq, mirrors] at greatest
          rw [← goesOn] at behind
          exact ⟨_, unoffered, Explains.next perm greatest answer behind⟩
      · rename_i full
        exact ⟨[], _, Explains.stop mirrors within fun room => absurd room full⟩

/-- A selection is explained by the offers it has made. -/
theorem select_explained (selector : CandidateSelector query) (state : σ) :
    ∃ offers unoffered, Explains accept query [] selector.shortlist state
      (selector.select accept state) offers unoffered := by
  have start : Tallied (Selection.start selector.shortlist) := fun _ => ⟨rfl, rfl⟩
  have enough : (untaken (Selection.start selector.shortlist).slots).length ≤
      selector.shortlist.length := by
    rw [untaken_start]
  have nothing : (Selection.start selector.shortlist).chosen = returned [] := rfl
  have explained := selectLoop_explained accept query state start nothing enough (Nat.zero_le _)
  rw [untaken_start, ← select_eq] at explained
  exact explained

/-- The slate is a greedy diversity ranking. The loop ends by itself, so more rounds change
nothing. Some offers explain its result: `accept` was asked about them in turn, about no
candidate twice, in the order of their scores, each of which takes the discounts for what was
returned before it; and the slate is made of the accepted ones. It is as long as asked for
unless every candidate was offered. -/
theorem select_diverse (selector : CandidateSelector query)
    (distinct : (selector.shortlist.map Candidate.id).Nodup)
    (positive : ∀ candidate ∈ selector.shortlist, 0 < candidate.relevance)
    (discounts : Discounts query.config) (accept : Option (ItemId → StateM σ Bool)) (state : σ) :
    (∀ fuel, selector.shortlist.length ≤ fuel →
      selectLoop query accept fuel (Selection.start selector.shortlist) =
        selector.select accept) ∧
    ∃ (slate : List (RankedItem D)) (final : σ) (offers : List (Offer (Candidate D) D)),
      selector.select accept state = (slate, final) ∧
      Consulted accept state offers final ∧ slate = returned offers ∧
      (offers.map Offer.candidate).Subperm selector.shortlist ∧
      (offers.map fun offer => offer.candidate.id).Nodup ∧
      (∀ before offer after, offers = before ++ offer :: after →
        offer.score = diversityScore query.config (returned before) offer.candidate ∧
        ∀ other ∈ selector.shortlist, other ∉ before.map Offer.candidate →
          diversityScore query.config (returned before) other ≤ offer.score) ∧
      (offers.Pairwise fun first second => second.score ≤ first.score) ∧
      (slate.Pairwise fun first second => second.score ≤ first.score) ∧
      (slate.map RankedItem.id).Nodup ∧ slate.length ≤ query.count.toNat ∧
      (∀ before entry after, slate = before ++ entry :: after →
        ∃ candidate ∈ selector.shortlist, entry.label = candidate.label ∧
          entry.score = candidate.relevance *
            query.config.categoryRepeatFactor ^ ofCategory before candidate.category *
            query.config.advertiserRepeatFactor ^ ofAdvertiser before candidate.advertiser) ∧
      (slate.length < query.count.toNat →
        (offers.map Offer.candidate).Perm selector.shortlist) := by
  refine ⟨fun fuel enough => ?_, ?_⟩
  · rw [select_eq]
    induction fuel, enough using Nat.le_induction with
    | base => rfl
    | succ fuel enough ih =>
        rw [← ih]
        apply selectLoop_fuel
        rw [untaken_start]
        exact enough
  obtain ⟨offers, unoffered, explained⟩ := select_explained accept selector state
  obtain ⟨⟨slate, final⟩, selected⟩ :
      ∃ result : List (RankedItem D) × σ, selector.select accept state = result := ⟨_, rfl⟩
  rw [selected] at explained
  obtain ⟨run, consulted, rfl, within, short⟩ := explained
  have ids : (offers.map fun offer => offer.candidate.id).Nodup := by
    have all := (run.perm.map Candidate.id).nodup_iff.mpr distinct
    rw [List.map_append, List.map_map] at all
    exact (List.nodup_append.mp all).1
  have ordered := run.nonincreasing fun candidate member =>
    discounts.fading (positive candidate member)
  refine ⟨_, final, offers, selected, consulted, rfl, ?_, ids, ?_, ordered, ?_, ?_, within, ?_, ?_⟩
  · exact (List.sublist_append_left _ _).subperm.trans run.perm.subperm
  · intro before offer after split
    exact run.offered split
  · exact (ordered.filter _).map _ fun _ _ lower => lower
  · exact ids.sublist (returned_ids_sublist offers)
  · intro before entry after split
    obtain ⟨earlier, offer, later, rfl, rfl, rfl⟩ := returned_split split
    refine ⟨offer.candidate, ?_, rfl, (run.offered rfl).1⟩
    apply run.perm.mem_iff.mp
    simp
  · intro few
    have perm := run.perm
    rw [short few, List.append_nil] at perm
    exact perm

end Exact

/-- Three candidates of one category. -/
def alikeThree : CandidateSelector (pairQuery (1 : ℚ) 0 (1 / 2) 4) :=
  ⟨[⟨3, 1, [0], [1]⟩, ⟨1, 2, [0], [2]⟩, ⟨2, 3, [0], [3]⟩], 3, 3⟩

/-- Refuse every other time. -/
def alternate (_ : ItemId) : StateM Bool Bool := do
  let refuses ← get
  set !refuses
  return !refuses

theorem select_diverse_three :
    ∃ slate final, alikeThree.select (some alternate) true = (slate, final) ∧
      (slate.Pairwise fun first second => second.score ≤ first.score) ∧
      (slate.map RankedItem.id).Nodup := by
  have distinct : (alikeThree.shortlist.map Candidate.id).Nodup := by decide
  have positive : ∀ candidate ∈ alikeThree.shortlist, 0 < candidate.relevance := by
    decide +kernel
  have discounts : Discounts (pairQuery (1 : ℚ) 0 (1 / 2) 4).config := by
    constructor <;> norm_num [pairQuery]
  obtain ⟨_, slate, final, _, selected, _, _, _, _, _, _, ordered, ids, _⟩ :=
    select_diverse alikeThree distinct positive discounts (some alternate) true
  exact ⟨slate, final, selected, ordered, ids⟩

end Lrd.Rank.CandidateSelector
