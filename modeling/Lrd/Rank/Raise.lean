import Lrd.Rank.Diversity

/-!
# A candidate that gains relevance

The greedy pass looks at the greatest of what is left, so a candidate has no influence on the
picks before it. If one candidate gains relevance, the loop makes the same picks up to the round
in which it picks that candidate, and this round does not come later than it did before
(`selectLoop_raised`). The shortlist, too, stays the same up to the candidate that gained. So an
item whose base score is raised never moves down in the slate (`select_raised`).

`accept` may have a state, but asking it about other items first must not turn a refusal of the
candidate into an acceptance (`Keen`).
-/

namespace Lrd.Rank.CandidateSelector

open Foundation

/-! ## Asking -/

section Asking

variable {D σ : Type} (accept : ItemId → StateM σ Bool)

/-- The state of `accept` after it was asked about some items. -/
def asked (state : σ) (ids : List ItemId) : σ :=
  ids.foldl (fun state id => (accept id state).2) state

/-- An item that is accepted after questions about others is accepted before them. -/
def Keen (id : ItemId) : Prop :=
  ∀ (state : σ) (others : List ItemId), id ∉ others →
    (accept id (asked accept state others)).1 = true → (accept id state).1 = true

variable {accept} in

/-- Questions without effects leave the state as it was. -/
theorem asked_of_silent (silent : ∀ id state, (accept id state).2 = state) (state : σ)
    (ids : List ItemId) : asked accept state ids = state := by
  induction ids with
  | nil => rfl
  | cons id ids ih =>
      rw [asked, List.foldl_cons, silent]
      exact ih

variable {accept} in
/-- Questions that leave no trace change no answer. -/
theorem keen_of_silent (silent : ∀ id state, (accept id state).2 = state) (id : ItemId) :
    Keen accept id := by
  intro state others _ accepted
  rwa [asked_of_silent silent] at accepted

variable [Scalar D] {query : Query D}

/-- One round of the loop, with the state of `accept` passed on. -/
theorem selectLoop_asks (fuel : Nat) (selection : Selection D) (state : σ) :
    selectLoop query (some accept) (fuel + 1) selection state =
      if selection.chosen.length < query.count.toNat then
        match pick query selection with
        | none => (selection.chosen, state)
        | some best => selectLoop query (some accept) fuel
            (selection.answered best (accept best.candidate.id state).1)
            (accept best.candidate.id state).2
      else (selection.chosen, state) := by
  rw [selectLoop_answered]
  split
  · cases pick query selection <;> rfl
  · rfl

/-- What has been chosen stays at the front of the slate. -/
theorem chosen_isPrefix (fuel : Nat) (selection : Selection D) (state : σ) :
    selection.chosen <+: (selectLoop query (some accept) fuel selection state).1 := by
  induction fuel generalizing selection state with
  | zero => exact List.prefix_rfl
  | succ fuel ih =>
      rw [selectLoop_asks]
      split
      · cases pick query selection with
        | none => exact List.prefix_rfl
        | some best =>
            refine List.IsPrefix.trans ?_ (ih _ _)
            cases (accept best.candidate.id state).1 with
            | true => exact List.prefix_append _ _
            | false => exact List.prefix_rfl
      · exact List.prefix_rfl

variable {accept} in

/-- A loop whose questions have no effects is one without a state. -/
theorem selectLoop_of_silent (silent : ∀ id state, (accept id state).2 = state) (fuel : Nat)
    (selection : Selection D) (state : σ) :
    selectLoop query (some accept) fuel selection state =
      (selectLoop (m := Id) query (some fun id => (accept id state).1) fuel selection, state) := by
  induction fuel generalizing selection with
  | zero => rfl
  | succ fuel ih =>
      rw [selectLoop_asks, selectLoop_answered]
      split
      · cases pick query selection with
        | none => rfl
        | some best =>
            dsimp only
            rw [silent]
            exact ih _
      · rfl

omit [Scalar D] in
/-- The ids of the slate after an answer. -/
theorem map_id_answered (selection : Selection D) (best : Best D) (accepted : Bool) :
    (selection.answered best accepted).chosen.map RankedItem.id =
      if accepted then selection.chosen.map RankedItem.id ++ [best.candidate.id]
      else selection.chosen.map RankedItem.id := by
  cases accepted with
  | true => exact List.map_append
  | false => rfl

/-- An item that the loop adds to the slate was left, and was accepted after questions about
others. -/
theorem accepted_of_added {id : ItemId} {fuel : Nat} {selection : Selection D} {state : σ}
    (distinct : ((untaken selection.slots).map Candidate.id).Nodup)
    (absent : id ∉ selection.chosen.map RankedItem.id)
    (added : id ∈ (selectLoop query (some accept) fuel selection state).1.map RankedItem.id) :
    id ∈ (untaken selection.slots).map Candidate.id ∧
      ∃ others, id ∉ others ∧ (accept id (asked accept state others)).1 = true := by
  induction fuel generalizing selection state with
  | zero => exact absurd added absent
  | succ fuel ih =>
      rw [selectLoop_asks] at added
      split at added
      · rcases pick_cases query selection with ⟨none, _⟩ | ⟨best, picked, _, perm⟩
        · rw [none] at added
          exact absurd added absent
        · rw [picked] at added
          have ids := perm.map Candidate.id
          rw [List.map_cons] at ids
          have rest := ids.nodup_iff.mpr distinct
          have left : ∀ answer, ((untaken (selection.answered best answer).slots).map
              Candidate.id).Nodup := by
            intro answer
            rw [untaken_answered]
            exact rest.of_cons
          by_cases same : best.candidate.id = id
          · subst same
            refine ⟨ids.mem_iff.mp List.mem_cons_self, [], List.not_mem_nil, ?_⟩
            change (accept best.candidate.id state).1 = true
            by_contra refused
            rw [Bool.not_eq_true] at refused
            dsimp only at added
            rw [refused] at added
            obtain ⟨inside, _⟩ := ih (left false) absent added
            rw [untaken_answered] at inside
            exact (List.nodup_cons.mp rest).1 inside
          · have still : id ∉ (selection.answered best
                (accept best.candidate.id state).1).chosen.map RankedItem.id := by
              rw [map_id_answered]
              split
              · simpa [Ne.symm same] using absent
              · exact absent
            obtain ⟨inside, others, different, accepted⟩ := ih (left _) still added
            rw [untaken_answered] at inside
            refine ⟨ids.mem_iff.mp (List.mem_cons_of_mem _ inside), best.candidate.id :: others, ?_,
              accepted⟩
            exact List.not_mem_cons_of_ne_of_not_mem (Ne.symm same) different
      · exact absurd added absent

end Asking

/-! ## Two loops -/

section Raised

variable {D : Type} [ExactScalar D]

/-- The same candidate, no less relevant. -/
structure Outranks (strong weak : Candidate D) : Prop where
  label : strong.label = weak.label
  relevance : weak.relevance ≤ strong.relevance

theorem Outranks.id_eq {strong weak : Candidate D} (outranks : Outranks strong weak) :
    strong.id = weak.id :=
  congrArg Prod.fst outranks.label

/-- Two states of the loop that differ in one candidate that is left. -/
structure Raised (weak strong : Candidate D) (rest : List (Candidate D))
    (first second : Selection D) : Prop where
  weaker : (untaken first.slots).Perm (weak :: rest)
  stronger : (untaken second.slots).Perm (strong :: rest)
  chosen : first.chosen = second.chosen
  categoryCounts : first.categoryCounts = second.categoryCounts
  advertiserCounts : first.advertiserCounts = second.advertiserCounts

variable {weak strong : Candidate D} {rest : List (Candidate D)} {first second : Selection D}

theorem Raised.adjusted_eq (raised : Raised weak strong rest first second)
    (config : ScoringConfig D) : adjusted config first = adjusted config second := by
  funext candidate
  rw [adjusted, adjusted, raised.categoryCounts, raised.advertiserCounts]

/-- More relevance is a better place. -/
theorem Outranks.standing_le (outranks : Outranks strong weak) {config : ScoringConfig D}
    (category : 0 ≤ config.categoryRepeatFactor) (advertiser : 0 ≤ config.advertiserRepeatFactor)
    (selection : Selection D) :
    standing (adjusted config selection) weak ≤ standing (adjusted config selection) strong := by
  obtain ⟨label, relevance⟩ := outranks
  simp only [Candidate.label, Prod.mk.injEq] at label
  obtain ⟨id, sameCategory, sameAdvertiser⟩ := label
  have scores : adjusted config selection weak ≤ adjusted config selection strong := by
    simp only [adjusted, sameCategory, sameAdvertiser, ExactScalar.pow_eq]
    have some := pow_nonneg category (countOf selection.categoryCounts weak.category)
    have others := pow_nonneg advertiser (countOf selection.advertiserCounts weak.advertiser)
    gcongr
  rw [standing, standing, id, Prod.Lex.toLex_le_toLex, ExactScalar.value_eq, ExactScalar.value_eq]
  rcases scores.lt_or_eq with less | same
  · exact Or.inl (WithBot.coe_lt_coe.mpr (ExactScalar.embed_strictMono less))
  · exact Or.inr ⟨by rw [same], le_refl _⟩

/-- The second loop picks the candidate that gained, or both pick the same other one. -/
theorem Raised.pick_cases (raised : Raised weak strong rest first second)
    (outranks : Outranks strong weak) {query : Query D}
    (category : 0 ≤ query.config.categoryRepeatFactor)
    (advertiser : 0 ≤ query.config.advertiserRepeatFactor)
    (distinct : ((weak :: rest).map Candidate.id).Nodup) {left : Best D}
    (picked : pick query first = some left) :
    ∃ right, pick query second = some right ∧
      (right.candidate = strong ∨
        left.candidate ∈ rest ∧ right.candidate = left.candidate ∧
          right.adjusted = left.adjusted) := by
  have scores := raised.adjusted_eq query.config
  have above := pick_greatest (fun _ _ => ExactScalar.isNumber _) picked
  obtain ⟨scored, leftPerm⟩ := pick_some picked
  have among := raised.weaker.mem_iff.mp (leftPerm.mem_iff.mp List.mem_cons_self)
  rcases CandidateSelector.pick_cases query second with
    ⟨_, empty⟩ | ⟨right, rightPicked, alsoScored, rightPerm⟩
  · have sizes := raised.stronger.length_eq
    rw [empty] at sizes
    cases sizes
  refine ⟨right, rightPicked, ?_⟩
  have tops := pick_greatest (fun _ _ => ExactScalar.isNumber _) rightPicked
  rw [← scores] at tops
  rcases List.mem_cons.mp (raised.stronger.mem_iff.mp (rightPerm.mem_iff.mp List.mem_cons_self))
    with gained | other
  · exact Or.inl gained
  have below := above right.candidate (raised.weaker.mem_iff.mpr (List.mem_cons_of_mem _ other))
  -- the pick of the first loop is not better than what the second one could pick
  have reaches : standing (adjusted query.config first) left.candidate ≤
      standing (adjusted query.config first) right.candidate := by
    rcases List.mem_cons.mp among with own | inside
    · rw [own]
      exact (outranks.standing_le category advertiser first).trans
        (tops strong (raised.stronger.mem_iff.mpr List.mem_cons_self))
    · exact tops left.candidate (raised.stronger.mem_iff.mpr (List.mem_cons_of_mem _ inside))
  have same : right.candidate = left.candidate :=
    List.inj_on_of_nodup_map distinct (List.mem_cons_of_mem _ other) among
      (standing_inj (le_antisymm below reaches))
  refine Or.inr ⟨same ▸ other, same, ?_⟩
  rw [alsoScored, scored, same, scores]

omit [ExactScalar D] in
/-- What is left once a common candidate is taken. -/
theorem perm_of_taken {taken : Candidate D} (extra : List (Candidate D))
    {rest others left slots : List (Candidate D)} (all : slots.Perm (extra ++ rest))
    (found : (taken :: others).Perm rest) (perm : (taken :: left).Perm slots) :
    left.Perm (extra ++ others) := by
  have moved : (taken :: left).Perm (extra ++ taken :: others) :=
    (perm.trans all).trans (found.append_left extra).symm
  exact (moved.trans List.perm_middle).cons_inv

omit [ExactScalar D] in
/-- The same answer about the same candidate. -/
theorem answered_congr {left right : Best D} (chosen : first.chosen = second.chosen)
    (categoryCounts : first.categoryCounts = second.categoryCounts)
    (advertiserCounts : first.advertiserCounts = second.advertiserCounts)
    (same : right.candidate = left.candidate) (scores : right.adjusted = left.adjusted)
    (accepted : Bool) :
    (first.answered left accepted).chosen = (second.answered right accepted).chosen ∧
      (first.answered left accepted).categoryCounts =
        (second.answered right accepted).categoryCounts ∧
      (first.answered left accepted).advertiserCounts =
        (second.answered right accepted).advertiserCounts := by
  cases accepted with
  | false => exact ⟨chosen, categoryCounts, advertiserCounts⟩
  | true =>
      refine ⟨?_, congrArg₂ increment categoryCounts ?_, congrArg₂ increment advertiserCounts ?_⟩
      · simp only [Selection.answered, Selection.choose, Selection.take, chosen, same, scores,
          ↓reduceIte]
      · rw [same]
      · rw [same]

omit [ExactScalar D] in
/-- The loops stay apart by the one candidate while they pick others. -/
theorem Raised.answered (raised : Raised weak strong rest first second) {left right : Best D}
    (inside : left.candidate ∈ rest) (same : right.candidate = left.candidate)
    (scores : right.adjusted = left.adjusted)
    (leftPerm : (left.candidate :: untaken (first.take left).slots).Perm (untaken first.slots))
    (rightPerm : (right.candidate :: untaken (second.take right).slots).Perm
      (untaken second.slots)) (accepted : Bool) :
    ∃ others, (left.candidate :: others).Perm rest ∧
      Raised weak strong others (first.answered left accepted) (second.answered right accepted) := by
  obtain ⟨front, back, rfl⟩ := List.append_of_mem inside
  have found : (left.candidate :: (front ++ back)).Perm (front ++ left.candidate :: back) :=
    List.perm_middle.symm
  obtain ⟨chosen, categories, advertisers⟩ := answered_congr raised.chosen raised.categoryCounts
    raised.advertiserCounts same scores accepted
  refine ⟨front ++ back, found, ?_, ?_, chosen, categories, advertisers⟩
  · rw [untaken_answered]
    exact perm_of_taken [weak] raised.weaker found leftPerm
  · rw [untaken_answered]
    rw [same] at rightPerm
    exact perm_of_taken [strong] raised.stronger found rightPerm

variable {entry : RankedItem D}

omit [ExactScalar D] in
/-- A slate that has grown up to an entry not in it has grown along what precedes the entry. -/
theorem prefix_before {chosen before after : List (RankedItem D)}
    (front : chosen <+: before ++ entry :: after) (absent : entry.id ∉ chosen.map RankedItem.id) :
    chosen <+: before := by
  rcases Nat.lt_or_ge before.length chosen.length with longer | shorter
  · have inside : before ++ [entry] <+: chosen := by
      refine List.prefix_of_prefix_length_le ?_ front ?_
      · exact (List.prefix_append_right_inj before).mpr (List.prefix_append [entry] after)
      · rw [List.length_append]
        exact longer
    have member : entry ∈ chosen := inside.subset (List.mem_append_right _ List.mem_cons_self)
    exact absurd (List.mem_map_of_mem member) absent
  · exact List.prefix_of_prefix_length_le front (List.prefix_append _ _) shorter

omit [ExactScalar D] in
/-- A slate without an item is not one that shows it. -/
theorem ne_of_absent {chosen before after : List (RankedItem D)} {id : ItemId}
    (absent : id ∉ chosen.map RankedItem.id) (here : entry.id = id) :
    chosen ≠ before ++ entry :: after := by
  rintro rfl
  rw [← here] at absent
  exact absent (List.mem_map_of_mem (List.mem_append_right _ List.mem_cons_self))

variable {σ : Type} {accept : ItemId → StateM σ Bool} {query : Query D}

/-- The candidate that gained comes no later, and what comes before it is what came before. -/
theorem selectLoop_raised (outranks : Outranks strong weak) (keen : Keen accept weak.id)
    (category : 0 ≤ query.config.categoryRepeatFactor)
    (advertiser : 0 ≤ query.config.advertiserRepeatFactor) {fuel : Nat} {state : σ}
    (raised : Raised weak strong rest first second)
    (distinct : ((weak :: rest).map Candidate.id).Nodup)
    (absent : weak.id ∉ first.chosen.map RankedItem.id) {before after : List (RankedItem D)}
    (slate : (selectLoop query (some accept) fuel first state).1 = before ++ entry :: after)
    (here : entry.id = weak.id) :
    ∃ shorter moved later, shorter <+: before ∧ moved.id = weak.id ∧
      (selectLoop query (some accept) fuel second state).1 = shorter ++ moved :: later := by
  induction fuel generalizing first second rest state with
  | zero => exact absurd slate (ne_of_absent absent here)
  | succ fuel ih =>
      have notChosen : first.chosen ≠ before ++ entry :: after := ne_of_absent absent here
      have whole := slate
      rw [selectLoop_asks] at slate
      rw [selectLoop_asks, ← raised.chosen]
      split at slate
      · rename_i room
        rw [if_pos room]
        rcases pick_cases query first with ⟨none, _⟩ | ⟨left, leftPicked, leftScored, leftPerm⟩
        · rw [none] at slate
          exact absurd slate notChosen
        rw [leftPicked] at slate
        obtain ⟨right, rightPicked, cases⟩ :=
          raised.pick_cases outranks category advertiser distinct leftPicked
        rw [rightPicked]
        dsimp only at slate ⊢
        rcases cases with gained | ⟨inside, same, scores⟩
        · -- it comes now, and it is accepted, since it was accepted later
          have leftDistinct := (raised.weaker.map Candidate.id).nodup_iff.mpr distinct
          have added : weak.id ∈ (selectLoop query (some accept) (fuel + 1) first state).1.map
              RankedItem.id := by
            rw [whole, ← here]
            exact List.mem_map_of_mem (List.mem_append_right _ List.mem_cons_self)
          obtain ⟨_, others, different, later⟩ :=
            accepted_of_added accept leftDistinct absent added
          have accepted : (accept right.candidate.id state).1 = true := by
            rw [gained, outranks.id_eq]
            exact keen state others different later
          rw [accepted]
          have goesOn : (second.answered right true).chosen <+:
              (selectLoop query (some accept) fuel (second.answered right true)
                (accept right.candidate.id state).2).1 := chosen_isPrefix ..
          obtain ⟨behind, slateEq⟩ := goesOn
          refine ⟨first.chosen, ⟨right.candidate.id, right.adjusted, right.candidate.category,
            right.candidate.advertiser⟩, behind, ?_, ?_, ?_⟩
          · have front : first.chosen <+:
                (selectLoop query (some accept) (fuel + 1) first state).1 := chosen_isPrefix ..
            rw [whole] at front
            exact prefix_before front (here ▸ absent)
          · rw [gained]
            exact outranks.id_eq
          · rw [← slateEq, raised.chosen]
            exact List.append_assoc ..
        · have different : left.candidate.id ≠ weak.id := by
            intro alike
            have apart := (List.nodup_cons.mp distinct).1
            rw [← alike] at apart
            exact apart (List.mem_map_of_mem inside)
          have rightPerm := (pick_some rightPicked).2
          rw [same]
          obtain ⟨others, perm, goesOn⟩ := raised.answered inside same scores leftPerm rightPerm
            (accept left.candidate.id state).1
          have fewer : ((weak :: others).map Candidate.id).Nodup := by
            have all := ((perm.cons weak).map Candidate.id).nodup_iff.mpr distinct
            exact all.sublist (((List.sublist_cons_self left.candidate others).cons_cons weak).map _)
          have still : weak.id ∉ (first.answered left
              (accept left.candidate.id state).1).chosen.map RankedItem.id := by
            rw [map_id_answered]
            split
            · simpa [Ne.symm different] using absent
            · exact absent
          exact ih goesOn fewer still slate
      · exact absurd slate notChosen

end Raised

/-! ## Raising the score of an item -/

variable {now : Timestamp}

section Score

variable {D : Type} [ExactScalar D] {query : Query D}

/-- The same item with another base score. -/
def rescored (item : Item D) (score : D) : Item D := { item with baseScore := score }

variable {item : Item D} {signal : UserSignal D} {score : D}

/-- An eligible item has a positive base score. -/
theorem baseScore_pos (eligible : isEligible item signal now = true) : 0 < item.baseScore := by
  by_contra low
  have refused : Scalar.le item.baseScore (Scalar.ofNat 0) = true := by
    rw [ExactScalar.le_iff, ExactScalar.ofNat_eq, Nat.cast_zero]
    exact not_lt.mp low
  rw [isEligible, if_pos refused] at eligible
  cases eligible

/-- A higher base score keeps an item eligible. -/
theorem isEligible_rescored (higher : item.baseScore ≤ score)
    (eligible : isEligible item signal now = true) :
    isEligible (rescored item score) signal now = true := by
  have positive := baseScore_pos eligible
  have above : ∀ {base : D}, 0 < base → ¬ Scalar.le base (Scalar.ofNat 0) = true := by
    intro base positive
    rw [ExactScalar.le_iff, ExactScalar.ofNat_eq, Nat.cast_zero, not_le]
    exact positive
  rw [isEligible, if_neg (above positive)] at eligible
  have raised : ¬ Scalar.le (rescored item score).baseScore (Scalar.ofNat 0) = true :=
    above (positive.trans_le higher)
  rw [isEligible, if_neg raised]
  exact eligible

/-- Above a minimum that is not negative, relevance grows with the base score. -/
theorem baseRelevance_le {config : ScoringConfig D} (positive : 0 < item.baseScore)
    (relevant : 0 < baseRelevance item signal config now) (higher : item.baseScore ≤ score) :
    baseRelevance item signal config now ≤ baseRelevance (rescored item score) signal config now := by
  simp only [baseRelevance, rescored, mul_assoc] at relevant ⊢
  exact mul_le_mul_of_nonneg_right higher ((pos_iff_pos_of_mul_pos relevant).mp positive).le

/-- An item that is a candidate stays one when its score is raised. -/
theorem candidateOf_rescored {weak : Candidate D} (floor : 0 ≤ query.config.minScore)
    (higher : item.baseScore ≤ score) (offered : candidateOf query item = some weak) :
    ∃ strong, candidateOf query (rescored item score) = some strong ∧ Outranks strong weak := by
  unfold candidateOf at offered
  split at offered
  · rename_i passes
    cases offered
    rw [Bool.and_eq_true, Bool.not_eq_true', Bool.eq_false_iff, ne_eq, ExactScalar.le_iff,
      not_le] at passes
    obtain ⟨eligible, above⟩ := passes
    have grows := baseRelevance_le (baseScore_pos eligible) (floor.trans_lt above) higher
    refine ⟨_, if_pos ?_, rfl, grows⟩
    rw [Bool.and_eq_true, Bool.not_eq_true', Bool.eq_false_iff, ne_eq, ExactScalar.le_iff, not_le]
    exact ⟨isEligible_rescored higher eligible, above.trans_le grows⟩
  · cases offered

/-- The shortlists of two scans that differ in one candidate, which is no less relevant in the
second, differ in that candidate only. -/
theorem shortlist_raised {weak strong : Candidate D} (outranks : Outranks strong weak)
    {first second common kept raised : List (Candidate D)} {limit : Nat}
    (before : Greatest Candidate.key limit first kept)
    (after : Greatest Candidate.key limit second raised)
    (firstPerm : first.Perm (weak :: common)) (secondPerm : second.Perm (strong :: common))
    (distinct : (second.map Candidate.id).Nodup) (inside : weak ∈ kept) :
    ∃ rest, kept.Perm (weak :: rest) ∧ raised.Perm (strong :: rest) := by
  obtain ⟨front, back, rfl⟩ := List.append_of_mem inside
  refine ⟨front ++ back, List.perm_middle, ?_⟩
  have grown : weak.key ≤ strong.key := by
    rw [Candidate.key, Candidate.key, outranks.id_eq, Prod.Lex.toLex_le_toLex,
      ExactScalar.value_eq, ExactScalar.value_eq]
    rcases outranks.relevance.lt_or_eq with less | same
    · exact Or.inl (WithBot.coe_lt_coe.mpr (ExactScalar.embed_strictMono less))
    · exact Or.inr ⟨by rw [same], le_refl _⟩
  have moved := ((before.perm List.perm_middle.symm).of_perm firstPerm).raise grown
  have keys : (second.map Candidate.key).Nodup := keys_nodup distinct
  have settled := (after.of_perm secondPerm).perm_filter
    ((secondPerm.map Candidate.key).nodup_iff.mp keys)
  exact settled.trans (moved.perm_filter ((secondPerm.map Candidate.key).nodup_iff.mp keys)).symm

/-- The shortlist of a scan holds its best candidates. -/
theorem considerAll_greatest (heaps : HeapAlgorithms (Candidate D)) (query : Query D)
    (items : List (Item D)) : Greatest Candidate.key query.limit (candidates query items)
      ((create query).considerAll heaps items).shortlist := by
  rw [considerAll_shortlist]
  exact (foldl_retain_retained heaps query.limit fun _ _ => ExactScalar.isNumber _).greatest

variable {σ : Type} {accept : ItemId → StateM σ Bool}

/-- An item whose base score is raised, all else being equal, comes no later in the slate, after
the same entries. -/
theorem select_raised (heaps : HeapAlgorithms (Candidate D)) {items other rest : List (Item D)}
    (firstItems : items.Perm (item :: rest))
    (secondItems : other.Perm (rescored item score :: rest)) (distinct : (items.map Item.id).Nodup)
    (higher : item.baseScore ≤ score) (floor : 0 ≤ query.config.minScore)
    (category : 0 ≤ query.config.categoryRepeatFactor)
    (advertiser : 0 ≤ query.config.advertiserRepeatFactor) (keen : Keen accept item.id) {state : σ}
    {before after : List (RankedItem D)} {entry : RankedItem D}
    (slate : (((create query).considerAll heaps items).select (some accept) state).1 =
      before ++ entry :: after) (here : entry.id = item.id) :
    ∃ shorter moved later, shorter <+: before ∧ moved.id = item.id ∧
      (((create query).considerAll heaps other).select (some accept) state).1 =
        shorter ++ moved :: later := by
  have otherDistinct : (other.map Item.id).Nodup := by
    have same : ((rescored item score :: rest).map Item.id) = (item :: rest).map Item.id := rfl
    rw [(secondItems.map Item.id).nodup_iff, same, ← (firstItems.map Item.id).nodup_iff]
    exact distinct
  have greatest := considerAll_greatest heaps query
  have ids := considerAll_ids_nodup heaps query distinct
  rw [select_eq] at slate ⊢
  -- the item is in the slate, so it was on the shortlist
  have present : item.id ∈ (selectLoop query (some accept)
      ((create query).considerAll heaps items).shortlist.length
      (Selection.start ((create query).considerAll heaps items).shortlist) state).1.map
        RankedItem.id := by
    rw [slate, ← here]
    exact List.mem_map_of_mem (List.mem_append_right _ List.mem_cons_self)
  obtain ⟨added, _⟩ := accepted_of_added accept (by rwa [untaken_start]) List.not_mem_nil present
  rw [untaken_start] at added
  obtain ⟨weak, inside, named⟩ := List.mem_map.mp added
  obtain ⟨source, sourceMember, offered⟩ := List.mem_filterMap.mp ((greatest items).mem inside)
  have own : source = item := by
    refine List.inj_on_of_nodup_map distinct sourceMember
      (firstItems.mem_iff.mpr List.mem_cons_self) ?_
    rw [← candidateOf_id offered, named]
  subst own
  obtain ⟨strong, alsoOffered, outranks⟩ := candidateOf_rescored floor higher offered
  have firstPerm : (candidates query items).Perm (weak :: candidates query rest) := by
    refine (firstItems.filterMap (candidateOf query)).trans ?_
    rw [List.filterMap_cons_some offered]
    exact List.Perm.refl _
  have secondPerm : (candidates query other).Perm (strong :: candidates query rest) := by
    refine (secondItems.filterMap (candidateOf query)).trans ?_
    rw [List.filterMap_cons_some alsoOffered]
    exact List.Perm.refl _
  obtain ⟨left, firstLeft, secondLeft⟩ := shortlist_raised outranks (greatest items)
    (greatest other) firstPerm secondPerm
    (otherDistinct.sublist (candidates_ids_sublist query other)) inside
  rw [← named] at here keen ⊢
  rw [secondLeft.length_eq, List.length_cons]
  rw [firstLeft.length_eq, List.length_cons] at slate
  have raised : Raised weak strong left
      (Selection.start ((create query).considerAll heaps items).shortlist)
      (Selection.start ((create query).considerAll heaps other).shortlist) := by
    refine ⟨?_, ?_, rfl, rfl, rfl⟩
    · rw [untaken_start]
      exact firstLeft
    · rw [untaken_start]
      exact secondLeft
  exact selectLoop_raised outranks keen category advertiser raised
    ((firstLeft.map Candidate.id).nodup_iff.mp ids) List.not_mem_nil slate here

end Score

end Lrd.Rank.CandidateSelector
