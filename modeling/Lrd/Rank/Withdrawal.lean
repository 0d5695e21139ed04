import Lrd.Rank.Raise

/-!
# A candidate that is not chosen

The greedy pass compares candidates with each other, one pick at a time, and a pick depends on
the picks before it only. So a candidate that the pass leaves out has no influence on what it
chooses: without it the pass makes the same picks, except that it does not come to the round in
which that candidate was refused (`selectLoop_unshown`). In the retrieval phase a candidate does
have influence beyond itself, since it may take the place of another on the shortlist; if it was
not on the shortlist, or if there was room for all, it has none (`select_unshown`).

`accept` may have a state, but the answers about other items must not depend on whether the
candidate was asked about and refused (`Oblivious`).
-/

namespace Lrd.Rank.CandidateSelector

open Foundation

/-! ## Refusals that leave no trace -/

section Oblivious

variable {σ : Type}

/-- The answers about other items do not depend on a refusal of this one: `alike` relates the
states that give the same answers about them. -/
structure Oblivious (accept : ItemId → StateM σ Bool) (id : ItemId) (alike : σ → σ → Prop) :
    Prop where
  refused : ∀ {state : σ}, (accept id state).1 = false → alike (accept id state).2 state
  others : ∀ {other : ItemId} {first second : σ}, other ≠ id → alike first second →
    (accept other first).1 = (accept other second).1 ∧
      alike (accept other first).2 (accept other second).2

variable {D : Type} [Scalar D] {query : Query D} {accept : ItemId → StateM σ Bool}

/-- Once the item is gone, the loop chooses alike in states that are alike. -/
theorem Oblivious.selectLoop_eq {id : ItemId} {alike : σ → σ → Prop}
    (oblivious : Oblivious accept id alike) (fuel : Nat) {selection : Selection D} {first second : σ}
    (absent : id ∉ (untaken selection.slots).map Candidate.id) (same : alike first second) :
    (selectLoop query (some accept) fuel selection first).1 =
      (selectLoop query (some accept) fuel selection second).1 := by
  induction fuel generalizing selection first second with
  | zero => rfl
  | succ fuel ih =>
      rw [selectLoop_asks, selectLoop_asks]
      split
      · rcases pick_cases query selection with ⟨none, _⟩ | ⟨best, picked, _, perm⟩
        · rw [none]
        · have among : best.candidate.id ∈ (untaken selection.slots).map Candidate.id :=
            List.mem_map_of_mem (perm.mem_iff.mp List.mem_cons_self)
          obtain ⟨answers, still⟩ := oblivious.others (ne_of_mem_of_not_mem among absent) same
          simp only [picked, answers]
          refine ih ?_ still
          rw [untaken_answered]
          intro inside
          exact absent ((perm.map Candidate.id).subset (List.mem_cons_of_mem _ inside))
      · rfl

end Oblivious

/-! ## Two loops -/

section Shortened

variable {D : Type} [ExactScalar D]

/-- Two states of the loop that differ in one candidate that only the first has left. -/
structure Shortened (lost : Candidate D) (rest : List (Candidate D)) (first second : Selection D) :
    Prop where
  longer : (untaken first.slots).Perm (lost :: rest)
  shorter : (untaken second.slots).Perm rest
  chosen : first.chosen = second.chosen
  categoryCounts : first.categoryCounts = second.categoryCounts
  advertiserCounts : first.advertiserCounts = second.advertiserCounts

variable {lost : Candidate D} {rest : List (Candidate D)} {first second : Selection D}
  {query : Query D}

/-- The first loop picks the candidate that the second does not have, or both pick the same. -/
theorem Shortened.pick_cases (shortened : Shortened lost rest first second)
    (distinct : ((lost :: rest).map Candidate.id).Nodup) {left : Best D}
    (picked : pick query first = some left) :
    left.candidate = lost ∨
      left.candidate ∈ rest ∧ ∃ right, pick query second = some right ∧
        right.candidate = left.candidate ∧ right.adjusted = left.adjusted := by
  have scores : adjusted query.config first = adjusted query.config second := by
    funext candidate
    rw [adjusted, adjusted, shortened.categoryCounts, shortened.advertiserCounts]
  have above := pick_greatest (fun _ _ => ExactScalar.isNumber _) picked
  obtain ⟨scored, leftPerm⟩ := pick_some picked
  have among := shortened.longer.mem_iff.mp (leftPerm.mem_iff.mp List.mem_cons_self)
  rcases List.mem_cons.mp among with own | inside
  · exact Or.inl own
  rcases CandidateSelector.pick_cases query second with
    ⟨_, empty⟩ | ⟨right, rightPicked, alsoScored, rightPerm⟩
  · have member := shortened.shorter.mem_iff.mpr inside
    rw [empty] at member
    exact absurd member List.not_mem_nil
  have tops := pick_greatest (fun _ _ => ExactScalar.isNumber _) rightPicked
  rw [← scores] at tops
  have other := shortened.shorter.mem_iff.mp (rightPerm.mem_iff.mp List.mem_cons_self)
  have below := above right.candidate
    (shortened.longer.mem_iff.mpr (List.mem_cons_of_mem _ other))
  have reaches := tops left.candidate (shortened.shorter.mem_iff.mpr inside)
  have same : right.candidate = left.candidate :=
    List.inj_on_of_nodup_map distinct (List.mem_cons_of_mem _ other) among
      (standing_inj (le_antisymm below reaches))
  refine Or.inr ⟨inside, right, rightPicked, same, ?_⟩
  rw [alsoScored, scored, same, scores]

omit [ExactScalar D] in
/-- The loops stay apart by the one candidate while they pick others. -/
theorem Shortened.answered (shortened : Shortened lost rest first second) {left right : Best D}
    (inside : left.candidate ∈ rest) (same : right.candidate = left.candidate)
    (scores : right.adjusted = left.adjusted)
    (leftPerm : (left.candidate :: untaken (first.take left).slots).Perm (untaken first.slots))
    (rightPerm : (right.candidate :: untaken (second.take right).slots).Perm
      (untaken second.slots)) (accepted : Bool) :
    ∃ others, (left.candidate :: others).Perm rest ∧
      Shortened lost others (first.answered left accepted) (second.answered right accepted) := by
  obtain ⟨front, back, rfl⟩ := List.append_of_mem inside
  have found : (left.candidate :: (front ++ back)).Perm (front ++ left.candidate :: back) :=
    List.perm_middle.symm
  obtain ⟨chosen, categories, advertisers⟩ := answered_congr shortened.chosen
    shortened.categoryCounts shortened.advertiserCounts same scores accepted
  refine ⟨front ++ back, found, ?_, ?_, chosen, categories, advertisers⟩
  · rw [untaken_answered]
    exact perm_of_taken [lost] shortened.longer found leftPerm
  · rw [untaken_answered]
    rw [same] at rightPerm
    exact perm_of_taken [] shortened.shorter found rightPerm

omit [ExactScalar D] in
/-- An answer keeps the counts below the length of the slate. -/
theorem Counted.answered {selection : Selection D} (counted : Counted selection) (best : Best D)
    (accepted : Bool) : Counted (selection.answered best accepted) := by
  cases accepted with
  | false => exact counted
  | true =>
      have taken : Counted (selection.take best) := counted
      exact taken.choose best

variable {σ : Type} {accept : ItemId → StateM σ Bool} {alike : σ → σ → Prop}

/-- In the round in which the candidate is picked it is refused, and then the two loops have the
same left. -/
theorem Shortened.refused (shortened : Shortened lost rest first second)
    (oblivious : Oblivious accept lost.id alike)
    (distinct : ((lost :: rest).map Candidate.id).Nodup) (counted : Counted first) {fuel : Nat}
    (enough : rest.length ≤ fuel) {state : σ} {left : Best D} (picked : pick query first = some left)
    (isLost : left.candidate = lost)
    (unshown : lost.id ∉ (selectLoop query (some accept) fuel
      (first.answered left (accept lost.id state).1) (accept lost.id state).2).1.map
        RankedItem.id) :
    (selectLoop query (some accept) fuel (first.answered left (accept lost.id state).1)
        (accept lost.id state).2).1 =
      (selectLoop query (some accept) (fuel + 1) second state).1 := by
  cases answer : (accept lost.id state).1 with
  | true =>
      rw [answer] at unshown
      have stays : (first.answered left true).chosen <+: (selectLoop query (some accept) fuel
          (first.answered left true) (accept lost.id state).2).1 := chosen_isPrefix ..
      have entered : lost.id ∈ (first.answered left true).chosen.map RankedItem.id := by
        rw [map_id_answered, isLost]
        exact List.mem_append_right _ List.mem_cons_self
      exact absurd ((stays.map RankedItem.id).subset entered) unshown
  | false =>
      have leftPerm := (pick_some picked).2
      rw [isLost] at leftPerm
      have remaining : (untaken (first.take left).slots).Perm rest :=
        (leftPerm.trans shortened.longer).cons_inv
      have same : SameUpToLayout (first.answered left false) second :=
        ⟨remaining.trans shortened.shorter.symm, shortened.chosen, shortened.categoryCounts,
          shortened.advertiserCounts⟩
      have gone : lost.id ∉ rest.map Candidate.id := (List.nodup_cons.mp distinct).1
      have ids := (shortened.shorter.map Candidate.id)
      rw [selectLoop_fuel query (some accept) fuel second
        (shortened.shorter.length_eq.trans_le enough)]
      rw [selectLoop_perm (some accept) fuel same (counted.answered _ false) ?_ ?_]
      · exact oblivious.selectLoop_eq fuel (fun inside => gone (ids.mem_iff.mp inside))
          (oblivious.refused answer)
      · exact (remaining.map Candidate.id).nodup_iff.mpr distinct.of_cons
      · exact fun _ _ _ _ _ _ => ExactScalar.isNumber _

/-- Without a candidate that it does not choose the loop chooses the same. -/
theorem selectLoop_unshown (oblivious : Oblivious accept lost.id alike) {fuel : Nat} {state : σ}
    (shortened : Shortened lost rest first second)
    (distinct : ((lost :: rest).map Candidate.id).Nodup) (counted : Counted first)
    (enough : rest.length ≤ fuel)
    (unshown : lost.id ∉
      (selectLoop query (some accept) (fuel + 1) first state).1.map RankedItem.id) :
    (selectLoop query (some accept) (fuel + 1) first state).1 =
      (selectLoop query (some accept) (fuel + 1) second state).1 := by
  induction fuel using Nat.strongRecOn generalizing first second rest state with
  | ind fuel ih =>
      rw [selectLoop_asks] at unshown ⊢
      split at unshown
      · rename_i room
        rw [if_pos room]
        rcases pick_cases query first with ⟨_, empty⟩ | ⟨left, leftPicked, _, leftPerm⟩
        · have sizes := shortened.longer.length_eq
          rw [empty] at sizes
          cases sizes
        simp only [leftPicked] at unshown ⊢
        rcases shortened.pick_cases distinct leftPicked with
          isLost | ⟨inside, right, rightPicked, same, scores⟩
        · rw [isLost] at unshown ⊢
          exact shortened.refused oblivious distinct counted enough leftPicked isLost unshown
        · -- another round, with one candidate less in both
          have rightPerm := (pick_some rightPicked).2
          rw [selectLoop_asks, ← shortened.chosen, if_pos room]
          simp only [rightPicked, same]
          obtain ⟨others, perm, goesOn⟩ := shortened.answered inside same scores leftPerm rightPerm
            (accept left.candidate.id state).1
          have sizes := perm.length_eq
          rw [List.length_cons] at sizes
          obtain ⟨less, rfl⟩ : ∃ less, fuel = less + 1 := ⟨fuel - 1, by omega⟩
          have fewer : ((lost :: others).map Candidate.id).Nodup := by
            have all := ((perm.cons lost).map Candidate.id).nodup_iff.mpr distinct
            exact all.sublist (((List.sublist_cons_self left.candidate others).cons_cons lost).map _)
          exact ih less (Nat.lt_succ_self less) goesOn fewer (counted.answered left _) (by omega)
            unshown
      · rename_i full
        rw [if_neg full, selectLoop_asks, ← shortened.chosen, if_neg full]

end Shortened

/-! ## Withdrawing an item -/

section Withdrawn

variable {D : Type} [ExactScalar D] {query : Query D} (heaps : HeapAlgorithms (Candidate D))

/-- Without an item the shortlist is the same, or has all the others. -/
theorem shortlist_withdrawn {items other rest : List (Item D)} {item : Item D}
    (firstItems : items.Perm (item :: rest)) (secondItems : other.Perm rest)
    (distinct : (items.map Item.id).Nodup)
    (free : (candidates query items).length ≤ query.limit ∨
      item.id ∉ ((create query).considerAll heaps items).shortlist.map Candidate.id) :
    ((create query).considerAll heaps items).shortlist.Perm
        ((create query).considerAll heaps other).shortlist ∨
      ∃ lost : Candidate D, lost.id = item.id ∧
        ((create query).considerAll heaps items).shortlist.Perm
          (lost :: ((create query).considerAll heaps other).shortlist) := by
  have before := considerAll_greatest heaps query items
  have after := (considerAll_greatest heaps query other).of_perm
    (secondItems.filterMap (candidateOf query))
  have restDistinct : (rest.map Item.id).Nodup :=
    ((firstItems.map Item.id).nodup_iff.mp distinct).of_cons
  have keys : ((candidates query rest).map Candidate.key).Nodup :=
    keys_nodup (restDistinct.sublist (candidates_ids_sublist query rest))
  have split := firstItems.filterMap (candidateOf query)
  cases offered : candidateOf query item with
  | none =>
      rw [List.filterMap_cons_none offered] at split
      exact Or.inl (((before.of_perm split).perm_filter keys).trans (after.perm_filter keys).symm)
  | some lost =>
      rw [List.filterMap_cons_some offered] at split
      have named : lost.id = item.id := candidateOf_id offered
      rcases free with room | absent
      · refine Or.inr ⟨lost, named, (before.perm_all room).trans (split.trans ?_)⟩
        have sizes := split.length_eq
        rw [List.length_cons] at sizes
        refine (after.perm_all ?_).symm.cons lost
        exact (Nat.le_succ _).trans (sizes.symm.trans_le room)
      · have out : lost ∉ ((create query).considerAll heaps items).shortlist := by
          intro inside
          rw [← named] at absent
          exact absent (List.mem_map_of_mem inside)
        have same := ((before.of_perm split).of_cons out).perm_filter keys
        exact Or.inl (same.trans (after.perm_filter keys).symm)

variable {σ : Type} {accept : ItemId → StateM σ Bool} {alike : σ → σ → Prop}

/-- Without an item that it does not hold the slate is the same, if the item was not on the
shortlist or had no rival for its place there. -/
theorem select_unshown {items other rest : List (Item D)} {item : Item D}
    (firstItems : items.Perm (item :: rest)) (secondItems : other.Perm rest)
    (distinct : (items.map Item.id).Nodup) (oblivious : Oblivious accept item.id alike) {state : σ}
    (free : (candidates query items).length ≤ query.limit ∨
      item.id ∉ ((create query).considerAll heaps items).shortlist.map Candidate.id)
    (unshown : item.id ∉
      (((create query).considerAll heaps items).select (some accept) state).1.map RankedItem.id) :
    (((create query).considerAll heaps items).select (some accept) state).1 =
      (((create query).considerAll heaps other).select (some accept) state).1 := by
  have ids := considerAll_ids_nodup heaps query distinct
  have counted : ∀ shortlist : List (Candidate D), Counted (Selection.start shortlist) :=
    fun _ _ => ⟨Nat.le_refl 0, Nat.le_refl 0⟩
  rw [select_eq] at unshown
  rw [select_eq, select_eq]
  rcases shortlist_withdrawn heaps firstItems secondItems distinct free with
    same | ⟨lost, named, split⟩
  · have layouts : SameUpToLayout
        (Selection.start ((create query).considerAll heaps items).shortlist)
        (Selection.start ((create query).considerAll heaps other).shortlist) := by
      refine ⟨?_, rfl, rfl, rfl⟩
      rwa [untaken_start, untaken_start]
    rw [same.length_eq, selectLoop_perm (some accept) _ layouts (counted _)]
    · rwa [untaken_start]
    · exact fun _ _ _ _ _ _ => ExactScalar.isNumber _
  · have shortened : Shortened lost ((create query).considerAll heaps other).shortlist
        (Selection.start ((create query).considerAll heaps items).shortlist)
        (Selection.start ((create query).considerAll heaps other).shortlist) := by
      refine ⟨?_, ?_, rfl, rfl, rfl⟩
      · rwa [untaken_start]
      · rw [untaken_start]
    rw [split.length_eq, List.length_cons] at unshown ⊢
    rw [← named] at unshown oblivious
    rw [selectLoop_unshown oblivious shortened ((split.map Candidate.id).nodup_iff.mp ids)
      (counted _) (Nat.le_refl _) unshown, selectLoop_fuel]
    rw [untaken_start]

end Withdrawn

end Lrd.Rank.CandidateSelector
