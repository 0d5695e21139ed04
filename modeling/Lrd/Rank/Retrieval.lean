import Lrd.Foundation.Greatest
import Lrd.Rank.Selector
import Mathlib.Data.Prod.Lex
import Mathlib.Order.WithBot

/-!
# What retrieval keeps

Offering a list of items leaves the bounded heap with the best `limit` candidates
of that list in the order of relevance and then id, whatever order they came in
(`considerAll_strongest`). Whether a relevance is a number matters here: with a
NaN among them `worse` is no order. Without that assumption the shortlist still
holds candidates of the list, each once (`considerAll_subperm`).
-/

namespace Lrd.Rank

open Foundation

variable {D : Type} [Scalar D]

/-- The candidate an item is offered as, when it is eligible and scores above the
minimum. -/
def candidateOf (query : Query D) (item : Item D) : Option (Candidate D) :=
  if isEligible item query.signal query.now &&
      !Scalar.le (baseRelevance item query.signal query.config query.now) query.config.minScore then
    some ⟨baseRelevance item query.signal query.config query.now, item.id, item.category,
      item.advertiser⟩
  else none

/-- The eligible items of a list that score above the minimum. -/
def candidates (query : Query D) (items : List (Item D)) : List (Candidate D) :=
  items.filterMap (candidateOf query)

/-- A candidate carries what it copied from its item. -/
theorem candidateOf_label {query : Query D} {item : Item D} {candidate : Candidate D}
    (offered : candidateOf query item = some candidate) : candidate.label = item.label := by
  unfold candidateOf at offered
  split at offered
  · cases offered
    rfl
  · cases offered

theorem candidateOf_id {query : Query D} {item : Item D} {candidate : Candidate D}
    (offered : candidateOf query item = some candidate) : candidate.id = item.id :=
  congrArg Prod.fst (candidateOf_label offered)

/-- The candidates have ids of the items, in their order. -/
theorem candidates_ids_sublist (query : Query D) (items : List (Item D)) :
    ((candidates query items).map Candidate.id).Sublist (items.map Item.id) := by
  induction items with
  | nil => exact List.Sublist.slnil
  | cons item items ih =>
      cases offered : candidateOf query item with
      | none =>
          rw [candidates, List.filterMap_cons_none offered]
          exact ih.trans (List.sublist_cons_self _ _)
      | some candidate =>
          rw [candidates, List.filterMap_cons_some offered, List.map_cons, List.map_cons,
            candidateOf_id offered]
          exact ih.cons_cons _

/-- The order of retrieval: relevance, then id. A NaN stands below every number. -/
def Candidate.key (candidate : Candidate D) : WithBot (Scalar.Value D) ×ₗ Nat :=
  toLex (Scalar.value candidate.relevance, candidate.id.toNat)

/-- Among numbers `worse` compares the keys. -/
theorem worse_eq_of_numbers {a b : Candidate D} (left : Scalar.IsNumber a.relevance)
    (right : Scalar.IsNumber b.relevance) : worse a b = decide (a.key < b.key) := by
  obtain ⟨x, xValue⟩ := Option.isSome_iff_exists.mp left
  obtain ⟨y, yValue⟩ := Option.isSome_iff_exists.mp right
  have keys : a.key < b.key ↔ x < y ∨ x = y ∧ a.id < b.id := by
    rw [Candidate.key, Candidate.key, Prod.Lex.toLex_lt_toLex, xValue, yValue,
      UInt64.lt_iff_toNat_lt]
    exact or_congr WithBot.coe_lt_coe (and_congr_left' WithBot.coe_inj)
  rw [worse, Scalar.eq_of_values xValue yValue, Scalar.lt_of_values xValue yValue]
  by_cases same : x = y
  · simp only [keys, same, decide_true, Bool.not_true, Bool.false_eq_true, ↓reduceIte, lt_irrefl,
      true_and, false_or]
  · simp only [keys, same, decide_false, Bool.not_false, ↓reduceIte, false_and, or_false]

variable {all : List (Candidate D)}

/-- Different ids have different keys. -/
theorem keys_nodup (distinct : (all.map Candidate.id).Nodup) :
    (all.map Candidate.key).Nodup := by
  rw [List.nodup_map_iff_inj_on distinct.of_map]
  intro a aMember b bMember same
  have ids : a.id.toNat = b.id.toNat := congrArg (fun key => (ofLex key).2) same
  exact List.inj_on_of_nodup_map distinct aMember bMember (UInt64.toNat.inj ids)

/-- The candidates of a list beaten by fewer than `limit` of the others. -/
def strongest (limit : Nat) (all : List (Candidate D)) : List (Candidate D) :=
  all.filter fun candidate => all.countP (worse candidate) < limit

/-- The strongest are the same candidates in whatever order they come. -/
theorem strongest_perm (limit : Nat) {first second : List (Candidate D)}
    (same : first.Perm second) : (strongest limit first).Perm (strongest limit second) := by
  unfold strongest
  simp only [same.countP_eq]
  exact same.filter _

/-- Among numbers the strongest are those with fewer than `limit` above them. -/
theorem strongest_eq_of_numbers (limit : Nat)
    (numbers : ∀ candidate ∈ all, Scalar.IsNumber candidate.relevance) :
    strongest limit all =
      all.filter fun a => all.countP (fun b => decide (a.key < b.key)) < limit := by
  apply List.filter_congr
  intro a aMember
  have same : all.countP (worse a) = all.countP (fun b => decide (a.key < b.key)) :=
    List.countP_congr fun b bMember => by
      rw [worse_eq_of_numbers (numbers a aMember) (numbers b bMember)]
  rw [same]

namespace CandidateSelector

variable {query : Query D} (heaps : HeapAlgorithms (Candidate D))

/-- What an item does to the shortlist. -/
theorem consider_shortlist (selector : CandidateSelector query) (item : Item D) :
    (selector.consider heaps item).shortlist =
      match candidateOf query item with
      | some candidate => retain heaps query.limit selector.shortlist candidate
      | none => selector.shortlist := by
  unfold consider candidateOf
  cases eligible : isEligible item query.signal query.now with
  | false => rfl
  | true =>
      cases low : Scalar.le (baseRelevance item query.signal query.config query.now)
          query.config.minScore with
      | true => simp [low]
      | false => simp [low]

/-- Offer every item of a list in turn. -/
def considerAll (selector : CandidateSelector query) (items : List (Item D)) :
    CandidateSelector query :=
  items.foldl (consider heaps) selector

/-- Items may be considered in two parts. -/
theorem considerAll_append (selector : CandidateSelector query) (first second : List (Item D)) :
    selector.considerAll heaps (first ++ second) =
      (selector.considerAll heaps first).considerAll heaps second :=
  List.foldl_append ..

/-- The shortlist is that of the candidates, retained one after another. -/
theorem considerAll_shortlist (selector : CandidateSelector query) (items : List (Item D)) :
    (selector.considerAll heaps items).shortlist =
      (candidates query items).foldl (retain heaps query.limit) selector.shortlist := by
  induction items generalizing selector with
  | nil => rfl
  | cons item items ih =>
      have step := consider_shortlist heaps selector item
      cases offered : candidateOf query item with
      | none =>
          simp only [offered] at step
          rw [candidates, List.filterMap_cons_none offered, ← step]
          exact ih _
      | some candidate =>
          simp only [offered] at step
          rw [candidates, List.filterMap_cons_some offered, List.foldl_cons, ← step]
          exact ih _

/-! ## Without any assumption on the scores -/

/-- Replacing the weakest takes nothing but the new candidate in. -/
theorem pop_replace_subperm (shortlist : List (Candidate D)) (candidate : Candidate D) :
    ((heaps.popHeap (fun a b => worse b a) shortlist).dropLast ++ [candidate]).Subperm
      (shortlist ++ [candidate]) := by
  rw [List.subperm_append_right]
  exact (List.dropLast_sublist _).subperm.trans (heaps.pop_perm _ shortlist).subperm

/-- One offer keeps candidates that were kept before, or the offered one. -/
theorem retain_subperm (limit : Nat) (shortlist : List (Candidate D)) (candidate : Candidate D) :
    (retain heaps limit shortlist candidate).Subperm (shortlist ++ [candidate]) := by
  have keep : shortlist.Subperm (shortlist ++ [candidate]) :=
    (List.sublist_append_left _ _).subperm
  unfold retain
  split
  · exact (heaps.push_perm _ _).subperm
  · split
    · exact keep
    · split
      · exact keep
      · rename_i root rest
        split
        · exact (heaps.push_perm _ _).subperm.trans (pop_replace_subperm heaps _ candidate)
        · exact keep

/-- Nothing is retained that was not offered, and nothing twice. -/
theorem foldl_retain_subperm (limit : Nat) (shortlist all : List (Candidate D)) :
    (all.foldl (retain heaps limit) shortlist).Subperm (shortlist ++ all) := by
  induction all generalizing shortlist with
  | nil => rw [List.append_nil]; exact List.Subperm.refl _
  | cons candidate all ih =>
      apply (ih _).trans
      have step := retain_subperm heaps limit shortlist candidate
      rw [← List.subperm_append_right all] at step
      simpa only [List.append_assoc, List.singleton_append] using step

/-- The shortlist holds candidates of the offered items, each at most as often as
it was offered. -/
theorem considerAll_subperm (query : Query D) (items : List (Item D)) :
    ((create query).considerAll heaps items).shortlist.Subperm (candidates query items) := by
  rw [considerAll_shortlist]
  exact foldl_retain_subperm heaps query.limit [] (candidates query items)

/-- The shortlist of different items has different ids. -/
theorem considerAll_ids_nodup (query : Query D) {items : List (Item D)}
    (distinct : (items.map Item.id).Nodup) :
    (((create query).considerAll heaps items).shortlist.map Candidate.id).Nodup := by
  obtain ⟨kept, same, sublist⟩ := considerAll_subperm heaps query items
  have keptNodup : (kept.map Candidate.id).Nodup :=
    (distinct.sublist (candidates_ids_sublist query items)).sublist (sublist.map _)
  exact (same.map Candidate.id).nodup_iff.mp keptNodup

/-! ## With numbers for scores -/

/-- Among numbers the heap is ordered by the keys. -/
theorem ordersBy_of_numbers (numbers : ∀ candidate ∈ all, Scalar.IsNumber candidate.relevance) :
    OrdersBy (fun a b => worse b a) (fun c : Candidate D => OrderDual.toDual c.key) all := by
  intro a aMember b bMember
  exact worse_eq_of_numbers (numbers b bMember) (numbers a aMember)

/-- What the shortlist satisfies while numbers are offered: it is a heap and holds
the greatest of what was offered. -/
structure Retained (limit : Nat) (all shortlist : List (Candidate D)) : Prop where
  heap : IsHeap (fun a b => worse b a) shortlist
  greatest : Greatest Candidate.key limit all shortlist

/-- What one more candidate does to a shortlist of the strongest. -/
theorem Retained.retain {limit : Nat} {all shortlist : List (Candidate D)}
    (retained : Retained limit all shortlist) (candidate : Candidate D)
    (numbers : ∀ offered ∈ all ++ [candidate], Scalar.IsNumber offered.relevance) :
    Retained limit (all ++ [candidate]) (retain heaps limit shortlist candidate) := by
  have offered : ∀ kept ∈ shortlist ++ [candidate], kept ∈ all ++ [candidate] := by
    intro kept member
    rcases List.mem_append.mp member with earlier | last
    · exact List.mem_append_left _ (retained.greatest.mem earlier)
    · exact List.mem_append_right _ last
  have orders := (ordersBy_of_numbers numbers).subset offered
  have shortlistOrders := orders.subset fun kept => List.mem_append_left [candidate]
  unfold CandidateSelector.retain
  split
  · rename_i room
    exact ⟨heaps.push_isHeap _ _ shortlist candidate orders retained.heap,
      (retained.greatest.push candidate room).perm (heaps.push_perm _ _)⟩
  · rename_i full
    split
    · rename_i none
      refine ⟨retained.heap, retained.greatest.skip candidate (by omega) ?_⟩
      have empty : shortlist = [] :=
        List.eq_nil_of_length_eq_zero (by have := retained.greatest.length_le; omega)
      rw [empty]
      exact fun _ member => absurd member List.not_mem_nil
    · rename_i some
      cases shortlist with
      | nil => exact absurd (Nat.pos_of_ne_zero some) full
      | cons root rest =>
          have candidateNumber := numbers candidate (by simp)
          have rootNumber := numbers root (offered root (by simp))
          have lowest : ∀ kept ∈ root :: rest, root.key ≤ kept.key :=
            retained.heap.key_le_front shortlistOrders
          simp only [worse_eq_of_numbers candidateNumber rootNumber]
          by_cases weaker : candidate.key < root.key
          · simp only [weaker, decide_true, Bool.not_true, Bool.false_eq_true, ↓reduceIte]
            refine ⟨retained.heap, retained.greatest.skip candidate (by omega) ?_⟩
            intro kept member
            exact weaker.le.trans (lowest kept member)
          · simp only [weaker, decide_false, Bool.not_false, ↓reduceIte]
            obtain ⟨heap, popped, isHeap⟩ := heaps.pop_isHeap _ _ root rest shortlistOrders
              retained.heap
            have perm : (heap ++ [root]).Perm (root :: rest) := by
              rw [← popped]
              exact heaps.pop_perm _ _
            have inside : ∀ kept ∈ heap, kept ∈ root :: rest := fun kept member =>
              perm.mem_iff.mp (List.mem_append_left _ member)
            rw [popped, List.dropLast_concat]
            constructor
            · refine heaps.push_isHeap _ _ heap candidate (orders.subset ?_) isHeap
              intro kept member
              rcases List.mem_append.mp member with earlier | last
              · exact List.mem_append_left _ (inside kept earlier)
              · exact List.mem_append_right _ last
            · refine Greatest.perm ?_ (heaps.push_perm _ _)
              refine (retained.greatest.perm perm).replace candidate ?_ ?_ (not_lt.mp weaker)
              · rw [perm.length_eq]
                omega
              · exact fun kept member => lowest kept (inside kept member)

/-- What is retained of numbers are the strongest. -/
theorem foldl_retain_retained (limit : Nat)
    (numbers : ∀ candidate ∈ all, Scalar.IsNumber candidate.relevance) :
    Retained limit all (all.foldl (retain heaps limit) []) := by
  induction all using List.reverseRecOn with
  | nil => exact ⟨fun i a b _ above => by simp at above, Greatest.nil⟩
  | append_singleton all candidate ih =>
      rw [List.foldl_append, List.foldl_cons, List.foldl_nil]
      exact (ih fun offered member => numbers offered (List.mem_append_left _ member)).retain heaps
        candidate numbers

/-- Retrieval keeps the strongest candidates of what was offered. -/
theorem considerAll_strongest {items : List (Item D)} (distinct : (items.map Item.id).Nodup)
    (numbers : ∀ candidate ∈ candidates query items, Scalar.IsNumber candidate.relevance) :
    ((create query).considerAll heaps items).shortlist.Perm
      (strongest query.limit (candidates query items)) := by
  rw [considerAll_shortlist, strongest_eq_of_numbers _ numbers]
  apply (foldl_retain_retained heaps query.limit numbers).greatest.perm_filter
  exact keys_nodup (distinct.sublist (candidates_ids_sublist query items))

end CandidateSelector

end Lrd.Rank
