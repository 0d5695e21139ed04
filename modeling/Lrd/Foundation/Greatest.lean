import Mathlib.Order.Defs.LinearOrder
import Mathlib.Order.Lattice
import Mathlib.Data.List.Perm.Basic
import Mathlib.Data.List.Nodup
import Mathlib.Data.List.Sort

/-!
# The greatest elements of a list

`Greatest key m all kept` says that `kept` holds `m` elements of `all` with the
greatest keys, or all of them when there are fewer. It is what a bounded
retention of the best elements maintains: the lemmas below are the three things
such a retention may do with the next element.

When the keys are distinct the greatest elements are determined up to order
(`Greatest.perm_filter`): they are those beaten by fewer than `m` others.

`ranking` puts a list in order, greatest key first. Its first elements may be ranked from
any part of the list that contains them (`take_ranking_iff`).
-/

namespace Foundation

variable {α K : Type} [LinearOrder K]

/-- `kept` holds the `m` elements of `all` with the greatest keys. -/
def Greatest (key : α → K) (m : Nat) (all kept : List α) : Prop :=
  kept.length = min m all.length ∧
    ∃ rest, (kept ++ rest).Perm all ∧ ∀ a ∈ kept, ∀ b ∈ rest, key b ≤ key a

namespace Greatest

variable {key : α → K} {m : Nat} {all kept : List α}

theorem nil : Greatest key m [] ([] : List α) :=
  ⟨by simp, [], List.Perm.refl _, fun _ member => absurd member List.not_mem_nil⟩

/-- The order of what is kept does not matter. -/
theorem perm (greatest : Greatest key m all kept) {other : List α} (same : other.Perm kept) :
    Greatest key m all other := by
  obtain ⟨length, rest, split, above⟩ := greatest
  refine ⟨same.length_eq.trans length, rest, (same.append_right rest).trans split, ?_⟩
  intro a member
  exact above a (same.mem_iff.mp member)

/-- The order of what was offered does not matter. -/
theorem of_perm (greatest : Greatest key m all kept) {other : List α} (same : all.Perm other) :
    Greatest key m other kept := by
  obtain ⟨length, rest, split, above⟩ := greatest
  exact ⟨same.length_eq ▸ length, rest, split.trans same, above⟩

theorem length_le (greatest : Greatest key m all kept) : kept.length ≤ m := by
  rw [greatest.1]
  exact Nat.min_le_left ..

theorem mem (greatest : Greatest key m all kept) {a : α} (member : a ∈ kept) : a ∈ all := by
  obtain ⟨_, rest, split, _⟩ := greatest
  exact split.mem_iff.mp (List.mem_append_left _ member)

/-- Where there is room for all, all are kept. -/
theorem perm_all (greatest : Greatest key m all kept) (room : all.length ≤ m) : kept.Perm all := by
  obtain ⟨length, rest, split, _⟩ := greatest
  have sizes := split.length_eq
  rw [List.length_append] at sizes
  have nothing : rest = [] := List.eq_nil_of_length_eq_zero (by omega)
  rwa [nothing, List.append_nil] at split

/-- While there is room the next element is kept. -/
theorem push (greatest : Greatest key m all kept) (a : α) (room : kept.length < m) :
    Greatest key m (all ++ [a]) (kept ++ [a]) := by
  have length := greatest.1
  have split := greatest.perm_all (by omega)
  have sizes := split.length_eq
  refine ⟨?_, [], ?_, fun _ _ _ member => absurd member List.not_mem_nil⟩
  · simp only [List.length_append, List.length_cons, List.length_nil]
    omega
  · rw [List.append_nil]
    exact split.append_right [a]

/-- An element below everything kept is left out when there is no room. -/
theorem skip (greatest : Greatest key m all kept) (a : α) (full : m ≤ kept.length)
    (below : ∀ b ∈ kept, key a ≤ key b) : Greatest key m (all ++ [a]) kept := by
  obtain ⟨length, rest, split, above⟩ := greatest
  refine ⟨?_, rest ++ [a], ?_, ?_⟩
  · simp only [List.length_append, List.length_cons, List.length_nil]
    omega
  · rw [← List.append_assoc]
    exact split.append_right [a]
  · intro b bMember c cMember
    rcases List.mem_append.mp cMember with earlier | last
    · exact above b bMember c earlier
    · rw [List.mem_singleton.mp last]
      exact below b bMember

/-- An element not below the least one kept takes its place. -/
theorem replace {least : α} {others : List α} (greatest : Greatest key m all (others ++ [least]))
    (a : α) (full : m ≤ (others ++ [least]).length)
    (lowest : ∀ b ∈ others, key least ≤ key b) (above : key least ≤ key a) :
    Greatest key m (all ++ [a]) (others ++ [a]) := by
  obtain ⟨length, rest, split, exceeds⟩ := greatest
  have leastOver : ∀ b ∈ rest, key b ≤ key least := fun b => exceeds least (by simp) b
  refine ⟨?_, least :: rest, ?_, ?_⟩
  · simp only [List.length_append, List.length_cons, List.length_nil] at *
    omega
  · refine List.Perm.trans ?_ (split.append_right [a])
    rw [List.append_assoc, List.append_assoc, List.append_assoc]
    apply List.Perm.append_left others
    exact (List.perm_append_comm : ([a] ++ (least :: rest)).Perm (least :: rest ++ [a]))
  · intro b bMember c cMember
    have bAbove : key least ≤ key b := by
      rcases List.mem_append.mp bMember with earlier | last
      · exact lowest b earlier
      · rw [List.mem_singleton.mp last]
        exact above
    rcases List.mem_cons.mp cMember with rfl | earlier
    · exact bAbove
    · exact (leastOver c earlier).trans bAbove

/-- An element is among the greatest exactly when fewer than `m` others beat it. -/
theorem mem_iff (greatest : Greatest key m all kept) (distinct : (all.map key).Nodup) (a : α) :
    a ∈ kept ↔ a ∈ all ∧ all.countP (fun b => key a < key b) < m := by
  have bound := greatest.length_le
  have inAll := greatest.mem (a := a)
  obtain ⟨length, rest, split, above⟩ := greatest
  have counts : all.countP (fun b => key a < key b) =
      kept.countP (fun b => key a < key b) + rest.countP (fun b => key a < key b) := by
    rw [← split.countP_eq, List.countP_append]
  constructor
  · intro member
    refine ⟨inAll member, ?_⟩
    have noneRest : rest.countP (fun b => key a < key b) = 0 := by
      rw [List.countP_eq_zero]
      intro b bMember
      rw [decide_eq_true_eq, not_lt]
      exact above a member b bMember
    have notAll : kept.countP (fun b => key a < key b) < kept.length := by
      apply lt_of_le_of_ne List.countP_le_length
      intro every
      have beaten := List.countP_eq_length.mp every a member
      rw [decide_eq_true_eq] at beaten
      exact lt_irrefl _ beaten
    omega
  · rintro ⟨member, few⟩
    rcases List.mem_append.mp (split.mem_iff.mpr member) with here | left
    · exact here
    · exfalso
      have keysSplit : ((kept ++ rest).map key).Nodup := (split.map key).nodup_iff.mpr distinct
      rw [List.map_append, List.nodup_append] at keysSplit
      have every : kept.countP (fun b => key a < key b) = kept.length := by
        rw [List.countP_eq_length]
        intro b bMember
        rw [decide_eq_true_eq]
        apply lt_of_le_of_ne (above b bMember a left)
        exact (keysSplit.2.2 (key b) (List.mem_map_of_mem bMember) (key a)
          (List.mem_map_of_mem left)).symm
      have sizes := split.length_eq
      rw [List.length_append] at sizes
      have present := List.length_pos_of_mem left
      omega

/-- An element that is kept may grow; then the others are kept as before. -/
theorem raise {weak strong : α} {rest others : List α}
    (greatest : Greatest key m (weak :: others) (weak :: rest)) (grown : key weak ≤ key strong) :
    Greatest key m (strong :: others) (strong :: rest) := by
  obtain ⟨length, left, split, above⟩ := greatest
  refine ⟨length, left, (List.Perm.cons_inv split).cons strong, ?_⟩
  intro a member b dropped
  rcases List.mem_cons.mp member with rfl | inside
  · exact (above weak List.mem_cons_self b dropped).trans grown
  · exact above a (List.mem_cons_of_mem _ inside) b dropped

/-- An element that is not kept might as well not be there. -/
theorem of_cons {lost : α} {others : List α} (greatest : Greatest key m (lost :: others) kept)
    (absent : lost ∉ kept) : Greatest key m others kept := by
  obtain ⟨length, rest, split, above⟩ := greatest
  have dropped : lost ∈ rest := by
    have member := split.mem_iff.mpr List.mem_cons_self
    exact (List.mem_append.mp member).resolve_left absent
  obtain ⟨front, back, rfl⟩ := List.append_of_mem dropped
  have fewer : (kept ++ (front ++ back)).Perm others := by
    have moved : (kept ++ (front ++ lost :: back)).Perm (lost :: (kept ++ (front ++ back))) :=
      (List.perm_middle.append_left kept).trans List.perm_middle
    exact (moved.symm.trans split).cons_inv
  refine ⟨?_, front ++ back, fewer, fun a member b left => above a member b ?_⟩
  · have sizes := fewer.length_eq
    rw [List.length_append] at sizes
    rw [List.length_cons] at length
    omega
  · rcases List.mem_append.mp left with early | late
    · exact List.mem_append_left _ early
    · exact List.mem_append_right _ (List.mem_cons_of_mem _ late)

/-- With distinct keys the greatest elements are determined up to order. -/
theorem perm_filter (greatest : Greatest key m all kept) (distinct : (all.map key).Nodup) :
    kept.Perm (all.filter fun a => all.countP (fun b => key a < key b) < m) := by
  have allNodup : all.Nodup := distinct.of_map
  have keptNodup : kept.Nodup := by
    obtain ⟨_, rest, split, _⟩ := greatest
    exact (split.nodup_iff.mpr allNodup).of_append_left
  rw [List.perm_ext_iff_of_nodup keptNodup (allNodup.filter _)]
  intro a
  rw [greatest.mem_iff distinct, List.mem_filter, decide_eq_true_eq]

end Greatest

/-! ## In order -/

/-- The elements of a list, greatest key first. -/
def ranking (key : α → K) (list : List α) : List α := list.insertionSort fun a b => key b ≤ key a

section Ranking

variable {key : α → K} {list all kept : List α}

theorem ranking_perm (key : α → K) (list : List α) : (ranking key list).Perm list :=
  List.perm_insertionSort _ list

/-- A ranking goes downwards. -/
theorem ranking_pairwise (key : α → K) (list : List α) :
    (ranking key list).Pairwise fun a b => key b ≤ key a :=
  haveI : Std.Total fun a b : α => key b ≤ key a := ⟨fun a b => le_total (key b) (key a)⟩
  haveI : IsTrans α fun a b => key b ≤ key a := ⟨fun _ _ _ first second => second.trans first⟩
  List.pairwise_insertionSort _ list

/-- With distinct keys there is one way to order a list. -/
theorem ranking_eq (distinct : (list.map key).Nodup) {ordered : List α} (same : ordered.Perm list)
    (pairwise : ordered.Pairwise fun a b => key b ≤ key a) : ranking key list = ordered := by
  have perm := (ranking_perm key list).trans same.symm
  refine perm.eq_of_pairwise ?_ (ranking_pairwise key list) pairwise
  intro a b aMember bMember below above
  exact List.inj_on_of_nodup_map distinct ((ranking_perm key list).mem_iff.mp aMember)
    (same.mem_iff.mp bMember) (le_antisymm above below)

/-- The greatest element comes first. -/
theorem ranking_cons {best : α} {rest : List α} (distinct : (list.map key).Nodup)
    (split : (best :: rest).Perm list) (greatest : ∀ a ∈ list, key a ≤ key best) :
    ranking key list = best :: ranking key rest := by
  refine ranking_eq distinct (((ranking_perm key rest).cons best).trans split) ?_
  refine List.pairwise_cons.mpr ⟨?_, ranking_pairwise key rest⟩
  intro a member
  have inRest := (ranking_perm key rest).mem_iff.mp member
  exact greatest a (split.mem_iff.mp (List.mem_cons_of_mem best inRest))

/-- Something that is not empty has a greatest entry. -/
theorem exists_greatest (key : α → K) {list : List α} (nonempty : list ≠ []) :
    ∃ best ∈ list, ∀ a ∈ list, key a ≤ key best := by
  have perm := ranking_perm key list
  have pairwise := ranking_pairwise key list
  cases ordered : ranking key list with
  | nil =>
      rw [ordered] at perm
      exact absurd perm.symm.eq_nil nonempty
  | cons best rest =>
      rw [ordered] at perm pairwise
      refine ⟨best, perm.mem_iff.mp List.mem_cons_self, fun a member => ?_⟩
      rcases List.mem_cons.mp (perm.mem_iff.mpr member) with rfl | later
      · exact le_refl _
      · exact (List.pairwise_cons.mp pairwise).1 a later

/-- What is above one of the first is itself among the first. -/
theorem mem_take_ranking_of_le (distinct : (list.map key).Nodup) {m : Nat} {a b : α}
    (first : a ∈ (ranking key list).take m) (member : b ∈ list) (above : key a ≤ key b) :
    b ∈ (ranking key list).take m := by
  have pairwise := ranking_pairwise key list
  have inRanking := (ranking_perm key list).mem_iff.mpr member
  rw [← List.take_append_drop m (ranking key list)] at pairwise inRanking
  rcases List.mem_append.mp inRanking with here | behind
  · exact here
  · have below := (List.pairwise_append.mp pairwise).2.2 a first b behind
    have inList := (ranking_perm key list).mem_iff.mp (List.mem_of_mem_take first)
    rw [← List.inj_on_of_nodup_map distinct inList member (le_antisymm above below)]
    exact first

/-- A part of a list is ranked as the list is. -/
theorem ranking_sublist (distinct : (all.map key).Nodup) (part : kept.Subperm all) :
    (ranking key kept).Sublist (ranking key all) := by
  obtain ⟨ordered, same, sublist⟩ :=
    ((ranking_perm key kept).subperm.trans part).trans (ranking_perm key all).symm.subperm
  have nodup : (kept.map key).Nodup := by
    obtain ⟨chosen, perm, within⟩ := part
    exact (perm.map key).nodup_iff.mp (distinct.sublist (within.map key))
  rw [ranking_eq nodup (same.trans (ranking_perm key kept))
    ((ranking_pairwise key all).sublist sublist)]
  exact sublist

omit [LinearOrder K] in
/-- A sublist that contains the first elements starts with them. -/
theorem take_eq_of_sublist {part whole : List α} (sublist : part.Sublist whole)
    (nodup : whole.Nodup) {m : Nat} (covers : ∀ a ∈ whole.take m, a ∈ part) :
    part.take m = whole.take m := by
  induction sublist generalizing m with
  | slnil => rfl
  | @cons part whole a sublist ih =>
      cases m with
      | zero => rfl
      | succ m =>
          have member := covers a List.mem_cons_self
          exact absurd (sublist.subset member) (List.nodup_cons.mp nodup).1
  | @cons_cons part whole a sublist ih =>
      cases m with
      | zero => rfl
      | succ m =>
          obtain ⟨fresh, rest⟩ := List.nodup_cons.mp nodup
          rw [List.take_succ_cons, List.take_succ_cons, ih rest]
          intro b member
          have inPart := covers b (List.mem_cons_of_mem a member)
          refine (List.mem_cons.mp inPart).resolve_left ?_
          rintro rfl
          exact fresh (List.mem_of_mem_take member)

/-- The first elements of a list are the first elements of any part that has them all. -/
theorem take_ranking_iff (distinct : (all.map key).Nodup) (part : kept.Subperm all) (m : Nat) :
    (ranking key kept).take m = (ranking key all).take m ↔
      ∀ a ∈ (ranking key all).take m, a ∈ kept := by
  constructor
  · intro same a member
    rw [← same] at member
    exact (ranking_perm key kept).mem_iff.mp (List.mem_of_mem_take member)
  · intro covers
    refine take_eq_of_sublist (ranking_sublist distinct part) ?_ ?_
    · exact (ranking_perm key all).nodup_iff.mpr distinct.of_map
    · exact fun a member => (ranking_perm key kept).mem_iff.mpr (covers a member)

end Ranking

end Foundation
