import Mathlib.Data.List.Perm.Basic
import Mathlib.Order.Basic

/-!
# Greedy runs

A greedy procedure offers the best of the candidates that are left, learns whether the offer
is accepted, and goes on with the others. What is best may depend on the offers so far, so
the order of the offers is not that of any one sort.

If an offer never makes the candidates behind it better, the offers come in the order of
their scores all the same (`GreedyRun.nonincreasing`), whatever is accepted.
-/

namespace Foundation

/-- A candidate with the score it was offered at and whether it was accepted. -/
structure Offer (α R : Type) where
  candidate : α
  score : R
  accepted : Bool
deriving DecidableEq

variable {α R : Type} [Preorder R] {score : List (Offer α R) → α → R}

/-- `GreedyRun score earlier left later unoffered`: after the earlier offers, with some
candidates left, the later offers are made and some candidates stay without an offer. -/
inductive GreedyRun (score : List (Offer α R) → α → R) :
    List (Offer α R) → List α → List (Offer α R) → List α → Prop where
  | stop (earlier : List (Offer α R)) (left : List α) : GreedyRun score earlier left [] left
  | next {earlier later : List (Offer α R)} {left rest unoffered : List α} {candidate : α}
      (accepted : Bool) (picked : (candidate :: rest).Perm left)
      (greatest : ∀ other ∈ left, score earlier other ≤ score earlier candidate)
      (run : GreedyRun score (earlier ++ [⟨candidate, score earlier candidate, accepted⟩]) rest
        later unoffered) :
      GreedyRun score earlier left (⟨candidate, score earlier candidate, accepted⟩ :: later)
        unoffered

namespace GreedyRun

variable {earlier later : List (Offer α R)} {left unoffered : List α}

/-- Every candidate is offered once or not at all. -/
theorem perm (run : GreedyRun score earlier left later unoffered) :
    (later.map Offer.candidate ++ unoffered).Perm left := by
  induction run with
  | stop => exact List.Perm.refl _
  | next accepted picked greatest run ih => exact (ih.cons _).trans picked

/-- An offer is made at the score that the offers before it leave, and no candidate that had
no offer before it has a greater one. -/
theorem offered (run : GreedyRun score earlier left later unoffered)
    {before after : List (Offer α R)} {offer : Offer α R} (split : later = before ++ offer :: after) :
    offer.score = score (earlier ++ before) offer.candidate ∧
      ∀ other ∈ left, other ∉ before.map Offer.candidate →
        score (earlier ++ before) other ≤ offer.score := by
  induction run generalizing before with
  | stop =>
      obtain ⟨_, impossible⟩ := List.append_eq_nil_iff.mp split.symm
      cases impossible
  | next accepted picked greatest run ih =>
      cases before with
      | nil =>
          obtain ⟨rfl, rfl⟩ := List.cons.inj split
          rw [List.append_nil]
          exact ⟨rfl, fun other member _ => greatest other member⟩
      | cons first before =>
          obtain ⟨rfl, behind⟩ := List.cons.inj split
          obtain ⟨scored, above⟩ := ih behind
          rw [List.append_assoc] at scored above
          refine ⟨scored, ?_⟩
          intro other member unseen
          rw [List.map_cons, List.mem_cons, not_or] at unseen
          rcases List.mem_cons.mp (picked.mem_iff.mpr member) with seen | others
          · exact absurd seen unseen.1
          · exact above other others unseen.2

/-- Where no offer makes a candidate better, no offer exceeds what the candidates start
from. -/
theorem bounded (run : GreedyRun score earlier left later unoffered)
    (fading : ∀ candidate ∈ left, ∀ earlier offer,
      score (earlier ++ [offer]) candidate ≤ score earlier candidate)
    {bound : R} (above : ∀ candidate ∈ left, score earlier candidate ≤ bound) :
    ∀ offer ∈ later, offer.score ≤ bound := by
  induction run with
  | stop =>
      intro offer member
      cases member
  | @next _ _ left rest _ candidate accepted picked greatest run ih =>
      intro offer member
      rcases List.mem_cons.mp member with rfl | member
      · exact above candidate (picked.mem_iff.mp List.mem_cons_self)
      · have among : ∀ other ∈ rest, other ∈ left :=
          fun other here => picked.mem_iff.mp (List.mem_cons_of_mem _ here)
        apply ih (fun other here => fading other (among other here)) _ offer member
        intro other here
        exact (fading other (among other here) _ _).trans (above other (among other here))

/-- Then the offers come in the order of their scores. -/
theorem nonincreasing (run : GreedyRun score earlier left later unoffered)
    (fading : ∀ candidate ∈ left, ∀ earlier offer,
      score (earlier ++ [offer]) candidate ≤ score earlier candidate) :
    later.Pairwise fun first second => second.score ≤ first.score := by
  induction run with
  | stop => exact List.Pairwise.nil
  | @next _ _ left rest _ candidate accepted picked greatest run ih =>
      have among : ∀ other ∈ rest, other ∈ left :=
        fun other here => picked.mem_iff.mp (List.mem_cons_of_mem _ here)
      have rest := fun other here => fading other (among other here)
      refine List.Pairwise.cons ?_ (ih rest)
      apply run.bounded rest
      intro other here
      exact (rest other here _ _).trans (greatest other (among other here))

end GreedyRun

end Foundation
