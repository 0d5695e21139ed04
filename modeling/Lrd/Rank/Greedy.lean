import Lrd.Foundation.Program
import Lrd.Rank.Retrieval
import Mathlib.Order.OrderDual

/-!
# What the greedy pass does

A round of the selection loop picks one untaken candidate and takes it
(`pick_cases`), so candidates are offered to `accept` at most once and the loop
ends. The facts about whole runs of the loop are: more rounds change nothing
(`selectLoop_fuel`), which ids are offered and which are returned
(`traces_selectLoop`), and how many are returned when `accept` has no effects
(`length_selectLoop`).
-/

namespace Lrd.Rank.CandidateSelector

open Foundation

variable {D : Type}

/-- The candidates not yet taken, in slot order. -/
def untaken (slots : List (Candidate D × Bool)) : List (Candidate D) :=
  (slots.filter fun slot => !slot.2).map Prod.fst

@[simp] theorem untaken_cons_taken (candidate : Candidate D) (slots : List (Candidate D × Bool)) :
    untaken ((candidate, true) :: slots) = untaken slots := rfl

@[simp] theorem untaken_cons_free (candidate : Candidate D) (slots : List (Candidate D × Bool)) :
    untaken ((candidate, false) :: slots) = candidate :: untaken slots := rfl

theorem untaken_append (first second : List (Candidate D × Bool)) :
    untaken (first ++ second) = untaken first ++ untaken second := by
  rw [untaken, List.filter_append, List.map_append]
  rfl

/-- At first all slots are free. -/
@[simp] theorem untaken_start (shortlist : List (Candidate D)) :
    untaken (Selection.start shortlist).slots = shortlist := by
  induction shortlist with
  | nil => rfl
  | cons candidate shortlist ih => exact congrArg (candidate :: ·) ih

variable {slots : List (Candidate D × Bool)} {index : Nat} {best : Best D} {m : Type → Type}

/-- Marking a free slot removes its candidate from the untaken ones. -/
theorem untaken_set {candidate : Candidate D} (found : slots[index]? = some (candidate, false)) :
    (candidate :: untaken (slots.set index (candidate, true))).Perm (untaken slots) := by
  obtain ⟨inside, here⟩ := List.getElem?_eq_some_iff.mp found
  have split : slots = slots.take index ++ (candidate, false) :: slots.drop (index + 1) := by
    rw [← here, List.getElem_cons_drop, List.take_append_drop]
  rw [List.set_eq_take_append_cons_drop, if_pos inside, untaken_append, untaken_cons_taken]
  conv_rhs => rw [split, untaken_append, untaken_cons_free]
  exact List.perm_middle.symm

/-! ## The scan -/

variable [Scalar D]

/-- A scan returns the leader it started with or a free slot it came across. -/
theorem scan_cases {score : Candidate D → D} {leader : Option (Best D)}
    (result : scan score slots index leader = some best) :
    leader = some best ∨ ∃ offset, best.index = index + offset ∧
      slots[offset]? = some (best.candidate, false) ∧ best.adjusted = score best.candidate := by
  induction slots generalizing index leader with
  | nil => exact Or.inl result
  | cons slot slots ih =>
      obtain ⟨candidate, taken⟩ := slot
      have later : ∀ {offset : Nat}, best.index = index + 1 + offset →
          slots[offset]? = some (best.candidate, false) →
          best.adjusted = score best.candidate → ∃ offset, best.index = index + offset ∧
            ((candidate, taken) :: slots)[offset]? = some (best.candidate, false) ∧
              best.adjusted = score best.candidate := by
        intro offset position found scored
        exact ⟨offset + 1, by omega, by rw [List.getElem?_cons_succ]; exact found, scored⟩
      unfold scan at result
      split at result
      · rcases ih result with same | ⟨offset, position, found, scored⟩
        · exact Or.inl same
        · exact Or.inr (later position found scored)
      · rename_i free
        have isFree : taken = false := Bool.eq_false_iff.mpr free
        split at result
        · rcases ih result with same | ⟨offset, position, found, scored⟩
          · cases same
            exact Or.inr ⟨0, rfl, by rw [isFree]; rfl, rfl⟩
          · exact Or.inr (later position found scored)
        · rcases ih result with same | ⟨offset, position, found, scored⟩
          · exact Or.inl same
          · exact Or.inr (later position found scored)

/-- A scan that has a leader or meets a free slot finds something. -/
theorem scan_isSome {score : Candidate D → D} {leader : Option (Best D)}
    (present : leader.isSome ∨ untaken slots ≠ []) :
    (scan score slots index leader).isSome := by
  induction slots generalizing index leader with
  | nil => exact present.resolve_right (fun other => other rfl)
  | cons slot slots ih =>
      obtain ⟨candidate, taken⟩ := slot
      unfold scan
      split
      · rename_i isTaken
        subst isTaken
        exact ih present
      · split
        · exact ih (Or.inl rfl)
        · rename_i behind
          cases leader with
          | none => exact absurd rfl behind
          | some best => exact ih (Or.inl rfl)

/-- The candidate a round of the loop picks. -/
def pick (query : Query D) (selection : Selection D) : Option (Best D) :=
  scan (adjusted query.config selection) selection.slots 0 none

/-- What a round picks is untaken, has its adjusted score and is taken. -/
theorem pick_some {query : Query D} {selection : Selection D} {best : Best D}
    (picked : pick query selection = some best) :
    best.adjusted = adjusted query.config selection best.candidate ∧
      (best.candidate :: untaken (selection.take best).slots).Perm (untaken selection.slots) := by
  rcases scan_cases picked with absurdLeader | ⟨offset, position, found, scored⟩
  · cases absurdLeader
  · rw [Nat.zero_add] at position
    rw [← position] at found
    exact ⟨scored, untaken_set found⟩

/-- A round finds nothing untaken, or picks an untaken candidate with its adjusted
score and takes it. -/
theorem pick_cases (query : Query D) (selection : Selection D) :
    (pick query selection = none ∧ untaken selection.slots = []) ∨
      ∃ best, pick query selection = some best ∧
        best.adjusted = adjusted query.config selection best.candidate ∧
        (best.candidate :: untaken (selection.take best).slots).Perm (untaken selection.slots) := by
  cases picked : pick query selection with
  | none =>
      refine Or.inl ⟨rfl, ?_⟩
      by_contra present
      have found : (pick query selection).isSome := scan_isSome (Or.inr present)
      rw [picked] at found
      cases found
  | some best => exact Or.inr ⟨best, rfl, pick_some picked⟩

/-- One round of the loop. -/
theorem selectLoop_succ [Monad m] (query : Query D) (accept : Option (ItemId → m Bool)) (fuel : Nat)
    (selection : Selection D) :
    selectLoop query accept (fuel + 1) selection =
      if selection.chosen.length < query.count.toNat then
        match pick query selection with
        | none => pure selection.chosen
        | some best => do
            let accepted ← consult accept best.candidate.id
            if accepted then selectLoop query accept fuel ((selection.take best).choose best)
            else selectLoop query accept fuel (selection.take best)
      else pure selection.chosen := rfl

/-- The selection after the gate has answered for the round's pick. -/
def Selection.answered (selection : Selection D) (best : Best D) (accepted : Bool) :
    Selection D :=
  if accepted then (selection.take best).choose best else selection.take best

omit [Scalar D] in
theorem untaken_answered (selection : Selection D) (best : Best D) (accepted : Bool) :
    untaken (selection.answered best accepted).slots = untaken (selection.take best).slots := by
  cases accepted <;> rfl

/-- One round of the loop, with the answer put into the state. -/
theorem selectLoop_answered [Monad m] (query : Query D) (accept : Option (ItemId → m Bool))
    (fuel : Nat) (selection : Selection D) :
    selectLoop query accept (fuel + 1) selection =
      if selection.chosen.length < query.count.toNat then
        match pick query selection with
        | none => pure selection.chosen
        | some best => do
            let accepted ← consult accept best.candidate.id
            selectLoop query accept fuel (selection.answered best accepted)
      else pure selection.chosen := by
  rw [selectLoop_succ]
  cases pick query selection with
  | none => rfl
  | some best =>
      have same : ∀ accepted : Bool,
          (if accepted then selectLoop query accept fuel ((selection.take best).choose best)
            else selectLoop query accept fuel (selection.take best)) =
          selectLoop query accept fuel (selection.answered best accepted) := by
        intro accepted
        cases accepted <;> rfl
      simp only [same]

/-- One more round than there are untaken candidates changes nothing. -/
theorem selectLoop_fuel [Monad m] (query : Query D) (accept : Option (ItemId → m Bool)) (fuel : Nat)
    (selection : Selection D) (enough : (untaken selection.slots).length ≤ fuel) :
    selectLoop query accept (fuel + 1) selection = selectLoop query accept fuel selection := by
  induction fuel generalizing selection with
  | zero =>
      have nothing : untaken selection.slots = [] := List.eq_nil_of_length_eq_zero (by omega)
      rw [selectLoop_succ]
      rcases pick_cases query selection with ⟨picked, _⟩ | ⟨best, _, _, perm⟩
      · rw [picked]
        split <;> rfl
      · rw [nothing] at perm
        exact absurd perm.length_eq (by simp)
  | succ fuel ih =>
      rw [selectLoop_succ, selectLoop_succ query accept fuel]
      rcases pick_cases query selection with ⟨picked, _⟩ | ⟨best, picked, _, perm⟩
      · rw [picked]
      · have smaller : (untaken (selection.take best).slots).length ≤ fuel := by
          have sizes := perm.length_eq
          rw [List.length_cons] at sizes
          omega
        simp only [picked, ih (selection.take best) smaller,
          ih ((selection.take best).choose best) smaller]

/-- The two early exits of `select` are what the loop does anyway. -/
theorem select_eq [Monad m] {query : Query D} (selector : CandidateSelector query)
    (accept : Option (ItemId → m Bool)) :
    selector.select accept =
      selectLoop query accept selector.shortlist.length (Selection.start selector.shortlist) := by
  unfold select
  split
  · rename_i early
    rw [Bool.or_eq_true, decide_eq_true_eq, List.isEmpty_iff] at early
    cases size : selector.shortlist.length with
    | zero => rfl
    | succ fuel =>
        rcases early with none | empty
        · rw [selectLoop_succ, none]
          rfl
        · rw [empty] at size
          cases size
  · rfl

/-! ## Whole runs of the loop -/

section Gate

variable {S : Signature} (ask : ItemId → S.Op) (answers : (id : ItemId) → S.Answer (ask id) → Bool)

/-- A gate that performs one operation per candidate and judges its answer. -/
def gate (id : ItemId) : Program S Bool := do
  let answer ← Program.call (ask id)
  pure (answers id answer)

/-- The operations of a trace are offers of distinct untaken candidates, and the
slate grows by the accepted ones in the order of the offers. -/
def Offers (selection : Selection D) (trace : List (Event S)) (slate : List (RankedItem D)) :
    Prop :=
  ∃ offers : List ((id : ItemId) × S.Answer (ask id)),
    trace = offers.map (fun offer => Event.mk (ask offer.1) offer.2) ∧
    (offers.map Sigma.fst).Subperm ((untaken selection.slots).map Candidate.id) ∧
    slate.map RankedItem.id = selection.chosen.map RankedItem.id ++
      (offers.filter fun offer => answers offer.1 offer.2).map Sigma.fst

variable {ask answers}

omit [Scalar D] in
theorem Offers.stop (selection : Selection D) : Offers ask answers selection [] selection.chosen :=
  ⟨[], rfl, List.nil_subperm, by simp⟩

omit [Scalar D] in
/-- A candidate that was offered, and what follows. -/
theorem Offers.answered {selection : Selection D} {trace : List (Event S)}
    {slate : List (RankedItem D)} {answer : S.Answer (ask best.candidate.id)}
    (offers : Offers ask answers (selection.answered best (answers best.candidate.id answer)) trace
      slate)
    (perm : (best.candidate :: untaken (selection.take best).slots).Perm (untaken selection.slots)) :
    Offers ask answers selection (⟨ask best.candidate.id, answer⟩ :: trace) slate := by
  obtain ⟨offers, performed, fresh, returned⟩ := offers
  rw [untaken_answered] at fresh
  refine ⟨⟨best.candidate.id, answer⟩ :: offers, ?_, ?_, ?_⟩
  · rw [performed, List.map_cons]
  · exact ((List.subperm_cons _).mpr fresh).trans (perm.map Candidate.id).subperm
  · cases verdict : answers best.candidate.id answer with
    | false => simp [returned, verdict, Selection.answered, Selection.take]
    | true => simp [returned, verdict, Selection.answered, Selection.choose, Selection.take]

/-- Whatever the answers, a run of the loop offers each candidate at most once and
returns exactly the accepted ones. -/
theorem traces_selectLoop (query : Query D) (fuel : Nat) (selection : Selection D) :
    (selectLoop query (some (gate ask answers)) fuel selection).Traces
      (Offers ask answers selection) := by
  induction fuel generalizing selection with
  | zero => exact Offers.stop selection
  | succ fuel ih =>
      rw [selectLoop_answered]
      split
      · rcases pick_cases query selection with ⟨picked, _⟩ | ⟨best, picked, _, perm⟩
        · rw [picked]
          exact Offers.stop selection
        · rw [picked]
          intro answer
          exact (ih _).mono fun trace slate offers => offers.answered perm
      · exact Offers.stop selection

/-- The loop performs no operations but the gate's. -/
theorem uses_selectLoop {allowed : S.Op → Prop} (query : Query D)
    {accept : ItemId → Program S Bool} (uses : ∀ id, (accept id).Uses allowed) (fuel : Nat)
    (selection : Selection D) :
    (selectLoop query (some accept) fuel selection).Uses allowed := by
  induction fuel generalizing selection with
  | zero => trivial
  | succ fuel ih =>
      rw [selectLoop_answered]
      split
      · cases pick query selection with
        | none => trivial
        | some best => exact Program.uses_bind (uses best.candidate.id) fun _ => ih _
      · trivial

end Gate

/-- Whatever the gate does, the slate grows by copies of distinct untaken candidates and
not beyond the count. -/
theorem traces_selectLoop_drawn {S : Signature} (query : Query D)
    (accept : ItemId → Program S Bool) (fuel : Nat) (selection : Selection D) :
    (selectLoop query (some accept) fuel selection).Traces fun _ slate =>
      ∃ drawn : List (Candidate D), drawn.Subperm (untaken selection.slots) ∧
        slate.map RankedItem.label =
          selection.chosen.map RankedItem.label ++ drawn.map Candidate.label ∧
        slate.length ≤ max selection.chosen.length query.count.toNat := by
  induction fuel generalizing selection with
  | zero => exact ⟨[], List.nil_subperm, (List.append_nil _).symm, le_max_left ..⟩
  | succ fuel ih =>
      rw [selectLoop_answered]
      split
      · rename_i short
        rcases pick_cases query selection with ⟨picked, _⟩ | ⟨best, picked, _, perm⟩
        · rw [picked]
          exact ⟨[], List.nil_subperm, (List.append_nil _).symm, le_max_left ..⟩
        · rw [picked]
          change (accept best.candidate.id >>= fun accepted =>
            selectLoop query (some accept) fuel (selection.answered best accepted)).Traces _
          rw [Program.traces_bind]
          refine Program.traces_of_all _ fun trace accepted => (ih _).mono ?_
          rintro later slate ⟨drawn, fresh, copies, bounded⟩
          rw [untaken_answered] at fresh
          cases accepted with
          | true =>
              refine ⟨best.candidate :: drawn, ?_, ?_, ?_⟩
              · exact ((List.subperm_cons _).mpr fresh).trans perm.subperm
              · rw [copies]
                simp [Selection.answered, Selection.choose, Selection.take, RankedItem.label,
                  Candidate.label]
              · refine bounded.trans (max_le ?_ (le_max_right ..))
                simp only [Selection.answered, Selection.choose, Selection.take, ↓reduceIte,
                  List.length_append, List.length_singleton]
                exact le_max_of_le_right short
          | false =>
              refine ⟨drawn, ?_, copies, bounded⟩
              exact (fresh.trans (List.sublist_cons_self _ _).subperm).trans perm.subperm
      · exact ⟨[], List.nil_subperm, (List.append_nil _).symm, le_max_left ..⟩

/-- A gate that answers without effects: the slate is as long as the count asks for
or as there are acceptable candidates. -/
theorem length_selectLoop (query : Query D) (accept : ItemId → Bool) (fuel : Nat)
    (selection : Selection D) (enough : (untaken selection.slots).length ≤ fuel)
    (within : selection.chosen.length ≤ query.count.toNat) :
    (selectLoop (m := Id) query (some accept) fuel selection).length =
      min query.count.toNat (selection.chosen.length +
        (untaken selection.slots).countP fun candidate => accept candidate.id) := by
  induction fuel generalizing selection with
  | zero =>
      have nothing : untaken selection.slots = [] := List.eq_nil_of_length_eq_zero (by omega)
      rw [nothing, List.countP_nil, Nat.add_zero, Nat.min_eq_right within]
      rfl
  | succ fuel ih =>
      rw [selectLoop_succ]
      split
      · rename_i room
        rcases pick_cases query selection with ⟨picked, nothing⟩ | ⟨best, picked, _, perm⟩
        · rw [picked, nothing, List.countP_nil, Nat.add_zero, Nat.min_eq_right within]
          rfl
        · have sizes := perm.length_eq
          rw [List.length_cons] at sizes
          rw [picked, ← perm.countP_eq]
          change (if accept best.candidate.id then _ else _ : Id (List (RankedItem D))).length = _
          split
          · rename_i verdict
            have grown : ((selection.take best).choose best).chosen.length =
                selection.chosen.length + 1 := List.length_append
            rw [List.countP_cons, if_pos verdict, ih]
            · rw [grown, Nat.add_assoc, Nat.add_comm 1]
              rfl
            · exact (by omega : (untaken (selection.take best).slots).length ≤ fuel)
            · rw [grown]
              omega
          · rename_i verdict
            rw [List.countP_cons, if_neg verdict, ih]
            · rfl
            · omega
            · exact within
      · rename_i full
        have exact : selection.chosen.length = query.count.toNat := by omega
        change selection.chosen.length = _
        omega

/-- What has been chosen stays at the front of the slate. -/
theorem chosen_prefix_selectLoop (query : Query D) (accept : ItemId → Bool) (fuel : Nat)
    (selection : Selection D) :
    selection.chosen <+: selectLoop (m := Id) query (some accept) fuel selection := by
  induction fuel generalizing selection with
  | zero => exact List.prefix_refl _
  | succ fuel ih =>
      rw [selectLoop_answered]
      split
      · cases pick query selection with
        | none => exact List.prefix_refl _
        | some best =>
            refine List.IsPrefix.trans ?_ (ih (selection.answered best (accept best.candidate.id)))
            cases accept best.candidate.id with
            | true => exact List.prefix_append _ _
            | false => exact List.prefix_refl _
      · exact List.prefix_refl _

end Lrd.Rank.CandidateSelector
