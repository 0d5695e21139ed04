import Lrd.Foundation.Machine

/-!
# What a machine gives away

Two runs of a machine are given the same inputs of a public kind, and other inputs in
between that may differ. What an observer sees after a public input may still depend on the
others, through a fact about the state in which the input was met. If the observation
follows from the public inputs and these facts, and every fact shows in the observation as
soon as its input has been taken, then the observer can tell the two runs apart exactly when
the facts differ (`Machine.Discloses.agree_iff`).
-/

namespace Foundation

namespace Machine

variable {σ τ υ ι ω φ : Type}

/-- The facts about the states in which a run meets its public inputs. -/
def facts (machine : Machine σ ι ω) (isPublic : ι → Bool) (fact : σ → ι → φ) :
    σ → List ι → List φ
  | _, [] => []
  | state, input :: rest =>
      if isPublic input then
        fact state input :: machine.facts isPublic fact (machine.step state input).2 rest
      else machine.facts isPublic fact (machine.step state input).2 rest

section Facts

variable (machine : Machine σ ι ω) (isPublic : ι → Bool) (fact : σ → ι → φ)

/-- There is one fact for each public input. -/
theorem length_facts (state : σ) (inputs : List ι) :
    (machine.facts isPublic fact state inputs).length = (inputs.filter isPublic).length := by
  induction inputs generalizing state with
  | nil => rfl
  | cons input rest ih =>
      rw [facts, List.filter_cons]
      split
      · rw [List.length_cons, List.length_cons, ih]
      · exact ih _

/-- The facts of two parts, one after the other. -/
theorem facts_append (state : σ) (earlier later : List ι) :
    machine.facts isPublic fact state (earlier ++ later) =
      machine.facts isPublic fact state earlier ++
        machine.facts isPublic fact (machine.run state earlier).2 later := by
  induction earlier generalizing state with
  | nil => rfl
  | cons input earlier ih =>
      rw [List.cons_append, facts, facts, ih, run_cons]
      split
      · rfl
      · rfl

/-- Where nothing public happens there are no facts. -/
theorem facts_of_quiet {inputs : List ι} (quiet : inputs.filter isPublic = []) (state : σ) :
    machine.facts isPublic fact state inputs = [] := by
  rw [← List.length_eq_zero_iff, length_facts, quiet]
  rfl

end Facts

/-- The observation changes at public inputs only, by what the fact about the state says, and
of two runs that looked alike before a public input and look alike after it, the facts were
the same. -/
structure Discloses (machine : Machine σ ι ω) (isPublic : ι → Bool) (fact : σ → ι → φ)
    (view : σ → τ) (act : τ → ι → φ → τ) (observe : τ → υ) : Prop where
  keeps : ∀ state input, isPublic input = false → view (machine.step state input).2 = view state
  acts : ∀ state input, isPublic input = true →
    view (machine.step state input).2 = act (view state) input (fact state input)
  tells : ∀ state other input, isPublic input = true →
    observe (view state) = observe (view other) →
    observe (view (machine.step state input).2) = observe (view (machine.step other input).2) →
    fact state input = fact other input

variable {first second : List ι}

namespace Discloses

variable {machine : Machine σ ι ω} {isPublic : ι → Bool} {fact : σ → ι → φ} {view : σ → τ}
  {act : τ → ι → φ → τ} {observe : τ → υ}

/-- The view follows from the public inputs and the facts. -/
theorem view_run (discloses : Discloses machine isPublic fact view act observe) (state : σ)
    (inputs : List ι) :
    view (machine.run state inputs).2 =
      ((inputs.filter isPublic).zip (machine.facts isPublic fact state inputs)).foldl
        (fun seen entry => act seen entry.1 entry.2) (view state) := by
  induction inputs generalizing state with
  | nil => rfl
  | cons input rest ih =>
      rw [run_cons, ih, facts, List.filter_cons]
      cases seen : isPublic input with
      | true =>
          rw [discloses.acts state input seen]
          rfl
      | false =>
          rw [discloses.keeps state input seen]
          rfl

/-- Runs with the same public inputs and the same facts look alike. -/
theorem view_eq (discloses : Discloses machine isPublic fact view act observe) {state : σ}
    (same : first.filter isPublic = second.filter isPublic)
    (known : machine.facts isPublic fact state first = machine.facts isPublic fact state second) :
    view (machine.run state first).2 = view (machine.run state second).2 := by
  rw [discloses.view_run, discloses.view_run, same, known]

/-- If an observer can never tell the runs apart, all facts are the same. -/
theorem facts_eq (discloses : Discloses machine isPublic fact view act observe) {state : σ}
    (same : first.filter isPublic = second.filter isPublic)
    (alike : ∀ past other, past <+: first → other <+: second → past.filter isPublic =
      other.filter isPublic → observe (view (machine.run state past).2) =
      observe (view (machine.run state other).2)) :
    machine.facts isPublic fact state first = machine.facts isPublic fact state second := by
  induction first using List.reverseRecOn generalizing second with
  | nil => exact (machine.facts_of_quiet isPublic fact same.symm state).symm
  | append_singleton first input ih =>
      rw [facts_append]
      cases seen : isPublic input with
      | false =>
          have quiet : [input].filter isPublic = [] :=
            List.filter_cons_of_neg (by rw [seen]; exact Bool.false_ne_true)
          rw [List.filter_append, quiet, List.append_nil] at same
          rw [machine.facts_of_quiet isPublic fact quiet, List.append_nil]
          refine ih same fun past other within ahead => ?_
          exact alike past other (within.trans (List.prefix_append ..)) ahead
      | true =>
          -- The other run meets the same input after the same public inputs.
          have last : [input].filter isPublic = [input] := List.filter_cons_of_pos seen
          rw [List.filter_append, last] at same
          obtain ⟨before, after, rfl, earlier, later⟩ := List.filter_eq_append_iff.mp same.symm
          obtain ⟨silent, rest, rfl, unseen, _, nothing⟩ := List.filter_eq_cons_iff.mp later
          have quiet : silent.filter isPublic = [] := List.filter_eq_nil_iff.mpr unseen
          have agreed : (before ++ silent).filter isPublic = first.filter isPublic := by
            rw [List.filter_append, quiet, List.append_nil, earlier]
          have split : before ++ (silent ++ input :: rest) =
              (before ++ silent) ++ ([input] ++ rest) := by
            simp only [List.append_assoc, List.singleton_append]
          rw [split] at alike ⊢
          have known := ih agreed.symm fun past other within ahead =>
            alike past other (within.trans (List.prefix_append ..))
              (ahead.trans (List.prefix_append ..))
          have beforeAlike := alike first (before ++ silent) (List.prefix_append ..)
            (List.prefix_append ..) agreed.symm
          have afterAlike := alike (first ++ [input]) (before ++ silent ++ [input])
            List.prefix_rfl (by rw [← List.append_assoc]; exact List.prefix_append ..)
            (by rw [List.filter_append, List.filter_append, agreed])
          rw [run_snoc, run_snoc] at afterAlike
          have told := discloses.tells _ _ input seen beforeAlike afterAlike
          rw [machine.facts_append isPublic fact state (before ++ silent),
            machine.facts_append isPublic fact _ [input], known,
            machine.facts_of_quiet isPublic fact nothing, List.append_nil]
          simp only [facts, seen, ↓reduceIte, told]

/-- Two runs with the same public inputs look alike after any first parts of them with the
same public inputs if and only if the facts of the runs are the same. -/
theorem agree_iff (discloses : Discloses machine isPublic fact view act observe) {state : σ}
    (same : first.filter isPublic = second.filter isPublic) :
    (∀ past other, past <+: first → other <+: second →
        past.filter isPublic = other.filter isPublic →
        observe (view (machine.run state past).2) = observe (view (machine.run state other).2)) ↔
      machine.facts isPublic fact state first = machine.facts isPublic fact state second := by
  refine ⟨discloses.facts_eq same, fun known past other within ahead equal => ?_⟩
  obtain ⟨rest, rfl⟩ := within
  obtain ⟨more, rfl⟩ := ahead
  rw [facts_append, facts_append] at known
  have lengths : (machine.facts isPublic fact state past).length =
      (machine.facts isPublic fact state other).length := by
    rw [length_facts, length_facts, equal]
  exact congrArg observe (discloses.view_eq equal (List.append_inj known lengths).1)

end Discloses

end Machine

end Foundation
