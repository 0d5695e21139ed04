import Mathlib.Data.List.Induction

/-!
# Machines that answer

A machine takes inputs one after another, answers each and changes its state. A run
keeps the transcript of inputs with their answers, so that a property may speak of
the state and of everything that happened (`Machine.run_invariant`). Two machines
that answer alike and stay related have the same transcript (`Machine.run_simulates`).

A machine may be made of parts that do not influence each other, each input being
addressed to one of them or to all (`Machine.Splits`). Then every part behaves as if
it had been given its own inputs only.
-/

namespace Foundation

/-- A step from a state and an input to an answer and the next state. -/
structure Machine (σ ι ω : Type) where
  step : σ → ι → ω × σ

namespace Machine

variable {σ τ ι ω : Type}

/-- The transcript and the state after a list of inputs. -/
def run (machine : Machine σ ι ω) (state : σ) (inputs : List ι) : List (ι × ω) × σ :=
  inputs.foldl (fun sofar input =>
    (sofar.1 ++ [(input, (machine.step sofar.2 input).1)], (machine.step sofar.2 input).2))
    ([], state)

/-- One more input. -/
theorem run_snoc (machine : Machine σ ι ω) (state : σ) (inputs : List ι) (input : ι) :
    machine.run state (inputs ++ [input]) =
      ((machine.run state inputs).1 ++
          [(input, (machine.step (machine.run state inputs).2 input).1)],
        (machine.step (machine.run state inputs).2 input).2) := by
  rw [run, List.foldl_append]
  rfl

/-- A run in two parts. -/
theorem run_append (machine : Machine σ ι ω) (state : σ) (earlier later : List ι) :
    machine.run state (earlier ++ later) =
      ((machine.run state earlier).1 ++ (machine.run (machine.run state earlier).2 later).1,
        (machine.run (machine.run state earlier).2 later).2) := by
  induction later using List.reverseRecOn with
  | nil =>
      rw [List.append_nil]
      exact Prod.ext (List.append_nil _).symm rfl
  | append_singleton later input ih =>
      rw [← List.append_assoc, run_snoc, ih, run_snoc, List.append_assoc]

/-- The first input. -/
theorem run_cons (machine : Machine σ ι ω) (state : σ) (input : ι) (later : List ι) :
    machine.run state (input :: later) =
      ((input, (machine.step state input).1) :: (machine.run (machine.step state input).2 later).1,
        (machine.run (machine.step state input).2 later).2) :=
  run_append machine state [input] later

variable {machine : Machine σ ι ω}

/-- What every step preserves holds after every run. -/
theorem run_invariant {state : σ} (invariant : List (ι × ω) → σ → Prop) (start : invariant [] state)
    (preserved : ∀ transcript current input, invariant transcript current →
      invariant (transcript ++ [(input, (machine.step current input).1)])
      (machine.step current input).2) (inputs : List ι) :
    invariant (machine.run state inputs).1 (machine.run state inputs).2 := by
  induction inputs using List.reverseRecOn with
  | nil => exact start
  | append_singleton inputs input ih =>
      rw [run_snoc]
      exact preserved _ _ input ih

/-- Machines that answer alike in related states, and stay related, have the same
transcripts. -/
theorem run_simulates {reference : Machine τ ι ω} (related : σ → τ → Prop)
    (simulates : ∀ state other input, related state other → (machine.step state input).1 =
      (reference.step other input).1 ∧ related (machine.step state input).2
      (reference.step other input).2) {state : σ} {other : τ} (start : related state other)
    (inputs : List ι) :
    (machine.run state inputs).1 = (reference.run other inputs).1 ∧
      related (machine.run state inputs).2 (reference.run other inputs).2 := by
  induction inputs using List.reverseRecOn with
  | nil => exact ⟨rfl, start⟩
  | append_singleton inputs input ih =>
      obtain ⟨transcripts, still⟩ := ih
      obtain ⟨answers, next⟩ := simulates _ _ input still
      rw [run_snoc, run_snoc, transcripts, answers]
      exact ⟨rfl, next⟩

/-- Machines given the same inputs stay related if every input keeps them related, whatever
they answer. -/
theorem run_relates {υ : Type} {other : Machine τ ι υ} (related : σ → τ → Prop)
    (kept : ∀ left right input, related left right →
      related (machine.step left input).2 (other.step right input).2) {left : σ} {right : τ}
    (start : related left right) (inputs : List ι) :
    related (machine.run left inputs).2 (other.run right inputs).2 := by
  induction inputs using List.reverseRecOn with
  | nil => exact start
  | append_singleton inputs input ih =>
      rw [run_snoc, run_snoc]
      exact kept _ _ input ih

/-- A part of the state that some inputs act on and the others leave alone depends on
the inputs that matter only. -/
theorem run_view (machine : Machine σ ι ω) (view : σ → τ) (act : τ → ι → τ) (matters : ι → Bool)
    (acts : ∀ state input, matters input = true →
      view (machine.step state input).2 = act (view state) input)
    (keeps : ∀ state input, matters input = false → view (machine.step state input).2 = view state)
    (state : σ) (inputs : List ι) :
    view (machine.run state inputs).2 = (inputs.filter matters).foldl act (view state) := by
  induction inputs using List.reverseRecOn with
  | nil => rfl
  | append_singleton inputs input ih =>
      rw [run_snoc, List.filter_append, List.foldl_append, ← ih]
      cases meant : matters input with
      | true =>
          rw [acts _ _ meant, List.filter_cons_of_pos meant]
          rfl
      | false =>
          rw [keeps _ _ meant, List.filter_cons_of_neg (by rw [meant]; exact Bool.false_ne_true)]
          rfl

/-- Inputs that nobody looks at may be left out of a run if they keep it related to the run
without them, while the others are answered alike. -/
theorem run_omits (wanted : ι × ω → Bool) (related : List ι → σ → σ → Prop) {inputs : List ι}
    (follows : ∀ before input, before ++ [input] <+: inputs → ∀ state other,
      related before state other → (wanted (input, (machine.step state input).1) = true →
      (machine.step other input).1 = (machine.step state input).1 ∧
      related (before ++ [input]) (machine.step state input).2 (machine.step other input).2) ∧
      (wanted (input, (machine.step state input).1) = false →
      related (before ++ [input]) (machine.step state input).2 other)) {state other : σ}
    (start : related [] state other) :
    let kept := (machine.run state inputs).1.filter wanted
    (machine.run other (kept.map Prod.fst)).1 = kept ∧
      related inputs (machine.run state inputs).2 (machine.run other (kept.map Prod.fst)).2 := by
  induction inputs using List.reverseRecOn with
  | nil => exact ⟨rfl, start⟩
  | append_singleton inputs input ih =>
      intro kept
      obtain ⟨transcripts, still⟩ := ih fun before earlier within =>
        follows before earlier (within.trans (List.prefix_append inputs [input]))
      obtain ⟨same, silent⟩ := follows inputs input List.prefix_rfl _ _ still
      have split : kept = (machine.run state inputs).1.filter wanted ++
          [(input, (machine.step (machine.run state inputs).2 input).1)].filter wanted := by
        change (machine.run state (inputs ++ [input])).1.filter wanted = _
        rw [run_snoc, List.filter_append]
      rw [split, List.map_append, run_snoc]
      cases looked : wanted (input, (machine.step (machine.run state inputs).2 input).1) with
      | true =>
          obtain ⟨answers, next⟩ := same looked
          rw [List.filter_cons_of_pos looked, List.filter_nil, List.map_singleton, run_snoc,
            transcripts, answers]
          exact ⟨rfl, next⟩
      | false =>
          rw [List.filter_cons_of_neg (by rw [looked]; exact Bool.false_ne_true), List.filter_nil,
            List.map_nil, List.append_nil, List.append_nil]
          exact ⟨transcripts, silent looked⟩

/-- A run records its inputs. -/
theorem run_inputs (machine : Machine σ ι ω) (state : σ) (inputs : List ι) :
    (machine.run state inputs).1.map Prod.fst = inputs := by
  induction inputs using List.reverseRecOn with
  | nil => rfl
  | append_singleton inputs input ih =>
      rw [run_snoc, List.map_append, ih]
      rfl

/-- A kind of input that is answered alike in related states may be given alone, if the
other inputs keep states related. -/
theorem run_filter (wanted : ι → Bool) (related : σ → σ → Prop)
    (answers : ∀ state other input, related state other → wanted input = true →
      (machine.step other input).1 = (machine.step state input).1 ∧
      related (machine.step state input).2 (machine.step other input).2)
    (silent : ∀ state other input, related state other → wanted input = false →
      related (machine.step state input).2 other) {state other : σ} (start : related state other)
    (inputs : List ι) :
    (machine.run other (inputs.filter wanted)).1 =
      (machine.run state inputs).1.filter fun entry => wanted entry.1 := by
  have kept : ((machine.run state inputs).1.filter fun entry => wanted entry.1).map Prod.fst =
      inputs.filter wanted := by
    have filtered := List.filter_map (f := Prod.fst) (p := wanted) (l := (machine.run state inputs).1)
    rw [run_inputs] at filtered
    exact filtered.symm
  rw [← kept]
  refine (run_omits (fun entry => wanted entry.1) (fun _ => related) ?_ start).1
  intro _ input _ state other agree
  exact ⟨answers state other input agree, silent state other input agree⟩

/-! ## Machines made of parts -/

section Parts

variable {α : Type} [DecidableEq α]

/-- The input goes to the part, or to all parts. -/
def concerns (address : ι → Option α) (index : α) (input : ι) : Bool :=
  match address input with
  | none => true
  | some other => other = index

/-- The whole acts part by part: an input changes the part it is addressed to and is
answered by it, or changes all parts, which then agree on the answer. -/
structure Splits (whole : Machine σ ι ω) (one : Machine τ ι ω) (address : ι → Option α)
    (part : σ → α → τ) : Prop where
  concerned : ∀ state input index, concerns address index input = true →
    (whole.step state input).1 = (one.step (part state index) input).1 ∧
      part (whole.step state input).2 index = (one.step (part state index) input).2
  others : ∀ state input index, concerns address index input = false →
    part (whole.step state input).2 index = part state index

variable {whole : Machine σ ι ω} {one : Machine τ ι ω} {address : ι → Option α}
  {part : σ → α → τ}

/-- Every part behaves as if it had been given its own inputs only. -/
theorem Splits.run (splits : Splits whole one address part) (state : σ) (inputs : List ι)
    (index : α) :
    (whole.run state inputs).1.filter (fun entry => concerns address index entry.1) =
        (one.run (part state index) (inputs.filter (concerns address index))).1 ∧
      part (whole.run state inputs).2 index =
        (one.run (part state index) (inputs.filter (concerns address index))).2 := by
  induction inputs using List.reverseRecOn with
  | nil => exact ⟨rfl, rfl⟩
  | append_singleton inputs input ih =>
      obtain ⟨transcripts, states⟩ := ih
      rw [run_snoc, List.filter_append, List.filter_append, transcripts]
      cases meant : concerns address index input with
      | true =>
          obtain ⟨answers, next⟩ := splits.concerned (whole.run state inputs).2 input index meant
          simp only [List.filter_cons, meant, ↓reduceIte, List.filter_nil, run_snoc, ← states,
            answers, next, and_self]
      | false =>
          have kept := splits.others (whole.run state inputs).2 input index meant
          simp only [List.filter_cons, meant, Bool.false_eq_true, ↓reduceIte, List.filter_nil,
            List.append_nil, kept, states, and_self]

/-- Inputs to different parts may be exchanged: they are answered alike in either
order and leave every part the same. -/
theorem Splits.commute (splits : Splits whole one address part) (state : σ) {first second : ι}
    {left right : α} (toLeft : address first = some left) (toRight : address second = some right)
    (different : left ≠ right) :
    (whole.step (whole.step state second).2 first).1 = (whole.step state first).1 ∧
      (whole.step (whole.step state first).2 second).1 = (whole.step state second).1 ∧
      ∀ index, part (whole.step (whole.step state first).2 second).2 index =
        part (whole.step (whole.step state second).2 first).2 index := by
  have meant : ∀ {input : ι} {own index : α}, address input = some own →
      concerns address index input = decide (own = index) := by
    intro input own index addressed
    simp only [concerns, addressed]
  have atLeft : ∀ state, part (whole.step state second).2 left = part state left := fun state =>
    splits.others state second left (by rw [meant toRight, decide_eq_false different.symm])
  have atRight : ∀ state, part (whole.step state first).2 right = part state right := fun state =>
    splits.others state first right (by rw [meant toLeft, decide_eq_false different])
  have onFirst := fun state => splits.concerned state first left (by
    rw [meant toLeft, decide_eq_true rfl])
  have onSecond := fun state => splits.concerned state second right (by
    rw [meant toRight, decide_eq_true rfl])
  refine ⟨?_, ?_, ?_⟩
  · rw [(onFirst _).1, (onFirst _).1, atLeft]
  · rw [(onSecond _).1, (onSecond _).1, atRight]
  · intro index
    by_cases isLeft : index = left
    · subst isLeft
      rw [atLeft, (onFirst _).2, (onFirst _).2, atLeft]
    by_cases isRight : index = right
    · subst isRight
      rw [(onSecond _).2, atRight, atRight, (onSecond _).2]
    · have notFirst : concerns address index first = false := by
        rw [meant toLeft, decide_eq_false (Ne.symm isLeft)]
      have notSecond : concerns address index second = false := by
        rw [meant toRight, decide_eq_false (Ne.symm isRight)]
      rw [splits.others _ second index notSecond, splits.others _ first index notFirst,
        splits.others _ first index notFirst, splits.others _ second index notSecond]

end Parts

end Machine

end Foundation
