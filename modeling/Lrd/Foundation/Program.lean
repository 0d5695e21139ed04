import Mathlib.Logic.Basic

/-!
# Programs over atomic operations

A `Program` is the code of one thread: it performs operations of a signature one
at a time and continues according to each answer. The operations are atomic;
what they do to a shared state is fixed elsewhere, either by running one program
alone (`Program.run`) or by interleaving many (`Foundation.System`).

A property of everything a program may do, whatever answers it gets, is stated
by `Program.Traces` over its complete traces of performed operations, and is
proved one operation at a time (`Program.traces_bind`).
-/

namespace Foundation

/-- The operations a program may perform and the type of each answer. -/
structure Signature where
  Op : Type
  Answer : Op → Type

/-- A performed operation with the answer it got. -/
structure Event (S : Signature) where
  op : S.Op
  answer : S.Answer op

/-- The code of a thread over the operations of a signature. -/
inductive Program (S : Signature) (α : Type) where
  | done (value : α)
  | perform (op : S.Op) (next : S.Answer op → Program S α)

namespace Program

variable {S : Signature} {α β γ σ : Type}

/-- One program after another. -/
def bind : Program S α → (α → Program S β) → Program S β
  | done value, next => next value
  | perform op rest, next => perform op fun answer => (rest answer).bind next

instance : Monad (Program S) where
  pure := done
  bind := bind

/-- Perform one operation and return its answer. -/
def call (op : S.Op) : Program S (S.Answer op) := perform op done

@[simp] theorem pure_eq (value : α) : (pure value : Program S α) = done value := rfl

@[simp] theorem perform_bind (op : S.Op) (rest : S.Answer op → Program S α)
    (next : α → Program S β) :
    (perform op rest >>= next) = perform op fun answer => rest answer >>= next := rfl

theorem bind_done (program : Program S α) : (program >>= done) = program := by
  induction program with
  | done value => rfl
  | perform op rest ih => exact congrArg (perform op) (funext ih)

/-- Programs in sequence, bracketed either way. -/
theorem bind_bind (program : Program S α) (next : α → Program S β) (last : β → Program S γ) :
    (program >>= next >>= last) = (program >>= fun value => next value >>= last) := by
  induction program with
  | done value => rfl
  | perform op rest ih => exact congrArg (perform op) (funext ih)

instance : LawfulMonad (Program S) :=
  LawfulMonad.mk' (Program S) bind_done (fun _ _ => rfl) bind_bind

/-! ## Running one program alone -/

/-- Execute a program against a state that answers every operation. -/
def run (semantics : (op : S.Op) → σ → S.Answer op × σ) : Program S α → σ → α × σ
  | done value, state => (value, state)
  | perform op next, state =>
      (next (semantics op state).1).run semantics (semantics op state).2

variable (semantics : (op : S.Op) → σ → S.Answer op × σ)

@[simp] theorem run_perform (op : S.Op) (next : S.Answer op → Program S α) (state : σ) :
    (perform op next).run semantics state =
      (next (semantics op state).1).run semantics (semantics op state).2 := rfl

/-- Running a sequence runs its parts one after the other. -/
theorem run_bind (program : Program S α) (next : α → Program S β) (state : σ) :
    (program >>= next).run semantics state =
      (next (program.run semantics state).1).run semantics (program.run semantics state).2 := by
  induction program generalizing state with
  | done value => rfl
  | perform op rest ih =>
      simp only [perform_bind, run_perform]
      exact ih _ _

/-! ## Complete traces -/

/-- Every complete trace of the program, paired with the value it returns,
satisfies the postcondition, whatever the answers. -/
def Traces : Program S α → (List (Event S) → α → Prop) → Prop
  | done value, post => post [] value
  | perform op next, post =>
      ∀ answer, (next answer).Traces fun trace value => post (⟨op, answer⟩ :: trace) value

@[simp] theorem traces_done (value : α) (post : List (Event S) → α → Prop) :
    (done value).Traces post ↔ post [] value := Iff.rfl

@[simp] theorem traces_perform (op : S.Op) (next : S.Answer op → Program S α)
    (post : List (Event S) → α → Prop) :
    (perform op next).Traces post ↔
      ∀ answer, (next answer).Traces fun trace value => post (⟨op, answer⟩ :: trace) value :=
  Iff.rfl

/-- A call first, and then the rest. -/
theorem traces_call_bind (op : S.Op) (next : S.Answer op → Program S α)
    (post : List (Event S) → α → Prop) :
    (call op >>= next).Traces post ↔
      ∀ answer, (next answer).Traces fun trace value => post (⟨op, answer⟩ :: trace) value :=
  Iff.rfl

variable {program : Program S α} {post : List (Event S) → α → Prop} {trace : List (Event S)}
  {allowed : S.Op → Prop}

/-- What holds of the traces may be weakened. -/
theorem Traces.mono {post weaker : List (Event S) → α → Prop} (traces : program.Traces post)
    (weaken : ∀ trace value, post trace value → weaker trace value) :
    program.Traces weaker := by
  induction program generalizing post weaker with
  | done value => exact weaken [] value traces
  | perform op next ih =>
      intro answer
      exact ih answer (traces answer) fun trace value => weaken _ value

/-- What holds of everything holds of the traces. -/
theorem traces_of_all (program : Program S α) (all : ∀ trace value, post trace value) :
    program.Traces post := by
  induction program generalizing post with
  | done value => exact all [] value
  | perform op next ih => exact fun answer => ih answer fun trace value => all _ value

/-- The traces of a sequence are those of its first part continued by those of
its second part. -/
theorem traces_bind (program : Program S α) (next : α → Program S β)
    (post : List (Event S) → β → Prop) :
    (program >>= next).Traces post ↔ program.Traces fun trace value =>
      (next value).Traces fun later result => post (trace ++ later) result := by
  induction program generalizing post with
  | done value => rfl
  | perform op rest ih =>
      simp only [perform_bind, traces_perform]
      exact forall_congr' fun answer => ih answer _

/-- What a run returns is what one of the complete traces returns, and the trace holds the
answers of the run. -/
theorem Traces.of_run_forall (traces : program.Traces post)
    (semantics : (op : S.Op) → σ → S.Answer op × σ) (holds : Event S → Prop)
    (answers : ∀ op state, holds ⟨op, (semantics op state).1⟩) (state : σ) :
    ∃ trace, (∀ event ∈ trace, holds event) ∧ post trace (program.run semantics state).1 := by
  induction program generalizing post state with
  | done value => exact ⟨[], fun _ member => absurd member List.not_mem_nil, traces⟩
  | perform op next ih =>
      obtain ⟨trace, held, returned⟩ := ih _ (traces _) (semantics op state).2
      refine ⟨_, ?_, returned⟩
      intro event member
      rcases List.mem_cons.mp member with rfl | later
      · exact answers op state
      · exact held event later

/-- What a run returns is what one of the complete traces returns. -/
theorem Traces.of_run (traces : program.Traces post) (semantics : (op : S.Op) → σ → S.Answer op × σ)
    (state : σ) :
    ∃ trace, post trace (program.run semantics state).1 := by
  obtain ⟨trace, _, returned⟩ :=
    traces.of_run_forall semantics (fun _ => True) (fun _ _ => trivial) state
  exact ⟨trace, returned⟩

/-- What every operation preserves, together with the trace so far, holds of a complete trace
and of the state after the run. -/
theorem Traces.of_run_invariant (traces : program.Traces post)
    (semantics : (op : S.Op) → σ → S.Answer op × σ) (invariant : List (Event S) → σ → Prop)
    (preserved : ∀ trace op state, invariant trace state →
      invariant (trace ++ [⟨op, (semantics op state).1⟩]) (semantics op state).2)
    {before : List (Event S)} {state : σ} (start : invariant before state) :
    ∃ trace, post trace (program.run semantics state).1 ∧
      invariant (before ++ trace) (program.run semantics state).2 := by
  induction program generalizing post before state with
  | done value => exact ⟨[], traces, by rw [List.append_nil]; exact start⟩
  | perform op next ih =>
      obtain ⟨trace, returned, held⟩ := ih _ (traces _) (preserved before op state start)
      rw [List.append_assoc] at held
      exact ⟨_, returned, held⟩

/-! ## Partial traces -/

/-- `program.Follows trace rest`: after the operations of the trace, answered as
recorded, `rest` remains of the program. -/
inductive Follows : Program S α → List (Event S) → Program S α → Prop where
  | refl (program : Program S α) : Follows program [] program
  | step (op : S.Op) (next : S.Answer op → Program S α) (answer : S.Answer op)
      {trace : List (Event S)} {rest : Program S α} :
      Follows (next answer) trace rest → Follows (perform op next) (⟨op, answer⟩ :: trace) rest

/-- One stretch of a program after another. -/
theorem Follows.trans {program middle rest : Program S α} {first second : List (Event S)}
    (earlier : program.Follows first middle) (later : middle.Follows second rest) :
    program.Follows (first ++ second) rest := by
  induction earlier with
  | refl program => exact later
  | step op next answer _ ih => exact .step op next answer (ih later)

/-- One more operation extends a partial trace. -/
theorem Follows.snoc {op : S.Op} {next : S.Answer op → Program S α}
    (follows : program.Follows trace (perform op next)) (answer : S.Answer op) :
    program.Follows (trace ++ [⟨op, answer⟩]) (next answer) :=
  follows.trans (.step op next answer (.refl _))

/-- A finished program has performed one of its complete traces. -/
theorem Traces.of_follows (traces : program.Traces post) {value : α}
    (follows : program.Follows trace (done value)) : post trace value := by
  generalize finished : (done value : Program S α) = rest at follows
  induction follows generalizing post with
  | refl program =>
      subst finished
      exact traces
  | step op next answer _ ih => exact ih (traces answer) finished

/-! ## Which operations a program can perform -/

/-- Whatever the answers, the program performs only operations with the
property. -/
def Uses (allowed : S.Op → Prop) : Program S α → Prop
  | done _ => True
  | perform op next => allowed op ∧ ∀ answer, (next answer).Uses allowed

/-- One program after another uses what both use. -/
theorem uses_bind {next : α → Program S β} (first : program.Uses allowed)
    (second : ∀ value, (next value).Uses allowed) :
    (program >>= next).Uses allowed := by
  induction program with
  | done value => exact second value
  | perform op rest ih => exact ⟨first.1, fun answer => ih answer (first.2 answer)⟩

theorem uses_call {op : S.Op} (holds : allowed op) :
    (call op).Uses allowed :=
  ⟨holds, fun _ => trivial⟩

/-- More may be allowed. -/
theorem Uses.mono {allowed weaker : S.Op → Prop} (uses : program.Uses allowed)
    (weaken : ∀ op, allowed op → weaker op) :
    program.Uses weaker := by
  induction program with
  | done value => trivial
  | perform op next ih => exact ⟨weaken op uses.1, fun answer => ih answer (uses.2 answer)⟩

/-- A part of the state that the operations of a program leave alone is the same after
it has run. -/
theorem Uses.run_keeps {τ : Type} (uses : program.Uses allowed)
    {semantics : (op : S.Op) → σ → S.Answer op × σ} {view : σ → τ}
    (keeps : ∀ op state, allowed op → view (semantics op state).2 = view state) (state : σ) :
    view (program.run semantics state).2 = view state := by
  induction program generalizing state with
  | done value => rfl
  | perform op next ih =>
      rw [run_perform, ih _ (uses.2 _), keeps op state uses.1]

/-- What every operation preserves, a program preserves. -/
theorem run_preserves {semantics : (op : S.Op) → σ → S.Answer op × σ} (invariant : σ → Prop)
    (preserved : ∀ op state, invariant state → invariant (semantics op state).2)
    (program : Program S α) {state : σ} (start : invariant state) :
    invariant (program.run semantics state).2 := by
  induction program generalizing state with
  | done value => exact start
  | perform op next ih =>
      rw [run_perform]
      exact ih _ (preserved op state start)

/-- A program whose operations answer alike in related states, and keep them related,
returns the same from related states and leaves them related. -/
theorem Uses.run_related (uses : program.Uses allowed)
    {semantics : (op : S.Op) → σ → S.Answer op × σ} {related : σ → σ → Prop}
    (alike : ∀ op state other, allowed op → related state other → (semantics op state).1 =
      (semantics op other).1 ∧ related (semantics op state).2 (semantics op other).2)
    {state other : σ} (start : related state other) :
    (program.run semantics state).1 = (program.run semantics other).1 ∧
      related (program.run semantics state).2 (program.run semantics other).2 := by
  induction program generalizing state other with
  | done value => exact ⟨rfl, start⟩
  | perform op next ih =>
      obtain ⟨answers, after⟩ := alike op state other uses.1 start
      rw [run_perform, run_perform, ← answers]
      exact ih _ (uses.2 _) after

/-- A stretch of a program uses what the program uses, and so does the rest. -/
theorem Uses.of_follows {program rest : Program S α} (uses : program.Uses allowed)
    (follows : program.Follows trace rest) :
    (∀ event ∈ trace, allowed event.op) ∧ rest.Uses allowed := by
  induction follows with
  | refl program => exact ⟨fun _ member => absurd member List.not_mem_nil, uses⟩
  | step op next answer _ ih =>
      obtain ⟨earlier, remaining⟩ := ih (uses.2 answer)
      refine ⟨?_, remaining⟩
      intro event member
      rcases List.mem_cons.mp member with rfl | later
      · exact uses.1
      · exact earlier event later

end Program

end Foundation
