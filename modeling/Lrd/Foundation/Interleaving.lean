import Lrd.Foundation.Program
import Mathlib.Algebra.BigOperators.Group.List.Basic
import Mathlib.Algebra.Ring.Nat
import Mathlib.Data.List.Induction

/-!
# Interleaved calls on a shared state

Any number of calls run one program each against one shared state. A schedule
is a list of labels: a new call arrives, or a call in flight performs its next
operation, which takes effect on the shared state at once. Every interleaving of
every set of calls is the run of some schedule, so a property of all runs of
`System.run` is a property of every interleaving.

Each call keeps the trace of its own operations and the system keeps the history
of all of them. `System.countP_history` says that the history counts exactly
what the traces of the calls count. `System.run_history_invariant` is the induction
rule for all runs and `System.Meets.history_invariant` the one for runs whose steps
meet a condition.
-/

namespace Foundation

/-- What the calls run and what their operations do to the shared state. The
environment supplies a value to every operation, such as a clock reading. -/
structure Concurrent (S : Signature) (σ ε ρ α : Type) where
  program : ρ → Program S α
  perform : ε → (op : S.Op) → σ → S.Answer op × σ

/-- A call with what it has done so far and what remains of it. -/
structure Call (S : Signature) (ρ α : Type) where
  request : ρ
  trace : List (Event S)
  rest : Program S α

/-- The value a finished call returned. -/
def Call.result? {S : Signature} {ρ α : Type} (call : Call S ρ α) : Option α :=
  match call.rest with
  | .done value => some value
  | .perform _ _ => none

/-- One scheduling decision. -/
inductive Label (ε ρ : Type) where
  | invoke (request : ρ)
  | advance (index : Nat) (environment : ε)

/-- The environment's value at a step. -/
def Label.environment? {ε ρ : Type} : Label ε ρ → Option ε
  | .invoke _ => none
  | .advance _ environment => some environment

/-- The schedule in which every call has its turns before the next one is made. -/
def Label.inTurn {ε ρ : Type} (turns : Nat) (requests : List (ρ × ε)) : List (Label ε ρ) :=
  requests.zipIdx.flatMap fun ((request, environment), index) =>
    .invoke request :: List.replicate turns (.advance index environment)

/-- The shared state, all calls ever made, and the operations in the order in
which they took effect. -/
structure System (S : Signature) (σ ρ α : Type) where
  state : σ
  calls : List (Call S ρ α)
  history : List (Event S)

namespace System

variable {S : Signature} {σ ε ρ α : Type}

/-- No call has been made. -/
def initial (state : σ) : System S σ ρ α := ⟨state, [], []⟩

/-- No call is in flight. -/
def Quiescent (system : System S σ ρ α) : Prop := ∀ call ∈ system.calls, call.result?.isSome

instance (system : System S σ ρ α) : Decidable system.Quiescent :=
  inferInstanceAs (Decidable (∀ call ∈ system.calls, _))

/-- One scheduling step. A label that names no call in flight does nothing. -/
def step (code : Concurrent S σ ε ρ α) (system : System S σ ρ α) :
    Label ε ρ → System S σ ρ α
  | .invoke request => { system with calls := system.calls ++ [⟨request, [], code.program request⟩] }
  | .advance index environment =>
      match system.calls[index]? with
      | some ⟨request, trace, .perform op next⟩ =>
          let outcome := code.perform environment op system.state
          ⟨outcome.2, system.calls.set index ⟨request, trace ++ [⟨op, outcome.1⟩], next outcome.1⟩,
            system.history ++ [⟨op, outcome.1⟩]⟩
      | _ => system

/-- The system after a schedule. -/
def run (code : Concurrent S σ ε ρ α) (state : σ) (schedule : List (Label ε ρ)) :
    System S σ ρ α :=
  schedule.foldl (step code) (initial state)

variable {code : Concurrent S σ ε ρ α}

theorem run_append (state : σ) (schedule later : List (Label ε ρ)) :
    run code state (schedule ++ later) = later.foldl (step code) (run code state schedule) :=
  List.foldl_append ..

theorem run_snoc (state : σ) (schedule : List (Label ε ρ)) (label : Label ε ρ) :
    run code state (schedule ++ [label]) = (run code state schedule).step code label :=
  run_append ..

/-- Everything a step can do: a call arrives, a call in flight performs its next
operation, or nothing happens. -/
theorem step_cases (code : Concurrent S σ ε ρ α) (system : System S σ ρ α) (label : Label ε ρ) :
    (∃ request, label = .invoke request ∧ system.step code label =
      { system with calls := system.calls ++ [⟨request, [], code.program request⟩] }) ∨
    (∃ index environment request trace op next, label = .advance index environment ∧
      system.calls[index]? = some ⟨request, trace, .perform op next⟩ ∧
      system.step code label =
        ⟨(code.perform environment op system.state).2,
          system.calls.set index ⟨request,
            trace ++ [⟨op, (code.perform environment op system.state).1⟩],
            next (code.perform environment op system.state).1⟩,
          system.history ++ [⟨op, (code.perform environment op system.state).1⟩]⟩) ∨
    system.step code label = system := by
  cases label with
  | invoke request => exact Or.inl ⟨request, rfl, rfl⟩
  | advance index environment =>
      cases found : system.calls[index]? with
      | none => exact Or.inr (Or.inr (by simp only [step, found]))
      | some call =>
          obtain ⟨request, trace, rest⟩ := call
          cases rest with
          | done value => exact Or.inr (Or.inr (by simp only [step, found]))
          | perform op next =>
              exact Or.inr (Or.inl ⟨index, environment, request, trace, op, next, rfl, found,
                by simp only [step, found]⟩)

variable {state : σ} {call : Call S ρ α}

/-- A property of the whole system that every step preserves holds after every
schedule. -/
theorem run_induction {motive : System S σ ρ α → Prop} (start : motive (initial state))
    (preserved : ∀ system label, motive system → motive (system.step code label))
    (schedule : List (Label ε ρ)) : motive (run code state schedule) := by
  induction schedule using List.reverseRecOn with
  | nil => exact start
  | append_singleton schedule label ih =>
      rw [run_snoc]
      exact preserved _ _ ih

/-- The operation that a label performs, if any, meets a condition on the state it
finds. -/
def StepMeets (condition : σ → ε → S.Op → Prop) (system : System S σ ρ α) :
    Label ε ρ → Prop
  | .invoke _ => True
  | .advance index environment =>
      match system.calls[index]? with
      | some ⟨_, _, .perform op _⟩ => condition system.state environment op
      | _ => True

/-- Every operation that a schedule performs meets a condition on the state it
finds. -/
def Meets (code : Concurrent S σ ε ρ α) (condition : σ → ε → S.Op → Prop) :
    System S σ ρ α → List (Label ε ρ) → Prop
  | _, [] => True
  | system, label :: schedule =>
      system.StepMeets condition label ∧ Meets code condition (system.step code label) schedule

instance decidableStepMeets (condition : σ → ε → S.Op → Prop)
    [∀ state environment op, Decidable (condition state environment op)]
    (system : System S σ ρ α) (label : Label ε ρ) : Decidable (system.StepMeets condition label) :=
  match label with
  | .invoke _ => inferInstanceAs (Decidable True)
  | .advance index _ =>
      match found : system.calls[index]? with
      | some ⟨_, _, .perform _ _⟩ =>
          decidable_of_iff (condition _ _ _) (by simp only [StepMeets, found]; exact Iff.rfl)
      | some ⟨_, _, .done _⟩ => isTrue (by simp only [StepMeets, found])
      | none => isTrue (by simp only [StepMeets, found])

instance decidableMeets (code : Concurrent S σ ε ρ α) (condition : σ → ε → S.Op → Prop)
    [∀ state environment op, Decidable (condition state environment op)] :
    (system : System S σ ρ α) → (schedule : List (Label ε ρ)) →
      Decidable (Meets code condition system schedule)
  | _, [] => isTrue trivial
  | system, label :: schedule =>
      have := decidableMeets code condition (system.step code label) schedule
      inferInstanceAs (Decidable (_ ∧ _))

/-- Every run meets the condition that asks for nothing. -/
theorem meets_true (code : Concurrent S σ ε ρ α) (system : System S σ ρ α)
    (schedule : List (Label ε ρ)) :
    Meets code (fun _ _ _ => True) system schedule := by
  induction schedule generalizing system with
  | nil => trivial
  | cons label schedule ih =>
      refine ⟨?_, ih _⟩
      cases label with
      | invoke request => trivial
      | advance index environment =>
          simp only [StepMeets]
          split <;> trivial

/-- A property of the shared state and the history that every operation preserves
under a condition holds after every schedule that meets the condition. -/
theorem Meets.history_invariant {condition : σ → ε → S.Op → Prop} {system : System S σ ρ α}
    {schedule : List (Label ε ρ)} (meets : Meets code condition system schedule)
    (invariant : σ → List (Event S) → Prop) (start : invariant system.state system.history)
    (preserved : ∀ environment op current history, condition current environment op →
      invariant current history → invariant (code.perform environment op current).2
        (history ++ [⟨op, (code.perform environment op current).1⟩])) :
    invariant (schedule.foldl (step code) system).state
      (schedule.foldl (step code) system).history := by
  induction schedule generalizing system with
  | nil => exact start
  | cons label schedule ih =>
      obtain ⟨here, later⟩ := meets
      apply ih later
      rcases step_cases code system label with
        ⟨_, _, stepped⟩ | ⟨_, environment, _, _, op, _, rfl, found, stepped⟩ | stepped
      · rw [stepped]
        exact start
      · rw [stepped]
        simp only [StepMeets, found] at here
        exact preserved environment op _ _ here start
      · rw [stepped]
        exact start

/-- A property of the shared state and the history that every performed
operation preserves holds after every schedule. -/
theorem run_history_invariant (invariant : σ → List (Event S) → Prop) (start : invariant state [])
    (preserved : ∀ environment op current history, invariant current history →
      invariant (code.perform environment op current).2
      (history ++ [⟨op, (code.perform environment op current).1⟩])) (schedule : List (Label ε ρ)) :
    invariant (run code state schedule).state (run code state schedule).history := by
  have meets := meets_true code (initial state) schedule
  exact meets.history_invariant invariant start fun environment op current history _ =>
    preserved environment op current history

/-- A property of calls that holds when they are made and that their own operations preserve
holds of every call. -/
theorem run_calls {property : Call S ρ α → Prop}
    (invoked : ∀ request, property ⟨request, [], code.program request⟩)
    (advanced : ∀ environment op current request trace next,
      property ⟨request, trace, .perform op next⟩ →
      property ⟨request, trace ++ [⟨op, (code.perform environment op current).1⟩],
      next (code.perform environment op current).1⟩) (schedule : List (Label ε ρ)) :
    ∀ call ∈ (run code state schedule).calls, property call := by
  refine run_induction (motive := fun system => ∀ call ∈ system.calls, property call) ?_ ?_ schedule
  · intro call member
    exact absurd member List.not_mem_nil
  · intro system label holds
    rcases step_cases code system label with
      ⟨request, _, stepped⟩ | ⟨index, environment, request, trace, op, next, _, found, stepped⟩ |
        stepped
    · rw [stepped]
      intro call member
      rcases List.mem_append.mp member with earlier | fresh
      · exact holds call earlier
      · rw [List.mem_singleton.mp fresh]
        exact invoked request
    · rw [stepped]
      intro call member
      rcases List.mem_or_eq_of_mem_set member with earlier | rfl
      · exact holds call earlier
      · have before := holds _ (List.mem_of_getElem? found)
        exact advanced environment op system.state request trace next before
    · rw [stepped]
      exact holds

/-- Every call is its program with the operations of its trace performed. -/
theorem run_follows (state : σ) (schedule : List (Label ε ρ)) :
    ∀ call ∈ (run code state schedule).calls,
      (code.program call.request).Follows call.trace call.rest := by
  refine run_calls ?_ ?_ schedule
  · intro request
    exact .refl _
  · intro environment op current request trace next follows
    exact follows.snoc _

/-- What holds of the complete traces of a program holds of a finished call of it. -/
theorem run_traced (state : σ) (schedule : List (Label ε ρ))
    (made : call ∈ (run code state schedule).calls) {value : α}
    (finished : call.result? = some value) {post : List (Event S) → α → Prop}
    (traces : (code.program call.request).Traces post) : post call.trace value := by
  have follows := run_follows state schedule call made
  obtain ⟨request, trace, rest⟩ := call
  cases rest with
  | perform op next => cases finished
  | done returned =>
      cases finished
      exact traces.of_follows follows

/-- A call, finished or not, has performed only what its program can perform. -/
theorem run_uses (state : σ) (schedule : List (Label ε ρ))
    (made : call ∈ (run code state schedule).calls) {allowed : S.Op → Prop}
    (uses : (code.program call.request).Uses allowed) :
    ∀ event ∈ call.trace, allowed event.op :=
  (uses.of_follows (run_follows state schedule call made)).1

/-- Calls that carry on other calls: none is lost, and what was returned stays. -/
def CarryOn (before after : List (Call S ρ α)) : Prop :=
  ∀ (index : Nat) (call : Call S ρ α), before[index]? = some call →
    ∃ later, after[index]? = some later ∧ later.request = call.request ∧
      ∀ value, call.result? = some value → later.result? = some value

theorem CarryOn.refl (calls : List (Call S ρ α)) : CarryOn calls calls :=
  fun _ call found => ⟨call, found, rfl, fun _ returned => returned⟩

/-- What is carried on is carried on further. -/
theorem CarryOn.trans {before middle after : List (Call S ρ α)} (first : CarryOn before middle)
    (second : CarryOn middle after) : CarryOn before after := by
  intro index call found
  obtain ⟨later, here, request, returned⟩ := first index call found
  obtain ⟨last, there, sameRequest, alsoReturned⟩ := second index later here
  exact ⟨last, there, sameRequest.trans request, fun value result =>
    alsoReturned value (returned value result)⟩

/-- Every step carries the calls on. -/
theorem step_carryOn (code : Concurrent S σ ε ρ α) (system : System S σ ρ α) (label : Label ε ρ) :
    CarryOn system.calls (system.step code label).calls := by
  intro index call found
  obtain ⟨inside, _⟩ := List.getElem?_eq_some_iff.mp found
  rcases step_cases code system label with
    ⟨request, _, stepped⟩ | ⟨moved, _, request, trace, op, next, _, here, stepped⟩ | stepped
  · rw [stepped, List.getElem?_append_left inside]
    exact CarryOn.refl _ index call found
  · rw [stepped]
    by_cases same : moved = index
    · subst same
      rw [here, Option.some.injEq] at found
      subst found
      exact ⟨_, List.getElem?_set_self inside, rfl, nofun⟩
    · rw [List.getElem?_set_ne same]
      exact CarryOn.refl _ index call found
  · rw [stepped]
    exact CarryOn.refl _ index call found

/-- A step of a call makes no calls. -/
theorem length_advance (code : Concurrent S σ ε ρ α) (system : System S σ ρ α) (index : Nat)
    (environment : ε) :
    (system.step code (.advance index environment)).calls.length = system.calls.length := by
  rcases step_cases code system (.advance index environment) with
    ⟨_, label, _⟩ | ⟨_, _, _, _, _, _, _, _, stepped⟩ | stepped
  · cases label
  · rw [stepped, List.length_set]
  · rw [stepped]

/-- A call that has returned does not go on. -/
theorem step_finished (code : Concurrent S σ ε ρ α) {system : System S σ ρ α} {index : Nat}
    (found : system.calls[index]? = some call) (finished : call.result?.isSome) (environment : ε) :
    system.step code (.advance index environment) = system := by
  rcases step_cases code system (.advance index environment) with
    ⟨_, label, _⟩ | ⟨_, _, request, trace, op, next, label, here, _⟩ | same
  · cases label
  · cases label
    obtain rfl := Option.some.inj (found.symm.trans here)
    cases finished
  · exact same

/-- Every call was made by the schedule. -/
theorem run_invoked (state : σ) (schedule : List (Label ε ρ)) :
    ∀ call ∈ (run code state schedule).calls, .invoke call.request ∈ schedule := by
  induction schedule using List.reverseRecOn with
  | nil =>
      intro call member
      exact absurd member List.not_mem_nil
  | append_singleton schedule label ih =>
      rw [run_snoc]
      rcases step_cases code (run code state schedule) label with
        ⟨request, rfl, stepped⟩ | ⟨index, _, request, trace, op, next, _, found, stepped⟩ | stepped
      · rw [stepped]
        intro call member
        rcases List.mem_append.mp member with earlier | fresh
        · exact List.mem_append_left _ (ih call earlier)
        · rw [List.mem_singleton.mp fresh]
          exact List.mem_append_right _ List.mem_cons_self
      · rw [stepped]
        intro call member
        rcases List.mem_or_eq_of_mem_set member with earlier | rfl
        · exact List.mem_append_left _ (ih call earlier)
        · have invoked := ih _ (List.mem_of_getElem? found)
          exact List.mem_append_left _ invoked
      · rw [stepped]
        intro call member
        exact List.mem_append_left _ (ih call member)

/-- A property of every performed operation with its answer holds of every event of
every trace. -/
theorem run_trace_forall {property : Event S → Prop}
    (performed : ∀ environment op current, property ⟨op, (code.perform environment op current).1⟩)
    (schedule : List (Label ε ρ)) :
    ∀ call ∈ (run code state schedule).calls, ∀ event ∈ call.trace, property event := by
  refine run_calls ?_ ?_ schedule
  · intro request event member
    exact absurd member List.not_mem_nil
  · intro environment op current request trace next holds event member
    rcases List.mem_append.mp member with before | last
    · exact holds event before
    · rw [List.mem_singleton.mp last]
      exact performed environment op current

/-- The next operation of a call in flight. -/
def Performs (system : System S σ ρ α) (index : Nat) (op : S.Op) : Prop :=
  ∃ request trace next, system.calls[index]? = some ⟨request, trace, .perform op next⟩

/-- Every event of a trace was performed at a step of its call, which answered it from
the state it found. -/
theorem run_performed (state : σ) (schedule : List (Label ε ρ)) :
    ∀ index call, (run code state schedule).calls[index]? = some call → ∀ event ∈ call.trace,
      ∃ earlier environment later, schedule = earlier ++ .advance index environment :: later ∧
        (run code state earlier).Performs index event.op ∧
        (code.perform environment event.op (run code state earlier).state).1 = event.answer := by
  induction schedule using List.reverseRecOn with
  | nil =>
      intro index call present
      cases present
  | append_singleton schedule label ih =>
      intro index call present event member
      -- What was performed before this label was performed before the schedule grew.
      have before : ∀ old, (run code state schedule).calls[index]? = some old →
          event ∈ old.trace → ∃ earlier environment later,
            schedule ++ [label] = earlier ++ .advance index environment :: later ∧
            (run code state earlier).Performs index event.op ∧
            (code.perform environment event.op (run code state earlier).state).1 =
              event.answer := by
        intro old found inside
        obtain ⟨earlier, environment, later, split, performs, answered⟩ :=
          ih index old found event inside
        refine ⟨earlier, environment, later ++ [label], ?_, performs, answered⟩
        rw [split, List.append_assoc, List.cons_append]
      rw [run_snoc] at present
      rcases step_cases code (run code state schedule) label with
        ⟨request, _, stepped⟩ | ⟨moved, environment, request, trace, op, next, named, found, stepped⟩ |
          stepped
      · rw [stepped] at present
        rcases lt_or_ge index (run code state schedule).calls.length with inside | outside
        · rw [List.getElem?_append_left inside] at present
          exact before call present member
        · rw [List.getElem?_append_right outside] at present
          rw [List.mem_singleton.mp (List.mem_of_getElem? present)] at member
          exact absurd member List.not_mem_nil
      · rw [stepped] at present
        by_cases same : moved = index
        · subst same
          obtain ⟨inside, _⟩ := List.getElem?_eq_some_iff.mp found
          rw [List.getElem?_set_self inside, Option.some.injEq] at present
          subst present
          rcases List.mem_append.mp member with old | new
          · exact before _ found old
          · rw [List.mem_singleton.mp new]
            exact ⟨schedule, environment, [], by rw [named], ⟨request, trace, next, found⟩, rfl⟩
        · rw [List.getElem?_set_ne same] at present
          exact before call present member
      · rw [stepped] at present
        exact before call present member

/-- The history counts what the traces of all calls count. -/
theorem countP_history (state : σ) (schedule : List (Label ε ρ)) (counted : Event S → Bool) :
    (run code state schedule).history.countP counted =
      ((run code state schedule).calls.map fun call => call.trace.countP counted).sum := by
  refine run_induction (motive := fun system => system.history.countP counted =
    (system.calls.map fun call => call.trace.countP counted).sum) rfl ?_ schedule
  intro system label balanced
  rcases step_cases code system label with
    ⟨request, _, stepped⟩ | ⟨index, _, request, trace, op, next, _, found, stepped⟩ | stepped
  · rw [stepped]
    simp only [balanced, List.map_append, List.sum_append, List.map_cons, List.map_nil,
      List.countP_nil, List.sum_cons, List.sum_nil, Nat.add_zero]
  · obtain ⟨inside, here⟩ := List.getElem?_eq_some_iff.mp found
    have split : system.calls = system.calls.take index ++
        ⟨request, trace, .perform op next⟩ :: system.calls.drop (index + 1) := by
      rw [← here, List.getElem_cons_drop, List.take_append_drop]
    rw [split] at balanced
    rw [stepped, List.set_eq_take_append_cons_drop, if_pos inside]
    simp only [List.countP_append, balanced, List.map_append, List.map_cons, List.sum_append,
      List.sum_cons]
    omega
  · rw [stepped]; exact balanced

open Classical in
/-- Every event of the history is one of a call's trace. -/
theorem run_history_traced (state : σ) (schedule : List (Label ε ρ)) :
    ∀ event ∈ (run code state schedule).history,
      ∃ call ∈ (run code state schedule).calls, event ∈ call.trace := by
  intro event member
  have counted : 0 < (run code state schedule).history.countP fun other => decide (other = event) :=
    List.countP_pos_iff.mpr ⟨event, member, decide_eq_true rfl⟩
  rw [countP_history, List.sum_pos_iff_exists_pos_nat] at counted
  obtain ⟨count, inside, positive⟩ := counted
  obtain ⟨call, present, rfl⟩ := List.mem_map.mp inside
  obtain ⟨other, traced, same⟩ := List.countP_pos_iff.mp positive
  rw [of_decide_eq_true same] at traced
  exact ⟨call, present, traced⟩

end System

end Foundation
