import Lrd.Foundation.Interleaving
import Lrd.Foundation.Machine
import Mathlib.Data.List.Infix

/-!
# Linearizable calls

Calls that run at the same time may look as if each had taken effect at one instant. It is
enough that every call has one operation that acts on an object as the whole request would
(`Program` positions before it are `Pending`, those after it `Settled`) and that all other
operations leave the object alone (`Concurrent.Keeps`). The operations that commit, in the
order in which they are performed, are then an order of the calls in which the object, asked
one request after another, gives every call the answer it returned
(`Atomic.linearizes`). The order grows with the schedule (`Atomic.linearize_append`), so a call
that has returned comes before every call made later (`Atomic.linearize_sublist`).
-/

namespace Foundation

variable {S : Signature} {σ τ ε ρ α : Type}

namespace Concurrent

variable (code : Concurrent S σ ε ρ α) (related : σ → τ → Prop)

/-- The operation leaves the object alone. -/
def Keeps (op : S.Op) : Prop :=
  ∀ environment state other, related state other →
    related (code.perform environment op state).2 other

/-- What remains of a call that has committed: it returns the value and leaves the object
alone. -/
def Settled (commits : S.Op → Bool) (value : α) : Program S α → Prop
  | .done returned => returned = value
  | .perform op next =>
      commits op = false ∧ code.Keeps related op ∧ ∀ answer, Settled commits value (next answer)

/-- What remains of a call that has not committed yet: it will, and the operation that commits
acts as the object does on the request. -/
def Pending (object : Machine τ ρ α) (commits : S.Op → Bool) (request : ρ) :
    Program S α → Prop
  | .done _ => False
  | .perform op next =>
      if commits op then
        ∀ environment state other, related state other →
          related (code.perform environment op state).2 (object.step other request).2 ∧
            code.Settled related commits (object.step other request).1
              (next (code.perform environment op state).1)
      else code.Keeps related op ∧ ∀ answer, Pending object commits request (next answer)

variable {code related} {object : Machine τ ρ α} {commits : S.Op → Bool} {request : ρ} {op : S.Op}
  {next : S.Answer op → Program S α}

/-- A silent operation leaves the request pending. -/
theorem Pending.keep (silent : commits op = false) (keeps : code.Keeps related op)
    (later : ∀ answer, code.Pending related object commits request (next answer)) :
    code.Pending related object commits request (.perform op next) := by
  rw [Pending, if_neg (by rw [silent]; exact Bool.false_ne_true)]
  exact ⟨keeps, later⟩

/-- After the operation that commits, the request is answered as the object answers it. -/
theorem Pending.commit (loud : commits op = true)
    (acts : ∀ environment state other, related state other →
      related (code.perform environment op state).2 (object.step other request).2 ∧
        code.Settled related commits (object.step other request).1
          (next (code.perform environment op state).1)) :
    code.Pending related object commits request (.perform op next) := by
  rw [Pending, if_pos loud]
  exact acts

end Concurrent

/-- Requests that commit with one operation to an object, among others that leave it alone. -/
structure Atomic (code : Concurrent S σ ε ρ α) (object : Machine τ ρ α) where
  related : σ → τ → Prop
  covers : ρ → Bool
  commits : ρ → S.Op → Bool
  pending : ∀ request, covers request = true →
    code.Pending related object (commits request) request (code.program request)
  silent : ∀ request, covers request = false → (code.program request).Uses (code.Keeps related)

/-- A call in the order in which the calls take effect, with the answer of the object. -/
structure Point (ρ α : Type) where
  index : Nat
  request : ρ
  answer : α

/-- An order of the covered calls of a system that explains what they returned. Calls in flight
may have taken effect or not. -/
structure Linearization (object : Machine τ ρ α) (start : τ) (covers : ρ → Bool)
    (system : System S σ ρ α) (points : List (Point ρ α)) : Prop where
  legal : (object.run start (points.map Point.request)).1 =
    points.map fun point => (point.request, point.answer)
  once : (points.map Point.index).Nodup
  made : ∀ point ∈ points, ∃ call, system.calls[point.index]? = some call ∧
    call.request = point.request ∧ covers call.request = true ∧
    ∀ value, call.result? = some value → value = point.answer
  complete : ∀ index call, system.calls[index]? = some call → covers call.request = true →
    call.result?.isSome → index ∈ points.map Point.index

namespace Atomic

variable {code : Concurrent S σ ε ρ α} {object : Machine τ ρ α} (atomic : Atomic code object)

/-- The points after one more scheduling step. -/
def mark (start : τ) (system : System S σ ρ α) (points : List (Point ρ α)) :
    Label ε ρ → List (Point ρ α)
  | .invoke _ => points
  | .advance index _ =>
      match system.calls[index]? with
      | some ⟨request, _, .perform op _⟩ =>
          if atomic.covers request && atomic.commits request op then
            points ++ [⟨index, request,
              (object.step (object.run start (points.map Point.request)).2 request).1⟩]
          else points
      | _ => points

/-- The points of a schedule, in the order in which they are performed. -/
def linearizeFrom (start : τ) : System S σ ρ α → List (Point ρ α) → List (Label ε ρ) →
    List (Point ρ α)
  | _, points, [] => points
  | system, points, label :: schedule =>
      linearizeFrom start (system.step code label) (atomic.mark start system points label) schedule

/-- The points of a whole run. -/
def linearize (state : σ) (start : τ) (schedule : List (Label ε ρ)) : List (Point ρ α) :=
  atomic.linearizeFrom start (System.initial state) [] schedule

/-- Points along two parts of a run. -/
theorem linearizeFrom_append (start : τ) (system : System S σ ρ α) (points : List (Point ρ α))
    (earlier later : List (Label ε ρ)) :
    atomic.linearizeFrom start system points (earlier ++ later) =
      atomic.linearizeFrom start (earlier.foldl (System.step code) system)
        (atomic.linearizeFrom start system points earlier) later := by
  induction earlier generalizing system points with
  | nil => rfl
  | cons label earlier ih => exact ih _ _

/-- Points after one more label. -/
theorem linearize_snoc (state : σ) (start : τ) (schedule : List (Label ε ρ)) (label : Label ε ρ) :
    atomic.linearize state start (schedule ++ [label]) =
      atomic.mark start (System.run code state schedule) (atomic.linearize state start schedule)
        label :=
  atomic.linearizeFrom_append start _ _ schedule [label]

/-- Points that were marked stay. -/
theorem mark_append (start : τ) (system : System S σ ρ α) (points : List (Point ρ α))
    (label : Label ε ρ) : points <+: atomic.mark start system points label := by
  cases label with
  | invoke request => exact List.prefix_rfl
  | advance index environment =>
      simp only [mark]
      split
      · split
        · exact List.prefix_append ..
        · exact List.prefix_rfl
      · exact List.prefix_rfl

/-- Points are added at the end. -/
theorem linearize_append (state : σ) (start : τ) (earlier later : List (Label ε ρ)) :
    atomic.linearize state start earlier <+: atomic.linearize state start (earlier ++ later) := by
  induction later using List.reverseRecOn with
  | nil => rw [List.append_nil]
  | append_singleton later label ih =>
      rw [← List.append_assoc, linearize_snoc]
      exact ih.trans (atomic.mark_append ..)

/-! ## The invariant -/

/-- Where the calls of a system are, given the points so far. -/
structure Holds (start : τ) (system : System S σ ρ α) (points : List (Point ρ α)) : Prop where
  related : atomic.related system.state (object.run start (points.map Point.request)).2
  legal : (object.run start (points.map Point.request)).1 =
    points.map fun point => (point.request, point.answer)
  once : (points.map Point.index).Nodup
  settled : ∀ point ∈ points, ∃ call, system.calls[point.index]? = some call ∧
    call.request = point.request ∧ atomic.covers call.request = true ∧
    code.Settled atomic.related (atomic.commits call.request) point.answer call.rest
  pending : ∀ index call, system.calls[index]? = some call → atomic.covers call.request = true →
    index ∉ points.map Point.index →
    code.Pending atomic.related object (atomic.commits call.request) call.request call.rest
  silent : ∀ call ∈ system.calls, atomic.covers call.request = false →
    call.rest.Uses (code.Keeps atomic.related)

variable {atomic} {start : τ} {system : System S σ ρ α} {points : List (Point ρ α)}

/-- A call that begins has no point yet. -/
theorem Holds.invoke (holds : atomic.Holds start system points) (request : ρ) :
    atomic.Holds start
      { system with calls := system.calls ++ [⟨request, [], code.program request⟩] } points := by
  refine ⟨holds.related, holds.legal, holds.once, ?_, ?_, ?_⟩
  · intro point member
    obtain ⟨call, found, settled⟩ := holds.settled point member
    have inside := (List.getElem?_eq_some_iff.mp found).1
    exact ⟨call, (List.getElem?_append_left inside).trans found, settled⟩
  · intro index call found covered unmarked
    rcases Nat.lt_or_ge index system.calls.length with inside | outside
    · rw [List.getElem?_append_left inside] at found
      exact holds.pending index call found covered unmarked
    · rw [List.getElem?_append_right outside] at found
      rw [List.mem_singleton.mp (List.mem_of_getElem? found)] at covered ⊢
      exact atomic.pending request covered
  · intro call member uncovered
    rcases List.mem_append.mp member with earlier | fresh
    · exact holds.silent call earlier uncovered
    · rw [List.mem_singleton.mp fresh] at uncovered ⊢
      exact atomic.silent request uncovered

/-- A call performs an operation that leaves the object alone. -/
theorem Holds.keep (holds : atomic.Holds start system points) {index : Nat} {request : ρ}
    {trace : List (Event S)} {op : S.Op} {next : S.Answer op → Program S α}
    (found : system.calls[index]? = some ⟨request, trace, .perform op next⟩)
    (keeps : code.Keeps atomic.related op) (environment : ε)
    (event : Event S) (history : List (Event S)) {rest : Program S α}
    (settled : ∀ answer, code.Settled atomic.related (atomic.commits request) answer
      (.perform op next) → code.Settled atomic.related (atomic.commits request) answer rest)
    (pending : atomic.covers request = true → index ∉ points.map Point.index →
      code.Pending atomic.related object (atomic.commits request) request rest)
    (silent : atomic.covers request = false → rest.Uses (code.Keeps atomic.related)) :
    atomic.Holds start
      ⟨(code.perform environment op system.state).2,
        system.calls.set index ⟨request, trace ++ [event], rest⟩, history⟩ points := by
  have inside := (List.getElem?_eq_some_iff.mp found).1
  refine ⟨keeps environment _ _ holds.related, holds.legal, holds.once, ?_, ?_, ?_⟩
  · intro point member
    obtain ⟨call, present, asked, covered, waits⟩ := holds.settled point member
    by_cases same : point.index = index
    · rw [same, found, Option.some.injEq] at present
      subst present
      refine ⟨⟨request, trace ++ [event], rest⟩, ?_, asked, covered, settled _ waits⟩
      rw [same]
      exact List.getElem?_set_self inside
    · refine ⟨call, ?_, asked, covered, waits⟩
      rw [List.getElem?_set_ne (Ne.symm same)]
      exact present
  · intro other call present covered unmarked
    by_cases same : other = index
    · subst same
      rw [List.getElem?_set_self inside, Option.some.injEq] at present
      subst present
      exact pending covered unmarked
    · rw [List.getElem?_set_ne (Ne.symm same)] at present
      exact holds.pending other call present covered unmarked
  · intro call member uncovered
    rcases List.mem_or_eq_of_mem_set member with earlier | rfl
    · exact holds.silent call earlier uncovered
    · exact silent uncovered

/-- A call performs the operation that commits it. -/
theorem Holds.commit (holds : atomic.Holds start system points) {index : Nat} {request : ρ}
    {trace : List (Event S)} {op : S.Op} {next : S.Answer op → Program S α}
    (found : system.calls[index]? = some ⟨request, trace, .perform op next⟩)
    (covered : atomic.covers request = true) (commits : atomic.commits request op = true)
    (environment : ε) (event : Event S) (history : List (Event S)) :
    atomic.Holds start
      ⟨(code.perform environment op system.state).2,
        system.calls.set index ⟨request, trace ++ [event],
          next (code.perform environment op system.state).1⟩, history⟩
      (points ++ [⟨index, request,
        (object.step (object.run start (points.map Point.request)).2 request).1⟩]) := by
  have inside := (List.getElem?_eq_some_iff.mp found).1
  have unmarked : index ∉ points.map Point.index := by
    intro marked
    obtain ⟨point, member, rfl⟩ := List.mem_map.mp marked
    obtain ⟨call, present, _, _, settled⟩ := holds.settled point member
    rw [found, Option.some.injEq] at present
    subst present
    rw [settled.1] at commits
    cases commits
  have waits := holds.pending index _ found covered unmarked
  rw [Concurrent.Pending, if_pos commits] at waits
  obtain ⟨acts, settles⟩ := waits environment system.state _ holds.related
  have split : ∀ point : Point ρ α, (points ++ [point]).map Point.request =
      points.map Point.request ++ [point.request] := fun point => List.map_append ..
  refine ⟨?_, ?_, ?_, ?_, ?_, ?_⟩
  · rw [split, Machine.run_snoc]
    exact acts
  · rw [split, Machine.run_snoc, List.map_append, holds.legal]
    rfl
  · rw [List.map_append]
    refine List.nodup_append.mpr ⟨holds.once, List.pairwise_singleton _ _, ?_⟩
    intro other member last isLast same
    rw [same, List.mem_singleton.mp isLast] at member
    exact unmarked member
  · intro point member
    rcases List.mem_append.mp member with earlier | last
    · obtain ⟨call, present, settled⟩ := holds.settled point earlier
      have other : index ≠ point.index := by
        rintro rfl
        exact unmarked (List.mem_map_of_mem earlier)
      exact ⟨call, (List.getElem?_set_ne other).trans present, settled⟩
    · rw [List.mem_singleton.mp last]
      exact ⟨_, List.getElem?_set_self inside, rfl, covered, settles⟩
  · intro other call present isCovered isUnmarked
    rw [List.map_append, List.mem_append, not_or] at isUnmarked
    have different : index ≠ other := by
      rintro rfl
      exact isUnmarked.2 (List.mem_singleton_self _)
    rw [List.getElem?_set_ne different] at present
    exact holds.pending other call present isCovered isUnmarked.1
  · intro call member uncovered
    rcases List.mem_or_eq_of_mem_set member with earlier | rfl
    · exact holds.silent call earlier uncovered
    · rw [covered] at uncovered
      cases uncovered

/-- Every step keeps the points right. -/
theorem Holds.step (holds : atomic.Holds start system points) (label : Label ε ρ) :
    atomic.Holds start (system.step code label) (atomic.mark start system points label) := by
  rcases System.step_cases code system label with
    ⟨request, rfl, stepped⟩ | ⟨index, environment, request, trace, op, next, rfl, found, stepped⟩ |
      same
  · rw [stepped]
    exact holds.invoke request
  · rw [stepped]
    simp only [mark, found]
    cases covered : atomic.covers request with
    | false =>
        have silent := holds.silent _ (List.mem_of_getElem? found) covered
        refine holds.keep found silent.1 environment _ _ (fun _ settled => settled.2.2 _) ?_ ?_
        · intro isCovered
          rw [covered] at isCovered
          cases isCovered
        · exact fun _ => silent.2 _
    | true =>
        cases commits : atomic.commits request op with
        | true => exact holds.commit found covered commits environment _ _
        | false =>
            have keeps : code.Keeps atomic.related op := by
              by_cases marked : index ∈ points.map Point.index
              · obtain ⟨point, member, rfl⟩ := List.mem_map.mp marked
                obtain ⟨call, present, _, _, settled⟩ := holds.settled point member
                rw [found, Option.some.injEq] at present
                subst present
                exact settled.2.1
              · have waits := holds.pending index _ found covered marked
                rw [Concurrent.Pending, commits] at waits
                exact waits.1
            refine holds.keep found keeps environment _ _ (fun _ settled => settled.2.2 _) ?_ ?_
            · intro _ unmarked
              have waits := holds.pending index _ found covered unmarked
              rw [Concurrent.Pending, commits] at waits
              exact waits.2 _
            · intro uncovered
              rw [covered] at uncovered
              cases uncovered
  · rw [same]
    cases label with
    | invoke request => exact holds
    | advance index environment =>
        simp only [mark]
        split
        · rename_i request trace op next found
          have longer := congrArg System.history same
          simp only [System.step, found] at longer
          exact absurd (congrArg List.length longer) (by simp)
        · exact holds

/-- A call that has returned has its point, whose answer is what it returned. -/
theorem Holds.linearization (holds : atomic.Holds start system points) :
    Linearization object start atomic.covers system points := by
  refine ⟨holds.legal, holds.once, ?_, ?_⟩
  · intro point member
    obtain ⟨⟨request, trace, rest⟩, found, asked, covered, settled⟩ := holds.settled point member
    refine ⟨_, found, asked, covered, ?_⟩
    intro value returned
    cases rest with
    | perform op next => cases returned
    | done last =>
        cases returned
        exact settled
  · intro index call found covered finished
    by_contra unmarked
    have waits := holds.pending index call found covered unmarked
    obtain ⟨request, trace, rest⟩ := call
    cases rest with
    | perform op next => cases finished
    | done last => exact waits

variable (atomic) {state : σ}

/-- The points are right in every run. -/
theorem holds_run (begin : atomic.related state start) (schedule : List (Label ε ρ)) :
    atomic.Holds start (System.run code state schedule)
      (atomic.linearize state start schedule) := by
  induction schedule using List.reverseRecOn with
  | nil =>
      refine ⟨begin, rfl, List.nodup_nil, ?_, ?_, ?_⟩
      · intro point member
        exact absurd member List.not_mem_nil
      · intro index call found
        cases found
      · intro call member
        exact absurd member List.not_mem_nil
  | append_singleton schedule label ih =>
      rw [System.run_snoc, linearize_snoc]
      exact ih.step label

/-- The calls that commit, in the order in which they do, explain what all calls return. -/
theorem linearizes (begin : atomic.related state start) (schedule : List (Label ε ρ)) :
    Linearization object start atomic.covers (System.run code state schedule)
      (atomic.linearize state start schedule) :=
  (atomic.holds_run begin schedule).linearization

/-- A call that has returned comes before every call that has not been made yet. -/
theorem linearize_sublist (begin : atomic.related state start)
    {earlier later : List (Label ε ρ)} {first second : Nat} {call : Call S ρ α}
    (found : (System.run code state earlier).calls[first]? = some call)
    (covered : atomic.covers call.request = true) (returned : call.result?.isSome)
    (unmade : (System.run code state earlier).calls.length ≤ second)
    (marked : second ∈ (atomic.linearize state start (earlier ++ later)).map Point.index) :
    [first, second].Sublist
      ((atomic.linearize state start (earlier ++ later)).map Point.index) := by
  have before := atomic.linearizes begin earlier
  obtain ⟨more, split⟩ := atomic.linearize_append state start earlier later
  rw [← split, List.map_append] at marked ⊢
  have firstIn := before.complete first call found covered returned
  have secondOut : second ∉ (atomic.linearize state start earlier).map Point.index := by
    intro inside
    obtain ⟨point, member, rfl⟩ := List.mem_map.mp inside
    obtain ⟨other, present, _⟩ := before.made point member
    exact absurd (List.getElem?_eq_some_iff.mp present).1 (Nat.not_lt.mpr unmade)
  have secondIn := (List.mem_append.mp marked).resolve_left secondOut
  exact (List.singleton_sublist.mpr firstIn).append (List.singleton_sublist.mpr secondIn)

end Atomic

end Foundation
