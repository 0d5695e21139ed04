import Lrd.Foundation.Interleaving

/-!
# Sessions made of calls

A session is a program whose only operations are calls, made one after another. With every
call replaced by the program that executes it (`Program.inline`), a session becomes a program
over the operations of the calls, and any number of sessions can be interleaved at the grain
of these operations. Every such interleaving is an interleaving of single calls on the same
state, with the same history, in which the calls of each session follow one another
(`Layered`, `layered_run`). So what holds of all interleavings of calls holds of all
interleavings of sessions.
-/

namespace Foundation

variable {S : Signature} {σ ε ρ α κ β : Type}

/-- Calls as operations: a request is answered by a response. -/
abbrev Signature.calls (ρ α : Type) : Signature := ⟨ρ, fun _ => α⟩

variable {trace : List (Event S)} {rest : Program S β} {index : Nat}

namespace Program

/-- A session with the program of every call in its place. -/
def inline (body : ρ → Program S α) : Program (Signature.calls ρ α) β → Program S β
  | done value => done value
  | perform request next => body request >>= fun answer => (next answer).inline body

/-- What was computed from the value of a program follows its trace. -/
theorem Follows.map {program : Program S α} {value : α}
    (follows : program.Follows trace (done value)) (f : α → β) :
    (do return f (← program)).Follows trace (done (f value)) := by
  generalize finished : (done value : Program S α) = rest at follows
  induction follows with
  | refl program =>
      subst finished
      exact .refl _
  | step op next answer _ ih => exact .step op _ answer (ih finished)

/-- A value that was computed from that of a program came from one that follows the trace. -/
theorem Follows.of_map {program : Program S α} {f : α → β} {result : β}
    (follows : (do return f (← program)).Follows trace (done result)) :
    ∃ value, program.Follows trace (done value) ∧ result = f value := by
  induction program generalizing trace with
  | done value =>
      cases follows with
      | refl => exact ⟨value, .refl _, rfl⟩
  | perform op next ih =>
      cases follows with
      | step _ _ answer later =>
          obtain ⟨value, follows, same⟩ := ih answer later
          exact ⟨value, .step op next answer follows, same⟩

/-- One call of a session and what follows it. -/
theorem Follows.called (request : ρ) (next : α → Program (Signature.calls ρ α) β) (value : α)
    {trace : List (Event (Signature.calls ρ α))} {rest : Program (Signature.calls ρ α) β}
    (follows : (next value).Follows trace rest) :
    Follows (perform request next : Program (Signature.calls ρ α) β)
      (⟨request, value⟩ :: trace) rest :=
  Follows.step (S := Signature.calls ρ α) request next value follows

end Program

/-! ## One session -/

section Serving

variable (body : ρ → Program S α)

/-- A call that has just been made. -/
def Call.made (request : ρ) : Call S ρ α := ⟨request, [], body request⟩

/-- What a session has come to: the calls it has made, the operations they have performed and
what remains of the inlined program. All calls but the last have returned; the last is in
flight unless the session has ended. -/
inductive Serving : Program (Signature.calls ρ α) β → List (Call S ρ α) → List (Event S) →
    Program S β → Prop where
  | ended (value : β) : Serving (.done value) [] [] (.done value)
  | inFlight (request : ρ) (next : α → Program (Signature.calls ρ α) β) (trace : List (Event S))
      (op : S.Op) (rest : S.Answer op → Program S α) :
      Serving (.perform request next) [⟨request, trace, .perform op rest⟩] trace
        (.perform op fun answer => rest answer >>= fun value => (next value).inline body)
  | returned (request : ρ) (next : α → Program (Signature.calls ρ α) β) (trace : List (Event S))
      (value : α) {calls : List (Call S ρ α)} {later : List (Event S)} {rest : Program S β} :
      Serving (next value) calls later rest →
      Serving (.perform request next) (⟨request, trace, .done value⟩ :: calls) (trace ++ later) rest

/-- A session that begins makes its first calls: none if it is over, one if that call has
something to do. -/
theorem serving_begin (session : Program (Signature.calls ρ α) β) :
    ∃ requests : List ρ,
      Serving body session (requests.map (Call.made body)) [] (session.inline body) := by
  induction session with
  | done value => exact ⟨[], .ended value⟩
  | perform request next ih =>
      cases code : body request with
      | done value =>
          obtain ⟨requests, serving⟩ := ih value
          refine ⟨request :: requests, ?_⟩
          have more := Serving.returned request next [] value serving
          rw [Program.inline, List.map_cons, Call.made, code]
          exact more
      | perform op rest =>
          refine ⟨[request], ?_⟩
          rw [Program.inline, List.map_singleton, Call.made, code]
          exact .inFlight request next [] op rest

variable {body}

/-- The next operation of a session is that of its last call. When the call returns, the
session makes its next calls. -/
theorem Serving.step {session : Program (Signature.calls ρ α) β} {calls : List (Call S ρ α)}
    {op : S.Op} {next : S.Answer op → Program S β}
    (serving : Serving body session calls trace (.perform op next)) :
    ∃ before request own rest, calls = before ++ [⟨request, own, .perform op rest⟩] ∧
      ∀ answer, ∃ requests : List ρ,
        Serving body session
          (before ++ ⟨request, own ++ [⟨op, answer⟩], rest answer⟩ :: requests.map (Call.made body))
          (trace ++ [⟨op, answer⟩]) (next answer) := by
  generalize ahead : (Program.perform op next : Program S β) = remaining at serving
  induction serving with
  | ended value => cases ahead
  | inFlight request following trace op rest =>
      cases ahead
      refine ⟨[], request, trace, rest, rfl, fun answer => ?_⟩
      cases goesOn : rest answer with
      | perform nextOp later =>
          refine ⟨[], ?_⟩
          dsimp only
          rw [goesOn]
          exact .inFlight request following _ nextOp later
      | done value =>
          obtain ⟨requests, begun⟩ := serving_begin body (following value)
          refine ⟨requests, ?_⟩
          have more := Serving.returned request following (trace ++ [⟨op, answer⟩]) value begun
          rw [List.append_nil] at more
          dsimp only
          rw [goesOn]
          exact more
  | returned request following earlier value _ ih =>
      obtain ⟨before, current, own, rest, rfl, goesOn⟩ := ih ahead
      refine ⟨⟨request, earlier, .done value⟩ :: before, current, own, rest, rfl, fun answer => ?_⟩
      obtain ⟨requests, serving⟩ := goesOn answer
      refine ⟨requests, ?_⟩
      rw [List.append_assoc]
      exact Serving.returned request following earlier value serving

/-- A session has performed what its calls have performed, in their order. -/
theorem Serving.trace_eq {session : Program (Signature.calls ρ α) β} {calls : List (Call S ρ α)}
    (serving : Serving body session calls trace rest) :
    trace = calls.flatMap Call.trace := by
  induction serving with
  | ended value => rfl
  | inFlight request next trace op rest => exact (List.append_nil trace).symm
  | returned request next trace value _ ih => rw [List.flatMap_cons, ← ih]

/-- A session calls only what it may. -/
theorem Serving.uses {session : Program (Signature.calls ρ α) β} {calls : List (Call S ρ α)}
    (serving : Serving body session calls trace rest) {allowed : ρ → Prop}
    (uses : session.Uses allowed) : ∀ call ∈ calls, allowed call.request := by
  induction serving with
  | ended value => exact fun _ member => absurd member List.not_mem_nil
  | inFlight request next trace op rest =>
      intro call member
      rw [List.mem_singleton.mp member]
      exact uses.1
  | returned request next trace value _ ih =>
      intro call member
      rcases List.mem_cons.mp member with rfl | inside
      · exact uses.1
      · exact ih (uses.2 value) call inside

/-- The calls that have returned, with their responses, as the session sees them. -/
def exchanges (calls : List (Call S ρ α)) : List (Event (Signature.calls ρ α)) :=
  calls.filterMap fun call => call.result?.map fun response => ⟨call.request, response⟩

/-- A call that has returned is an exchange. -/
theorem exchanges_returned (request : ρ) (trace : List (Event S)) (value : α)
    (calls : List (Call S ρ α)) :
    exchanges (⟨request, trace, .done value⟩ :: calls) = ⟨request, value⟩ :: exchanges calls :=
  rfl

/-- Where a session is, given the responses of its calls: it has ended and so has every call,
or it waits for its last call, the only one that has not returned. -/
theorem Serving.follows {session : Program (Signature.calls ρ α) β} {calls : List (Call S ρ α)}
    (serving : Serving body session calls trace rest) :
    (∃ value, rest = .done value ∧ (∀ call ∈ calls, call.result?.isSome) ∧
        session.Follows (exchanges calls) (.done value)) ∨
      (∃ op next, rest = .perform op next) ∧
      ∃ before last next, calls = before ++ [last] ∧ last.result? = none ∧
        (∀ call ∈ before, call.result?.isSome) ∧
        session.Follows (exchanges calls) (.perform last.request next) := by
  induction serving with
  | ended value =>
      exact Or.inl ⟨value, rfl, fun _ member => absurd member List.not_mem_nil, .refl _⟩
  | inFlight request next trace op rest =>
      exact Or.inr ⟨⟨op, _, rfl⟩, [], _, next, rfl, rfl,
        fun _ member => absurd member List.not_mem_nil, .refl _⟩
  | @returned request next trace value calls later rest serving ih =>
      have first : (⟨request, trace, .done value⟩ : Call S ρ α).result?.isSome := rfl
      rcases ih with ⟨result, ended, finished, follows⟩ |
        ⟨ahead, before, last, following, rfl, pending, finished, follows⟩
      · rw [exchanges_returned]
        refine Or.inl ⟨result, ended, ?_, .called request next value follows⟩
        intro call member
        rcases List.mem_cons.mp member with rfl | inside
        · exact first
        · exact finished call inside
      · rw [exchanges_returned]
        refine Or.inr ⟨ahead, ⟨request, trace, .done value⟩ :: before, last, following, rfl, pending, ?_,
          .called request next value follows⟩
        intro call member
        rcases List.mem_cons.mp member with rfl | inside
        · exact first
        · exact finished call inside

end Serving

/-! ## Many sessions -/

/-- The calls of one session among those of all. -/
def ownedBy (index : Nat) (tagged : List (Nat × Call S ρ α)) : List (Call S ρ α) :=
  (tagged.filter fun entry => entry.1 = index).map Prod.snd

/-- The calls of one owner, with one more in front. -/
theorem ownedBy_cons (index : Nat) (entry : Nat × Call S ρ α) (rest : List (Nat × Call S ρ α)) :
    ownedBy index (entry :: rest) =
      if entry.1 = index then entry.2 :: ownedBy index rest else ownedBy index rest := by
  rw [ownedBy, List.filter_cons]
  split
  · rename_i own
    rw [if_pos (of_decide_eq_true own)]
    rfl
  · rename_i foreign
    rw [if_neg fun own => foreign (decide_eq_true own)]
    rfl

/-- The calls of one owner in two parts. -/
theorem ownedBy_append (index : Nat) (first second : List (Nat × Call S ρ α)) :
    ownedBy index (first ++ second) = ownedBy index first ++ ownedBy index second := by
  rw [ownedBy, List.filter_append, List.map_append]
  rfl

/-- An owner's calls are all their own. -/
theorem ownedBy_own (index : Nat) (calls : List (Call S ρ α)) :
    ownedBy index (calls.map fun call => (index, call)) = calls := by
  rw [ownedBy, List.filter_eq_self.mpr, List.map_map]
  · exact List.map_id calls
  · intro entry member
    obtain ⟨call, _, rfl⟩ := List.mem_map.mp member
    exact decide_eq_true rfl

/-- Calls of others are not among them. -/
theorem ownedBy_foreign {tagged : List (Nat × Call S ρ α)}
    (foreign : ∀ entry ∈ tagged, entry.1 ≠ index) : ownedBy index tagged = [] := by
  rw [ownedBy, List.filter_eq_nil_iff.mpr, List.map_nil]
  intro entry member own
  exact foreign entry member (of_decide_eq_true own)

/-- The last call of a session, among those of all. -/
theorem ownedBy_last {tagged : List (Nat × Call S ρ α)} {before : List (Call S ρ α)}
    {last : Call S ρ α} (owned : ownedBy index tagged = before ++ [last]) :
    ∃ front back, tagged = front ++ (index, last) :: back ∧ ownedBy index front = before ∧
      ownedBy index back = [] := by
  induction tagged generalizing before with
  | nil => exact absurd owned.symm (by simp [ownedBy])
  | cons entry tagged ih =>
      rw [ownedBy_cons] at owned
      by_cases own : entry.1 = index
      · rw [if_pos own] at owned
        cases before with
        | nil =>
            obtain ⟨rfl, rest⟩ := List.cons.inj owned
            exact ⟨[], tagged, by rw [← own]; rfl, rfl, rest⟩
        | cons first before =>
            obtain ⟨rfl, rest⟩ := List.cons.inj owned
            obtain ⟨front, back, rfl, earlier, later⟩ := ih rest
            refine ⟨entry :: front, back, rfl, ?_, later⟩
            rw [ownedBy_cons, if_pos own, earlier]
      · rw [if_neg own] at owned
        obtain ⟨front, back, rfl, earlier, later⟩ := ih owned
        refine ⟨entry :: front, back, rfl, ?_, later⟩
        rw [ownedBy_cons, if_neg own, earlier]

namespace System

/-- Sessions as concurrent programs. -/
def sessions (code : Concurrent S σ ε ρ α) (session : κ → Program (Signature.calls ρ α) β) :
    Concurrent S σ ε κ β where
  program request := (session request).inline code.program
  perform := code.perform

variable {code : Concurrent S σ ε ρ α}

/-- New calls wait behind those there are. -/
theorem foldl_invoke (system : System S σ ρ α) (requests : List ρ) :
    (requests.map Label.invoke).foldl (step code) system =
      { system with calls := system.calls ++ requests.map (Call.made code.program) } := by
  induction requests generalizing system with
  | nil =>
      rw [List.map_nil, List.foldl_nil, List.map_nil, List.append_nil]
  | cons request requests ih =>
      rw [List.map_cons, List.foldl_cons, ih]
      simp only [step, List.append_assoc, List.map_cons]
      rfl

/-- What a schedule invokes is among its calls. -/
theorem run_made (state : σ) (schedule : List (Label ε ρ)) {request : ρ}
    (invoked : .invoke request ∈ schedule) :
    ∃ call ∈ (run code state schedule).calls, call.request = request := by
  induction schedule using List.reverseRecOn with
  | nil => exact absurd invoked List.not_mem_nil
  | append_singleton schedule label ih =>
      rw [run_snoc]
      rcases List.mem_append.mp invoked with earlier | last
      · obtain ⟨call, made, requested⟩ := ih earlier
        obtain ⟨index, found⟩ := List.getElem?_of_mem made
        obtain ⟨later, there, same, _⟩ := step_carryOn code (run code state schedule) label index
          call found
        exact ⟨later, List.mem_of_getElem? there, same.trans requested⟩
      · rw [← List.mem_singleton.mp last]
        exact ⟨_, List.mem_append_right _ (List.mem_singleton_self _), rfl⟩

variable (code) (session : κ → Program (Signature.calls ρ α) β)

/-- Calls that do what the sessions do, each with the session it belongs to. -/
structure Layered (outer : System S σ κ β) (inner : System S σ ρ α)
    (tagged : List (Nat × Call S ρ α)) : Prop where
  calls : inner.calls = tagged.map Prod.snd
  state : inner.state = outer.state
  history : inner.history = outer.history
  serving : ∀ index call, outer.calls[index]? = some call →
    Serving code.program (session call.request) (ownedBy index tagged) call.trace call.rest
  known : ∀ entry ∈ tagged, entry.1 < outer.calls.length

variable {code session} {outer : System S σ κ β} {inner : System S σ ρ α}
  {tagged : List (Nat × Call S ρ α)}

/-- A session arrives with its first calls. -/
theorem Layered.invoke (layered : Layered code session outer inner tagged) (request : κ) :
    ∃ (labels : List (Label ε ρ)) (tagged : List (Nat × Call S ρ α)),
      Layered code session (outer.step (sessions code session) (.invoke request))
      (labels.foldl (step code) inner) tagged := by
  obtain ⟨requests, begun⟩ := serving_begin code.program (session request)
  refine ⟨requests.map Label.invoke, tagged ++ (requests.map (Call.made code.program)).map
    fun call => (outer.calls.length, call), ?_⟩
  rw [foldl_invoke]
  have fresh : ownedBy outer.calls.length tagged = [] :=
    ownedBy_foreign fun entry member => Nat.ne_of_lt (layered.known entry member)
  refine ⟨?_, layered.state, layered.history, ?_, ?_⟩
  · rw [List.map_append, layered.calls, List.map_map]
    exact congrArg (_ ++ ·) (List.map_id _).symm
  · intro index call found
    rcases Nat.lt_or_ge index outer.calls.length with earlier | later
    · have other : ownedBy index ((requests.map (Call.made code.program)).map
          fun call => (outer.calls.length, call)) = [] := by
        refine ownedBy_foreign fun entry member => ?_
        obtain ⟨_, _, rfl⟩ := List.mem_map.mp member
        exact Nat.ne_of_gt earlier
      rw [ownedBy_append, other, List.append_nil]
      refine layered.serving index call ?_
      rwa [step, List.getElem?_append_left earlier] at found
    · rw [step, List.getElem?_append_right later, List.getElem?_singleton] at found
      split at found
      · rename_i zero
        obtain rfl : index = outer.calls.length := by omega
        cases found
        rw [ownedBy_append, fresh, List.nil_append, ownedBy_own]
        exact begun
      · cases found
  · intro entry member
    rw [step, List.length_append]
    rcases List.mem_append.mp member with earlier | new
    · exact Nat.lt_add_right _ (layered.known entry earlier)
    · obtain ⟨_, _, rfl⟩ := List.mem_map.mp new
      exact Nat.lt_succ_self _

/-- A session goes on by its last call, and makes the next ones when that returns. -/
theorem Layered.advance (layered : Layered code session outer inner tagged) (environment : ε)
    {request : κ} {op : S.Op} {next : S.Answer op → Program S β}
    (found : outer.calls[index]? = some ⟨request, trace, .perform op next⟩) :
    ∃ (labels : List (Label ε ρ)) (tagged : List (Nat × Call S ρ α)), Layered code session
      (outer.step (sessions code session) (.advance index environment))
      (labels.foldl (step code) inner) tagged := by
  obtain ⟨before, asked, own, rest, owned, goesOn⟩ := (layered.serving index _ found).step
  obtain ⟨front, back, rfl, earlier, later⟩ := ownedBy_last owned
  obtain ⟨requests, serving⟩ := goesOn (code.perform environment op outer.state).1
  let outcome := code.perform environment op outer.state
  let moved : Call S ρ α := ⟨asked, own ++ [⟨op, outcome.1⟩], rest outcome.1⟩
  let opened : List (Nat × Call S ρ α) :=
    (requests.map (Call.made code.program)).map fun call => (index, call)
  -- What the session does and what its call does.
  have outside : outer.step (sessions code session) (.advance index environment) =
      ⟨outcome.2, outer.calls.set index ⟨request, trace ++ [⟨op, outcome.1⟩], next outcome.1⟩,
        outer.history ++ [⟨op, outcome.1⟩]⟩ := by
    simp only [step, found]
    rfl
  have here : inner.calls[front.length]? = some ⟨asked, own, .perform op rest⟩ := by
    rw [layered.calls, List.map_append, List.map_cons, List.getElem?_append_right (by simp)]
    simp
  have inside : inner.step code (.advance front.length environment) =
      ⟨outcome.2, front.map Prod.snd ++ moved :: back.map Prod.snd,
        outer.history ++ [⟨op, outcome.1⟩]⟩ := by
    have placed : inner.calls.set front.length moved =
        front.map Prod.snd ++ moved :: back.map Prod.snd := by
      rw [layered.calls, List.map_append, List.map_cons, List.set_append_right _ _ (by simp)]
      simp
    simp only [step, here, layered.state, layered.history]
    exact congrArg (System.mk outcome.2 · _) placed
  refine ⟨.advance front.length environment :: requests.map Label.invoke,
    (front ++ (index, moved) :: back) ++ opened, ?_⟩
  rw [List.foldl_cons, inside, foldl_invoke, outside]
  have others : ∀ other, other ≠ index →
      ownedBy other ((front ++ (index, moved) :: back) ++ opened) =
        ownedBy other (front ++ (index, ⟨asked, own, .perform op rest⟩) :: back) := by
    intro other different
    have none : ownedBy other opened = [] := by
      refine ownedBy_foreign fun entry member => ?_
      obtain ⟨_, _, rfl⟩ := List.mem_map.mp member
      exact Ne.symm different
    rw [ownedBy_append, none, List.append_nil, ownedBy_append, ownedBy_append, ownedBy_cons,
      ownedBy_cons, if_neg (Ne.symm different), if_neg (Ne.symm different)]
  have itself : ownedBy index ((front ++ (index, moved) :: back) ++ opened) =
      before ++ moved :: requests.map (Call.made code.program) := by
    rw [ownedBy_append, ownedBy_own, ownedBy_append, ownedBy_cons, if_pos rfl, earlier, later,
      List.append_assoc]
    rfl
  obtain ⟨bound, _⟩ := List.getElem?_eq_some_iff.mp found
  refine ⟨?_, rfl, rfl, ?_, ?_⟩
  · simp only [opened, List.map_append, List.map_cons, List.map_map]
    exact congrArg (_ ++ ·) (List.map_congr_left fun _ _ => rfl)
  · intro other call called
    by_cases same : other = index
    · subst same
      rw [List.getElem?_set_self bound, Option.some.injEq] at called
      rw [itself, ← called]
      exact serving
    · rw [List.getElem?_set_ne (Ne.symm same)] at called
      rw [others other same]
      exact layered.serving other call called
  · intro entry member
    rw [List.length_set]
    rcases List.mem_append.mp member with old | new
    · rcases List.mem_append.mp old with inFront | inBack
      · exact layered.known entry (List.mem_append_left _ inFront)
      · rcases List.mem_cons.mp inBack with rfl | behind
        · exact bound
        · exact layered.known entry (List.mem_append_right _ (List.mem_cons_of_mem _ behind))
    · obtain ⟨_, _, rfl⟩ := List.mem_map.mp new
      exact bound

/-- Every call belongs to a session, which may make it. -/
theorem Layered.uses (layered : Layered code session outer inner tagged) {allowed : ρ → Prop}
    (uses : ∀ request, (session request).Uses allowed) :
    ∀ call ∈ inner.calls, allowed call.request := by
  intro call made
  rw [layered.calls] at made
  obtain ⟨entry, member, rfl⟩ := List.mem_map.mp made
  have known := layered.known entry member
  have serving := layered.serving entry.1 _ (List.getElem?_eq_getElem known)
  refine serving.uses (uses _) entry.2 (List.mem_map.mpr ⟨entry, ?_, rfl⟩)
  exact List.mem_filter.mpr ⟨member, decide_eq_true rfl⟩

/-- Every interleaving of sessions is one of calls. -/
theorem layered_run (code : Concurrent S σ ε ρ α) (session : κ → Program (Signature.calls ρ α) β)
    (state : σ) (schedule : List (Label ε κ)) :
    ∃ (labels : List (Label ε ρ)) (tagged : List (Nat × Call S ρ α)),
      Layered code session (run (sessions code session) state schedule) (run code state labels)
        tagged := by
  induction schedule using List.reverseRecOn with
  | nil =>
      exact ⟨[], [], rfl, rfl, rfl, fun _ _ found => (by cases found),
        fun _ member => absurd member List.not_mem_nil⟩
  | append_singleton schedule label ih =>
      obtain ⟨labels, tagged, layered⟩ := ih
      have more : ∃ (later : List (Label ε ρ)) (tagged : List (Nat × Call S ρ α)),
          Layered code session
            ((run (sessions code session) state schedule).step (sessions code session) label)
            (later.foldl (step code) (run code state labels)) tagged := by
        rcases step_cases (sessions code session) (run (sessions code session) state schedule) label
          with ⟨request, rfl, _⟩ | ⟨index, environment, request, trace, op, next, rfl, found, _⟩ |
            stays
        · exact layered.invoke request
        · exact layered.advance environment found
        · rw [stays]
          exact ⟨[], tagged, layered⟩
      obtain ⟨later, moved, still⟩ := more
      refine ⟨labels ++ later, moved, ?_⟩
      rw [run_snoc, run_append]
      exact still

end System

end Foundation
