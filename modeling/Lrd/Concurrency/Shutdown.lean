import Lrd.Concurrency.ThreadPool

/-!
# Concurrent calls of `shutdown`

Any number of threads call `ThreadPool::shutdown` while others post and the workers run.
A call takes the mutex once. The first to do so stops the pool and then joins the workers
one by one; every later call finds the pool stopping and returns at once, whether or not
the workers have left by then.

So a call that has returned has stopped the pool only if no call is still joining
(`stopped_when_returned`). A second call may return to its caller while a task runs and
another is about to start (`returns_while_running`).
-/

namespace Lrd.Concurrency

open Foundation

/-- How far a call of `shutdown` is. -/
inductive Call where
  | pending
  | joining (next : Nat)
  | returned
deriving DecidableEq, Repr

/-- The pool, which of its threads have been joined, and the calls of `shutdown`. -/
structure Shutdowns (Caller Task : Type) (size : PoolSize) where
  pool : ThreadPool Task size
  joined : Fin size.threadCount → Bool
  calls : Caller → Call

/-- The steps of the pool, a call that takes the mutex, and one that goes on joining. -/
inductive ShutdownStep (Caller Task : Type) (size : PoolSize) where
  | post (task : Task)
  | pop (worker : Fin size.threadCount)
  | complete (worker : Fin size.threadCount)
  | throw (worker : Fin size.threadCount)
  | enter (caller : Caller) (policy : ShutdownPolicy)
  | join (caller : Caller)

namespace Shutdowns

variable {Caller Task : Type} [DecidableEq Caller] {size : PoolSize}

/-- A pool that nobody has shut down. -/
def create (Caller Task : Type) (size : PoolSize) : Shutdowns Caller Task size :=
  ⟨ThreadPool.create Task size, fun _ => false, fun _ => .pending⟩

/-- A step of the pool itself. -/
def act (state : Shutdowns Caller Task size) (step : PoolStep Task size) :
    PoolOutcome Task × Shutdowns Caller Task size :=
  let acted := (ThreadPool.machine Task size).step state.pool step
  (acted.1, { state with pool := acted.2 })

/-- The critical section of a call. -/
def enter (state : Shutdowns Caller Task size) (caller : Caller) (policy : ShutdownPolicy) :
    PoolOutcome Task × Shutdowns Caller Task size :=
  match state.calls caller with
  | .pending =>
      let stopped := state.pool.shutdown policy
      let call := if state.pool.stopping then .returned else .joining 0
      (.stopped stopped.1,
        { state with pool := stopped.2, calls := Function.update state.calls caller call })
  | _ => (.nothing, state)

/-- One turn of the loop that joins. A thread is joinable until it has been joined, and
joining it waits until it has left its loop. -/
def join (state : Shutdowns Caller Task size) (caller : Caller) : Shutdowns Caller Task size :=
  match state.calls caller with
  | .joining next =>
      if inside : next < size.threadCount then
        let passed := Function.update state.calls caller (.joining (next + 1))
        if state.joined ⟨next, inside⟩ then { state with calls := passed }
        else
          match state.pool.workers ⟨next, inside⟩ with
          | .exited =>
              { state with
                joined := Function.update state.joined ⟨next, inside⟩ true
                calls := passed }
          | _ => state
      else { state with calls := Function.update state.calls caller .returned }
  | _ => state

/-- The pool and its callers as a machine. -/
def machine (Caller Task : Type) [DecidableEq Caller] (size : PoolSize) :
    Machine (Shutdowns Caller Task size) (ShutdownStep Caller Task size) (PoolOutcome Task) where
  step state
    | .post task => state.act (.post task)
    | .pop worker => state.act (.pop worker)
    | .complete worker => state.act (.complete worker)
    | .throw worker => state.act (.throw worker)
    | .enter caller policy => state.enter caller policy
    | .join caller => (.nothing, state.join caller)

/-! ## What a step can do -/

/-- The moves of the pool and of the calls. -/
inductive Moves (state : Shutdowns Caller Task size) :
    PoolOutcome Task → Shutdowns Caller Task size → Prop where
  | act {step : PoolStep Task size} {outcome : PoolOutcome Task} {pool : ThreadPool Task size}
      (moves : state.pool.Moves step outcome pool)
      (other : ∀ policy, step ≠ .shutdown policy) :
      Moves state outcome { state with pool := pool }
  | first {caller : Caller} {policy : ShutdownPolicy} {dropped : List Task}
      {pool : ThreadPool Task size} (pending : state.calls caller = .pending)
      (running : state.pool.stopping = false)
      (moves : state.pool.Moves (.shutdown policy) (.stopped dropped) pool) :
      Moves state (.stopped dropped)
        { state with pool := pool, calls := Function.update state.calls caller (.joining 0) }
  | late {caller : Caller} (pending : state.calls caller = .pending)
      (stopping : state.pool.stopping = true) :
      Moves state (.stopped [])
        { state with calls := Function.update state.calls caller .returned }
  | skip {caller : Caller} {worker : Fin size.threadCount}
      (joining : state.calls caller = .joining worker) (joined : state.joined worker = true) :
      Moves state .nothing
        { state with calls := Function.update state.calls caller (.joining (worker + 1)) }
  | join {caller : Caller} {worker : Fin size.threadCount}
      (joining : state.calls caller = .joining worker)
      (gone : state.pool.workers worker = .exited) :
      Moves state .nothing
        { state with
          joined := Function.update state.joined worker true
          calls := Function.update state.calls caller (.joining (worker + 1)) }
  | leave {caller : Caller} {next : Nat} (joining : state.calls caller = .joining next)
      (all : size.threadCount ≤ next) :
      Moves state .nothing
        { state with calls := Function.update state.calls caller .returned }
  | nothing : Moves state .nothing state

/-- What entering `shutdown` can do. -/
theorem moves_enter (state : Shutdowns Caller Task size) (caller : Caller)
    (policy : ShutdownPolicy) :
    Moves state (state.enter caller policy).1 (state.enter caller policy).2 := by
  unfold enter
  split
  · rename_i pending
    have moves := state.pool.moves_shutdown policy
    cases stopping : state.pool.stopping with
    | false => exact .first pending stopping moves
    | true =>
        simp only [ThreadPool.shutdown, stopping, ↓reduceIte]
        exact .late pending stopping
  · exact .nothing

/-- What joining can do. -/
theorem moves_join (state : Shutdowns Caller Task size) (caller : Caller) :
    Moves state .nothing (state.join caller) := by
  unfold join
  split
  · rename_i next joining
    split
    · rename_i inside
      dsimp only
      split
      · rename_i joined
        exact .skip joining joined
      · split
        · rename_i gone
          exact .join joining gone
        · exact .nothing
    · rename_i outside
      exact .leave joining (Nat.not_lt.mp outside)
  · exact .nothing

/-- What any step can do. -/
theorem moves_step (state : Shutdowns Caller Task size) (step : ShutdownStep Caller Task size) :
    Moves state ((machine Caller Task size).step state step).1
      ((machine Caller Task size).step state step).2 := by
  cases step with
  | post task => exact .act (state.pool.moves_step (.post task)) (by simp)
  | pop worker => exact .act (state.pool.moves_step (.pop worker)) (by simp)
  | complete worker => exact .act (state.pool.moves_step (.complete worker)) (by simp)
  | throw worker => exact .act (state.pool.moves_step (.throw worker)) (by simp)
  | enter caller policy => exact state.moves_enter caller policy
  | join caller => exact state.moves_join caller

variable {outcome : PoolOutcome Task} {caller : Caller}

/-- Seen from the pool, a step is one of its moves. -/
theorem Moves.pool {state next : Shutdowns Caller Task size} (moves : Moves state outcome next) :
    ∃ step, state.pool.Moves step outcome next.pool := by
  cases moves with
  | act moves _ => exact ⟨_, moves⟩
  | first _ _ moves => exact ⟨_, moves⟩
  | late _ stopping => exact ⟨.shutdown .drain, .again _ stopping⟩
  | skip => exact ⟨.shutdown .drain, .nothing _⟩
  | join => exact ⟨.shutdown .drain, .nothing _⟩
  | leave => exact ⟨.shutdown .drain, .nothing _⟩
  | nothing => exact ⟨.shutdown .drain, .nothing _⟩

/-! ## Joining -/

/-- The tasks are conserved; a joined thread has left its loop, and so have those that a
call has passed; a call that has taken the mutex has left the pool stopping; and a pool
that is stopping is being joined or has been. -/
structure Joins (ledger : Ledger Task) (state : Shutdowns Caller Task size) : Prop where
  conserved : ThreadPool.Conserved ledger state.pool
  joined : ∀ worker, state.joined worker = true → state.pool.workers worker = .exited
  passed : ∀ caller next, state.calls caller = .joining next →
    ∀ worker : Fin size.threadCount, worker < next → state.pool.workers worker = .exited
  called : ∀ caller, state.calls caller ≠ .pending → state.pool.stopping = true
  settled : state.pool.stopping = true →
    (∃ caller next, state.calls caller = .joining next) ∨
      ∀ worker, state.pool.workers worker = .exited

section Step

variable {ledger : Ledger Task} {state : Shutdowns Caller Task size}

omit [DecidableEq Caller] in
/-- A thread that has left its loop may be joined. -/
theorem Joins.mark (joins : Joins ledger state) {worker : Fin size.threadCount}
    (gone : state.pool.workers worker = .exited) :
    Joins ledger { state with joined := Function.update state.joined worker true } :=
  { joins with
    joined := fun other (joined : Function.update state.joined worker true other = true) => by
      by_cases same : other = worker
      · subst same
        exact gone
      · rw [Function.update_of_ne same] at joined
        exact joins.joined other joined }

/-- A call may go on while the pool is stopping, if the threads it has passed have left
and the pool is still being joined or has been. -/
theorem Joins.advance (joins : Joins ledger state) (stopping : state.pool.stopping = true)
    {call : Call}
    (passed : ∀ next, call = .joining next → ∀ worker : Fin size.threadCount, worker < next →
      state.pool.workers worker = .exited)
    (settled : (∃ other next, Function.update state.calls caller call other = .joining next) ∨
      ∀ worker, state.pool.workers worker = .exited) :
    Joins ledger { state with calls := Function.update state.calls caller call } :=
  { joins with
    passed := fun other next
        (joining : Function.update state.calls caller call other = .joining next) => by
      by_cases same : other = caller
      · subst same
        rw [Function.update_self] at joining
        exact passed next joining
      · rw [Function.update_of_ne same] at joining
        exact joins.passed other next joining
    called := fun _ _ => stopping
    settled := fun _ => settled }

/-- A call that has joined a thread goes on to the next. -/
theorem Joins.pass (joins : Joins ledger state) {worker : Fin size.threadCount}
    (joining : state.calls caller = .joining worker) (gone : state.pool.workers worker = .exited) :
    Joins ledger
      { state with calls := Function.update state.calls caller (.joining (worker + 1)) } := by
  have stopping : state.pool.stopping = true := joins.called caller (by simp [joining])
  refine joins.advance stopping ?_ (.inl ⟨caller, _, Function.update_self ..⟩)
  intro next same other before
  cases same
  obtain earlier | rfl : other < worker ∨ other = worker := by omega
  · exact joins.passed caller worker joining other earlier
  · exact gone

omit [DecidableEq Caller] in
/-- What the pool does between the calls, when it neither stops nor starts again. -/
theorem Joins.act (joins : Joins ledger state) {pool : ThreadPool Task size}
    {step : PoolStep Task size} (moves : state.pool.Moves step outcome pool)
    (other : ∀ policy, step ≠ .shutdown policy) :
    Joins (ledger.record outcome) { state with pool } := by
  have same := moves.stopping_eq other
  refine ⟨joins.conserved.step moves, ?_, ?_, ?_, ?_⟩
  · intro worker joined
    exact moves.stays_exited (joins.joined worker joined)
  · intro caller next joining worker before
    exact moves.stays_exited (joins.passed caller next joining worker before)
  · intro caller made
    exact same.trans (joins.called caller made)
  · intro stopping
    obtain busy | gone := joins.settled (same.symm.trans stopping)
    · exact .inl busy
    · exact .inr fun worker => moves.stays_exited (gone worker)

/-- The first call stops the pool and has passed no thread yet. -/
theorem Joins.first (joins : Joins ledger state) {pool : ThreadPool Task size}
    {policy : ShutdownPolicy} (caller : Caller)
    (moves : state.pool.Moves (.shutdown policy) outcome pool) (stopped : pool.stopping = true) :
    Joins (ledger.record outcome)
      { state with pool, calls := Function.update state.calls caller (.joining 0) } := by
  refine ⟨joins.conserved.step moves, ?_, ?_, fun _ _ => stopped, ?_⟩
  · intro worker joined
    exact moves.stays_exited (joins.joined worker joined)
  · intro other next (joining : Function.update state.calls caller (.joining 0) other = _) worker
      before
    by_cases same : other = caller
    · subst same
      rw [Function.update_self] at joining
      cases joining
      exact absurd before (Nat.not_lt_zero _)
    · rw [Function.update_of_ne same] at joining
      exact moves.stays_exited (joins.passed other next joining worker before)
  · intro _
    exact .inl ⟨caller, 0, Function.update_self ..⟩

/-- A call that finds the pool stopping returns, and leaves the joining to others. -/
theorem Joins.late (joins : Joins ledger state) (pending : state.calls caller = .pending)
    (stopping : state.pool.stopping = true) :
    Joins ledger { state with calls := Function.update state.calls caller .returned } := by
  refine joins.advance stopping (fun next impossible => by cases impossible) ?_
  obtain ⟨other, next, joining⟩ | gone := joins.settled stopping
  · have different : other ≠ caller := by
      rintro rfl
      rw [pending] at joining
      cases joining
    exact .inl ⟨other, next, (Function.update_of_ne different ..).trans joining⟩
  · exact .inr gone

/-- A call returns from its loop when it has passed every thread. -/
theorem Joins.leave (joins : Joins ledger state) {next : Nat}
    (joining : state.calls caller = .joining next) (all : size.threadCount ≤ next) :
    Joins ledger { state with calls := Function.update state.calls caller .returned } := by
  have stopping : state.pool.stopping = true := joins.called caller (by simp [joining])
  refine joins.advance stopping (fun next impossible => by cases impossible) ?_
  right
  intro worker
  exact joins.passed caller next joining worker (worker.isLt.trans_le all)

/-- Every step keeps the order of joining. -/
theorem Joins.step {next : Shutdowns Caller Task size} (joins : Joins ledger state)
    (moves : Moves state outcome next) :
    Joins (ledger.record outcome) next := by
  cases moves with
  | act moves other => exact joins.act moves other
  | @first caller policy dropped pool pending running moves =>
      have stopped : pool.stopping = true := by
        cases moves with
        | drain => rfl
        | discard => rfl
        | again _ stopping => exact stopping
      exact joins.first caller moves stopped
  | late pending stopping =>
      rw [Ledger.record, List.append_nil]
      exact joins.late pending stopping
  | skip joining joined => exact joins.pass joining (joins.joined _ joined)
  | join joining gone => exact (joins.mark gone).pass joining gone
  | leave joining all => exact joins.leave joining all
  | nothing => exact joins

end Step

/-! ## Runs -/

/-- The pool and the calls after a sequence of steps, and what happened to the tasks. -/
def ran (Caller Task : Type) [DecidableEq Caller] (size : PoolSize)
    (steps : List (ShutdownStep Caller Task size)) : Ledger Task × Shutdowns Caller Task size :=
  let run := (machine Caller Task size).run (create Caller Task size) steps
  (Ledger.recordAll {} run.1, run.2)

/-- A longer run goes on from where the shorter one has ended. -/
theorem ran_append (earlier later : List (ShutdownStep Caller Task size)) :
    ran Caller Task size (earlier ++ later) =
      let rest := (machine Caller Task size).run (ran Caller Task size earlier).2 later
      ((ran Caller Task size earlier).1.recordAll rest.1, rest.2) := by
  rw [ran, Machine.run_append]
  exact Prod.ext (List.foldl_append ..) rfl

/-- The invariant of joining holds in every run. -/
theorem ran_joins (steps : List (ShutdownStep Caller Task size)) :
    Joins (ran Caller Task size steps).1 (ran Caller Task size steps).2 := by
  refine Machine.run_invariant (fun transcript state =>
    Joins (Ledger.recordAll {} transcript) state) ?_ ?_ steps
  · exact
      { conserved := ThreadPool.ran_conserved []
        joined := fun _ impossible => by cases impossible
        passed := fun _ _ impossible => by cases impossible
        called := fun _ made => absurd rfl made
        settled := fun impossible => by cases impossible }
  · intro transcript state step joins
    rw [Ledger.recordAll_snoc]
    exact joins.step (state.moves_step step)

/-- A pool that is stopping with no worker and no task left stays so. -/
theorem run_stopped {state : Shutdowns Caller Task size} (stopping : state.pool.stopping = true)
    (empty : state.pool.queue = []) (gone : ∀ worker, state.pool.workers worker = .exited)
    (ledger : Ledger Task) (later : List (ShutdownStep Caller Task size)) :
    let rest := (machine Caller Task size).run state later
    (rest.2.pool.stopping = true ∧ rest.2.pool.queue = []) ∧
      (∀ worker, rest.2.pool.workers worker = .exited) ∧
      (ledger.recordAll rest.1).started = ledger.started := by
  refine Machine.run_invariant (fun transcript (current : Shutdowns Caller Task size) =>
    (current.pool.stopping = true ∧ current.pool.queue = []) ∧
      (∀ worker, current.pool.workers worker = .exited) ∧
      (ledger.recordAll transcript).started = ledger.started)
    ⟨⟨stopping, empty⟩, gone, rfl⟩ ?_ later
  rintro transcript current step ⟨⟨still, none⟩, left, started⟩
  obtain ⟨_, moves⟩ := (current.moves_step step).pool
  rw [Ledger.recordAll_snoc, ← started]
  obtain ⟨none, started⟩ := moves.emptied still none (ledger.recordAll transcript)
  exact ⟨⟨(moves.stopped still ledger).1, none⟩, fun worker => moves.stays_exited (left worker),
    started⟩

/-- When a call of `shutdown` has returned and no call is still joining, the pool is stopped.
Whatever the number of callers, their policies and the interleaving with posts and workers:
every worker has left its loop, no task is running, and both stay so, no task being started
by anything that follows. -/
theorem stopped_when_returned (steps : List (ShutdownStep Caller Task size)) (caller : Caller)
    (returned : (ran Caller Task size steps).2.calls caller = .returned)
    (joined : ∀ other next, (ran Caller Task size steps).2.calls other ≠ .joining next) :
    let ledger := (ran Caller Task size steps).1
    let pool := (ran Caller Task size steps).2.pool
    (∀ worker, pool.workers worker = .exited) ∧ pool.running = [] ∧
      ∀ later, (ran Caller Task size (steps ++ later)).1.started = ledger.started ∧
        ∀ worker, (ran Caller Task size (steps ++ later)).2.pool.workers worker = .exited := by
  intro ledger pool
  have joins : Joins ledger (ran Caller Task size steps).2 := ran_joins steps
  have stopping : pool.stopping = true := joins.called caller (by simp [returned])
  have gone : ∀ worker, pool.workers worker = .exited := by
    obtain ⟨other, next, joining⟩ | gone := joins.settled stopping
    · exact absurd joining (joined other next)
    · exact gone
  obtain ⟨empty, idle⟩ := joins.conserved.all_left gone
  refine ⟨gone, idle, fun later => ?_⟩
  rw [ran_append]
  obtain ⟨_, left, started⟩ := run_stopped stopping empty gone ledger later
  exact ⟨started, left⟩

section Cases

/-- A pool with one worker. -/
private def oneWorker : PoolSize := ⟨1, 2, Nat.one_pos, Nat.two_pos⟩

/-- Its worker. -/
private def theWorker : Fin oneWorker.threadCount := ⟨0, oneWorker.someThread⟩

/-- Two callers and a task: the first caller joins the worker once it has drained the queue. -/
theorem stopped_when_returned_drained :
    let steps : List (ShutdownStep Bool Nat oneWorker) :=
      [.post 1, .enter true .drain, .enter false .discard, .pop theWorker, .complete theWorker,
        .pop theWorker, .join true, .join true]
    (ran Bool Nat oneWorker steps).2.calls true = .returned ∧
      ∀ worker, (ran Bool Nat oneWorker steps).2.pool.workers worker = .exited := by
  refine ⟨rfl, (stopped_when_returned _ true rfl ?_).1⟩
  intro other next
  cases other with
  | false => exact Call.noConfusion
  | true => exact Call.noConfusion

/-- Two callers and two tasks: the second caller has its call returned while the worker runs
the first task, and the second task is started afterwards. -/
theorem returns_while_running :
    let steps : List (ShutdownStep Bool Nat oneWorker) :=
      [.post 1, .post 2, .pop theWorker, .enter true .drain, .enter false .drain]
    let state := (ran Bool Nat oneWorker steps).2
    state.calls false = .returned ∧ state.pool.workers theWorker = .running 1 ∧
      state.pool.running = [1] ∧ (ran Bool Nat oneWorker steps).1.started = [1] ∧
      (ran Bool Nat oneWorker (steps ++ [.complete theWorker, .pop theWorker])).1.started = [1, 2] :=
  ⟨rfl, rfl, rfl, rfl, rfl⟩

end Cases

end Shutdowns

end Lrd.Concurrency
