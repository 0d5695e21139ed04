import Lrd.Concurrency.ThreadPool

/-!
# Waiting for work

The pool with the condition variable its workers wait on. A worker checks for work under
the mutex and, finding none, goes to sleep in the same step. It wakes when it is notified,
or for no reason at all, and checks again. `post` and `shutdown` notify only after they have
released the mutex, so a notification may be pending while anything else happens: other
posts, workers that take the task before anyone is woken, workers that go to sleep.

Nobody sleeps on work (`never_sleeps_on_work`): as long as a task is queued, a notification
is pending or some worker is awake, and that worker checks before it sleeps again.
-/

namespace Lrd.Concurrency

open Foundation

/-- The pool, which of its workers sleep in the wait, and how many calls of `post` and of
`shutdown` have left their critical section but have not notified yet. -/
structure Wakeups (Task : Type) (size : PoolSize) where
  pool : ThreadPool Task size
  asleep : Fin size.threadCount → Bool
  notifyingOne : Nat
  notifyingAll : Nat

/-- The critical sections of `post` and `shutdown`, their notifications, and what workers
do. The worker that `notify_one` wakes is the platform's choice. -/
inductive WakeupStep (Task : Type) (size : PoolSize) where
  | post (task : Task)
  | shutdown (policy : ShutdownPolicy)
  | notifyOne (choice : Fin size.threadCount)
  | notifyAll
  | spurious (worker : Fin size.threadCount)
  | check (worker : Fin size.threadCount)
  | complete (worker : Fin size.threadCount)
  | throw (worker : Fin size.threadCount)

namespace Wakeups

variable {Task : Type} {size : PoolSize}

/-- Threads start awake. -/
def create (Task : Type) (size : PoolSize) : Wakeups Task size :=
  ⟨ThreadPool.create Task size, fun _ => false, 0, 0⟩

/-- An accepted task is to be notified of. -/
def post (state : Wakeups Task size) (task : Task) : Wakeups Task size :=
  let posted := state.pool.post task
  { state with
    pool := posted.2
    notifyingOne :=
      if posted.1 = .accepted then state.notifyingOne + 1 else state.notifyingOne }

/-- The first shutdown is to be notified of; a later one returns at once. -/
def shutdown (state : Wakeups Task size) (policy : ShutdownPolicy) : Wakeups Task size :=
  { state with
    pool := (state.pool.shutdown policy).2
    notifyingAll := if state.pool.stopping then state.notifyingAll else state.notifyingAll + 1 }

/-- A worker wakes up, notified or not. -/
def wake (state : Wakeups Task size) (worker : Fin size.threadCount) : Wakeups Task size :=
  { state with asleep := Function.update state.asleep worker false }

/-- A pending `notify_one` wakes one sleeper, or nobody if nobody sleeps. -/
def notifyOne (state : Wakeups Task size) (choice : Fin size.threadCount) : Wakeups Task size :=
  if state.notifyingOne = 0 then state
  else if state.asleep choice then
    { state.wake choice with notifyingOne := state.notifyingOne - 1 }
  else if ∀ worker, state.asleep worker = false then
    { state with notifyingOne := state.notifyingOne - 1 }
  else state

/-- All who sleep are woken. -/
def notifyAll (state : Wakeups Task size) : Wakeups Task size :=
  if state.notifyingAll = 0 then state
  else { state with asleep := fun _ => false, notifyingAll := state.notifyingAll - 1 }

/-- One turn of the wait: a worker that is awake takes a task or leaves its loop, or goes
to sleep if the predicate is false. -/
def check (state : Wakeups Task size) (worker : Fin size.threadCount) : Wakeups Task size :=
  match state.pool.workers worker with
  | .waiting =>
      if state.asleep worker then state
      else if state.pool.stopping || !state.pool.queue.isEmpty then
        { state with pool := (state.pool.pop worker).2 }
      else { state with asleep := Function.update state.asleep worker true }
  | _ => state

/-- The pool with its condition variable as a machine. -/
def machine (Task : Type) (size : PoolSize) :
    Machine (Wakeups Task size) (WakeupStep Task size) Unit where
  step state
    | .post task => ((), state.post task)
    | .shutdown policy => ((), state.shutdown policy)
    | .notifyOne choice => ((), state.notifyOne choice)
    | .notifyAll => ((), state.notifyAll)
    | .spurious worker => ((), state.wake worker)
    | .check worker => ((), state.check worker)
    | .complete worker => ((), { state with pool := (state.pool.complete worker).2 })
    | .throw worker => ((), { state with pool := (state.pool.throw worker).2 })

/-! ## Someone is awake -/

/-- The pool is one that its own steps reach. Only workers that wait for work sleep. While
a task is queued, a notification is pending or someone is awake; while the pool is stopping,
the notification of all is pending or everyone is awake. -/
structure Alert (state : Wakeups Task size) : Prop where
  reached : ∃ steps, (ThreadPool.ran Task size steps).2 = state.pool
  dozing : ∀ worker, state.asleep worker = true → state.pool.workers worker = .waiting
  tasks : state.pool.queue ≠ [] →
    0 < state.notifyingOne ∨ 0 < state.notifyingAll ∨ ∃ worker, state.asleep worker = false
  stops : state.pool.stopping = true →
    0 < state.notifyingAll ∨ ∀ worker, state.asleep worker = false

/-- At first everybody is awake. -/
theorem alert_create (Task : Type) (size : PoolSize) : Alert (create Task size) where
  reached := ⟨[], rfl⟩
  dozing := fun _ sleeps => by cases sleeps
  tasks := fun queued => absurd rfl queued
  stops := fun stopping => by cases stopping

section Steps

variable {state : Wakeups Task size}

/-- The pool goes on by steps of its own. -/
theorem Alert.reached_step (alert : Alert state) (step : PoolStep Task size) :
    ∃ steps, (ThreadPool.ran Task size steps).2 =
      ((ThreadPool.machine Task size).step state.pool step).2 := by
  obtain ⟨steps, reached⟩ := alert.reached
  refine ⟨steps ++ [step], ?_⟩
  rw [ThreadPool.ran, Machine.run_snoc, ← reached]
  rfl

/-- A post leaves a notification to be sent. -/
theorem Alert.post (alert : Alert state) (task : Task) : Alert (state.post task) := by
  have reached : ∃ steps, (ThreadPool.ran Task size steps).2 = (state.pool.post task).2 :=
    alert.reached_step (.post task)
  have moves := state.pool.moves_post task
  unfold Wakeups.post
  generalize state.pool.post task = posted at reached moves
  obtain ⟨status, next⟩ := posted
  cases moves with
  | refuse task status refused =>
      simp only [if_neg refused]
      exact { alert with reached := reached }
  | accept task running room =>
      exact
        { reached := reached
          dozing := alert.dozing
          tasks := fun _ => Or.inl (Nat.succ_pos _)
          stops := alert.stops }

/-- A shutdown leaves a notification to be sent. -/
theorem Alert.shutdown (alert : Alert state) (policy : ShutdownPolicy) :
    Alert (state.shutdown policy) := by
  have reached : ∃ steps, (ThreadPool.ran Task size steps).2 = (state.pool.shutdown policy).2 :=
    alert.reached_step (.shutdown policy)
  have moves := state.pool.moves_shutdown policy
  unfold Wakeups.shutdown
  generalize state.pool.shutdown policy = stopped at reached moves
  obtain ⟨dropped, next⟩ := stopped
  cases moves with
  | drain running =>
      simp only [running, Bool.false_eq_true, ↓reduceIte]
      exact
        { reached := reached
          dozing := alert.dozing
          tasks := fun _ => Or.inr (Or.inl (Nat.succ_pos _))
          stops := fun _ => Or.inl (Nat.succ_pos _) }
  | discard running =>
      simp only [running, Bool.false_eq_true, ↓reduceIte]
      exact
        { reached := reached
          dozing := alert.dozing
          tasks := fun queued => absurd rfl queued
          stops := fun _ => Or.inl (Nat.succ_pos _) }
  | again policy stopping =>
      simp only [stopping, ↓reduceIte]
      exact alert

/-- Waking a worker keeps everyone alert, even if that uses a notification up. -/
theorem Alert.wake (alert : Alert state) (worker : Fin size.threadCount) (remaining : Nat) :
    Alert { state.wake worker with notifyingOne := remaining } where
  reached := alert.reached
  dozing := by
    intro other (sleeps : Function.update state.asleep worker false other = true)
    by_cases same : other = worker
    · subst same
      rw [Function.update_self] at sleeps
      cases sleeps
    · rw [Function.update_of_ne same] at sleeps
      exact alert.dozing other sleeps
  tasks := fun _ => Or.inr (Or.inr ⟨worker, Function.update_self ..⟩)
  stops := by
    intro stopping
    apply (alert.stops stopping).imp_right
    intro awake other
    by_cases same : other = worker
    · subst same
      exact Function.update_self ..
    · exact (Function.update_of_ne same ..).trans (awake other)

/-- Waking one is enough for one task. -/
theorem Alert.notifyOne (alert : Alert state) (choice : Fin size.threadCount) :
    Alert (state.notifyOne choice) := by
  unfold Wakeups.notifyOne
  split
  · exact alert
  split
  · exact alert.wake choice _
  split
  · rename_i awake
    exact
      { alert with
        tasks := fun _ => Or.inr (Or.inr ⟨choice, awake choice⟩)
        stops := fun _ => Or.inr awake }
  · exact alert

/-- Waking all is enough for a shutdown. -/
theorem Alert.notifyAll (alert : Alert state) : Alert state.notifyAll := by
  unfold Wakeups.notifyAll
  split
  · exact alert
  · exact
      { reached := alert.reached
        dozing := fun _ sleeps => by cases sleeps
        tasks := fun _ => Or.inr (Or.inr ⟨⟨0, size.someThread⟩, rfl⟩)
        stops := fun _ => Or.inr fun _ => rfl }

/-- A worker that is awake may take a step of its own: it leaves the others as they are. -/
theorem Alert.own (alert : Alert state) {worker : Fin size.threadCount}
    (awake : state.asleep worker = false) {step : PoolStep Task size}
    (own : step = .pop worker ∨ step = .complete worker ∨ step = .throw worker) :
    Alert { state with pool := ((ThreadPool.machine Task size).step state.pool step).2 } := by
  obtain ⟨others, stopping⟩ := (state.pool.moves_step step).own own
  exact
    { reached := alert.reached_step step
      dozing := by
        intro other sleeps
        have different : other ≠ worker := by
          intro same
          rw [same, awake] at sleeps
          cases sleeps
        exact (others other different).trans (alert.dozing other sleeps)
      tasks := fun _ => Or.inr (Or.inr ⟨worker, awake⟩)
      stops := fun stops => alert.stops (stopping.symm.trans stops) }

/-- A worker that finds nothing goes to sleep only if there is nothing. -/
theorem Alert.check (alert : Alert state) (worker : Fin size.threadCount) :
    Alert (state.check worker) := by
  unfold Wakeups.check
  split
  · rename_i waiting
    split
    · exact alert
    · rename_i awake
      split
      · exact alert.own (Bool.eq_false_iff.mpr awake) (Or.inl rfl)
      · rename_i nothing
        rw [Bool.or_eq_true, not_or, Bool.not_eq_true', Bool.not_eq_false, List.isEmpty_iff]
          at nothing
        exact
          { reached := alert.reached
            dozing := by
              intro other (sleeps : Function.update state.asleep worker true other = true)
              by_cases same : other = worker
              · subst same
                exact waiting
              · rw [Function.update_of_ne same] at sleeps
                exact alert.dozing other sleeps
            tasks := fun queued => absurd nothing.2 queued
            stops := fun stopping => absurd stopping nothing.1 }
  · exact alert

/-- A task ends in a worker that is awake; in any other nothing happens. -/
theorem Alert.ended (alert : Alert state) {worker : Fin size.threadCount}
    {step : PoolStep Task size} (own : step = .complete worker ∨ step = .throw worker) :
    Alert { state with pool := ((ThreadPool.machine Task size).step state.pool step).2 } := by
  cases sleeps : state.asleep worker with
  | false => exact alert.own sleeps (Or.inr own)
  | true =>
      have idle : ((ThreadPool.machine Task size).step state.pool step).2 = state.pool := by
        have waiting := alert.dozing worker sleeps
        rcases own with rfl | rfl
        · simp only [ThreadPool.machine, ThreadPool.complete, waiting]
        · simp only [ThreadPool.machine, ThreadPool.throw, waiting]
      rw [idle]
      exact alert

/-- Every step keeps the pool alert. -/
theorem Alert.step (alert : Alert state) (step : WakeupStep Task size) :
    Alert ((machine Task size).step state step).2 := by
  cases step with
  | post task => exact alert.post task
  | shutdown policy => exact alert.shutdown policy
  | notifyOne choice => exact alert.notifyOne choice
  | notifyAll => exact alert.notifyAll
  | spurious worker => exact alert.wake worker state.notifyingOne
  | check worker => exact alert.check worker
  | complete worker => exact alert.ended (Or.inl rfl)
  | throw worker => exact alert.ended (Or.inr rfl)

end Steps

/-- The pool and its sleepers after a sequence of steps. -/
def ran (Task : Type) (size : PoolSize) (steps : List (WakeupStep Task size)) :
    Wakeups Task size :=
  ((machine Task size).run (create Task size) steps).2

theorem ran_alert (steps : List (WakeupStep Task size)) : Alert (ran Task size steps) :=
  Machine.run_invariant (fun _ state => Alert state) (alert_create Task size)
    (fun _ _ step alert => alert.step step) steps

/-- Nobody sleeps on work. After every interleaving of posts, shutdowns, notifications and
workers, if a task is queued, or the pool is stopping with a worker that has not left, then
a notification is pending or some worker that has not left is awake. -/
theorem never_sleeps_on_work (steps : List (WakeupStep Task size)) :
    let state := ran Task size steps
    ¬ ((state.pool.queue ≠ [] ∨
          (state.pool.stopping = true ∧ ∃ worker, state.pool.workers worker ≠ .exited)) ∧
        (∀ worker, state.pool.workers worker ≠ .exited → state.asleep worker = true) ∧
        state.notifyingOne = 0 ∧ state.notifyingAll = 0) := by
  intro state stuck
  obtain ⟨work, asleep, noneToOne, noneToAll⟩ := stuck
  have alert : Alert state := ran_alert steps
  rcases work with queued | ⟨stopping, worker, present⟩
  · rcases alert.tasks queued with one | all | ⟨worker, awake⟩
    · omega
    · omega
    · obtain ⟨poolSteps, reached⟩ := alert.reached
      have left := (ThreadPool.ran_conserved poolSteps).leftLast worker
      rw [reached] at left
      have present : state.pool.workers worker ≠ .exited := fun gone => queued (left gone).2
      rw [asleep worker present] at awake
      cases awake
  · rcases alert.stops stopping with all | awake
    · omega
    · have sleeps := asleep worker present
      rw [awake worker] at sleeps
      cases sleeps

/-- A post that finds its only worker asleep: until it has notified, nobody is awake. -/
example :
    let state := ran Nat ⟨1, 1, Nat.one_pos, Nat.one_pos⟩ [.check 0, .post 5]
    state.pool.queue = [5] ∧ state.asleep 0 = true ∧ state.notifyingOne = 1 := by
  decide

end Wakeups

end Lrd.Concurrency
