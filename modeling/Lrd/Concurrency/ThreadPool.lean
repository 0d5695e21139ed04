import Lrd.Foundation.Machine
import Lrd.Foundation.Slots

/-!
# The thread pool

A bounded queue of tasks and a fixed number of workers that take tasks from its front
(`concurrency/thread_pool.hpp`, `concurrency/thread_pool.cpp`). Each critical section
is one step; a task runs between two steps of its worker. A condition variable may wake
a worker at any time, so a worker may look at the queue whenever it is not running a
task, and finds nothing to do when its wait would go on.

What happened is read off the transcript: which tasks were accepted, started, completed,
failed and discarded (`Ledger`). No task is lost, run twice or started out of order
(`conserves_tasks`).
-/

namespace Lrd.Concurrency

open Foundation

/-- What `post` says. -/
inductive PostStatus where
  | accepted
  | queueFull
  | shuttingDown
deriving DecidableEq, Repr

/-- What becomes of queued tasks at shutdown. -/
inductive ShutdownPolicy where
  | drain
  | discard
deriving DecidableEq, Repr

/-- The arguments that the constructor accepts. -/
structure PoolSize where
  threadCount : Nat
  maxQueuedTasks : Nat
  someThread : 0 < threadCount
  someRoom : 0 < maxQueuedTasks

/-- The constructor refuses to make a pool without threads or without a queue. -/
def PoolSize.create (threadCount maxQueuedTasks : Nat) : Except String PoolSize :=
  if someThread : 0 < threadCount then
    if someRoom : 0 < maxQueuedTasks then
      .ok ⟨threadCount, maxQueuedTasks, someThread, someRoom⟩
    else .error "ThreadPool requires a queue capacity of at least one"
  else .error "ThreadPool requires at least one thread"

/-- Where a worker is in its loop. -/
inductive Worker (Task : Type) where
  | waiting
  | running (task : Task)
  | exited
deriving DecidableEq, Repr

/-- The task a worker runs. -/
def Worker.task? {Task : Type} : Worker Task → Option Task
  | .running task => some task
  | _ => none

/-- The fields of the pool, and where its workers are. -/
structure ThreadPool (Task : Type) (size : PoolSize) where
  queue : List Task
  stopping : Bool
  posted : UInt64
  completed : UInt64
  rejected : UInt64
  exceptions : UInt64
  workers : Fin size.threadCount → Worker Task

/-- The steps: calls of `post` and `shutdown`, a worker that looks at the queue, and a
task that returns or throws. -/
inductive PoolStep (Task : Type) (size : PoolSize) where
  | post (task : Task)
  | pop (worker : Fin size.threadCount)
  | complete (worker : Fin size.threadCount)
  | throw (worker : Fin size.threadCount)
  | shutdown (policy : ShutdownPolicy)

/-- What a step did. -/
inductive PoolOutcome (Task : Type) where
  | posted (task : Task) (status : PostStatus)
  | started (task : Task)
  | exited
  | completed (task : Task)
  | failed (task : Task)
  | stopped (dropped : List Task)
  | nothing
deriving DecidableEq, Repr

namespace ThreadPool

variable {Task : Type} {size : PoolSize}

/-- A pool whose workers wait. -/
def create (Task : Type) (size : PoolSize) : ThreadPool Task size :=
  ⟨[], false, 0, 0, 0, 0, fun _ => .waiting⟩

/-- The tasks that are running, worker by worker. -/
def running (pool : ThreadPool Task size) : List Task := contents Worker.task? pool.workers

/-- `post`: a task enters the queue unless it is full or the pool is stopping. -/
def post (pool : ThreadPool Task size) (task : Task) : PostStatus × ThreadPool Task size :=
  if pool.stopping then (.shuttingDown, { pool with rejected := pool.rejected + 1 })
  else if size.maxQueuedTasks ≤ pool.queue.length then
    (.queueFull, { pool with rejected := pool.rejected + 1 })
  else (.accepted, { pool with queue := pool.queue ++ [task], posted := pool.posted + 1 })

/-- The critical section of `shutdown`, with the tasks it drops. The workers are then
joined, which changes nothing here. -/
def shutdown (pool : ThreadPool Task size) (policy : ShutdownPolicy) :
    List Task × ThreadPool Task size :=
  if pool.stopping then ([], pool)
  else
    match policy with
    | .drain => ([], { pool with stopping := true })
    | .discard => (pool.queue, { pool with stopping := true, queue := [] })

/-- The critical section of `worker_loop`. The wait goes on while there is neither a
task nor a shutdown. -/
def pop (pool : ThreadPool Task size) (worker : Fin size.threadCount) :
    PoolOutcome Task × ThreadPool Task size :=
  match pool.workers worker with
  | .waiting =>
      if pool.stopping || !pool.queue.isEmpty then
        match pool.queue with
        | [] => (.exited, { pool with workers := Function.update pool.workers worker .exited })
        | task :: rest =>
            (.started task,
              { pool with
                workers := Function.update pool.workers worker (.running task)
                queue := rest })
      else (.nothing, pool)
  | _ => (.nothing, pool)

/-- The task of a worker returns. -/
def complete (pool : ThreadPool Task size) (worker : Fin size.threadCount) :
    PoolOutcome Task × ThreadPool Task size :=
  match pool.workers worker with
  | .running task =>
      (.completed task,
        { pool with
          workers := Function.update pool.workers worker .waiting
          completed := pool.completed + 1 })
  | _ => (.nothing, pool)

/-- The task of a worker throws; both handlers count and go on. -/
def throw (pool : ThreadPool Task size) (worker : Fin size.threadCount) :
    PoolOutcome Task × ThreadPool Task size :=
  match pool.workers worker with
  | .running task =>
      (.failed task,
        { pool with
          workers := Function.update pool.workers worker .waiting
          exceptions := pool.exceptions + 1 })
  | _ => (.nothing, pool)

/-- The pool as a machine over the steps of its threads. -/
def machine (Task : Type) (size : PoolSize) :
    Machine (ThreadPool Task size) (PoolStep Task size) (PoolOutcome Task) where
  step pool
    | .post task => (.posted task (pool.post task).1, (pool.post task).2)
    | .pop worker => pool.pop worker
    | .complete worker => pool.complete worker
    | .throw worker => pool.throw worker
    | .shutdown policy => (.stopped (pool.shutdown policy).1, (pool.shutdown policy).2)

/-! ## What a step can do -/

/-- The moves of the pool. -/
inductive Moves (pool : ThreadPool Task size) :
    PoolStep Task size → PoolOutcome Task → ThreadPool Task size → Prop where
  | refuse (task : Task) (status : PostStatus) (refused : status ≠ .accepted) :
      Moves pool (.post task) (.posted task status) { pool with rejected := pool.rejected + 1 }
  | accept (task : Task) (running : pool.stopping = false)
      (room : pool.queue.length < size.maxQueuedTasks) :
      Moves pool (.post task) (.posted task .accepted)
        { pool with queue := pool.queue ++ [task], posted := pool.posted + 1 }
  | start (worker : Fin size.threadCount) (task : Task) (rest : List Task)
      (waiting : pool.workers worker = .waiting) (front : pool.queue = task :: rest) :
      Moves pool (.pop worker) (.started task)
        { pool with
          workers := Function.update pool.workers worker (.running task)
          queue := rest }
  | exit (worker : Fin size.threadCount) (waiting : pool.workers worker = .waiting)
      (stopping : pool.stopping = true) (empty : pool.queue = []) :
      Moves pool (.pop worker) .exited
        { pool with workers := Function.update pool.workers worker .exited }
  | complete (worker : Fin size.threadCount) (task : Task)
      (running : pool.workers worker = .running task) :
      Moves pool (.complete worker) (.completed task)
        { pool with
          workers := Function.update pool.workers worker .waiting
          completed := pool.completed + 1 }
  | throw (worker : Fin size.threadCount) (task : Task)
      (running : pool.workers worker = .running task) :
      Moves pool (.throw worker) (.failed task)
        { pool with
          workers := Function.update pool.workers worker .waiting
          exceptions := pool.exceptions + 1 }
  | drain (running : pool.stopping = false) :
      Moves pool (.shutdown .drain) (.stopped []) { pool with stopping := true }
  | discard (running : pool.stopping = false) :
      Moves pool (.shutdown .discard) (.stopped pool.queue)
        { pool with stopping := true, queue := [] }
  | again (policy : ShutdownPolicy) (stopping : pool.stopping = true) :
      Moves pool (.shutdown policy) (.stopped []) pool
  | nothing (step : PoolStep Task size) : Moves pool step .nothing pool

/-- What `post` can do. -/
theorem moves_post (pool : ThreadPool Task size) (task : Task) :
    Moves pool (.post task) (.posted task (pool.post task).1) (pool.post task).2 := by
  unfold post
  split
  · exact .refuse task _ nofun
  · rename_i running
    split
    · exact .refuse task _ nofun
    · rename_i room
      exact .accept task (Bool.eq_false_iff.mpr running) (Nat.not_le.mp room)

/-- What a worker that looks for a task can do. -/
theorem moves_pop (pool : ThreadPool Task size) (worker : Fin size.threadCount) :
    Moves pool (.pop worker) (pool.pop worker).1 (pool.pop worker).2 := by
  unfold pop
  split
  · rename_i waiting
    split
    · rename_i awake
      split
      · rename_i empty
        rw [empty, List.isEmpty_nil, Bool.not_true, Bool.or_false] at awake
        exact .exit worker waiting awake empty
      · rename_i task rest front
        exact .start worker task rest waiting front
    · exact .nothing _
  · exact .nothing _

/-- What `shutdown` can do. -/
theorem moves_shutdown (pool : ThreadPool Task size) (policy : ShutdownPolicy) :
    Moves pool (.shutdown policy) (.stopped (pool.shutdown policy).1) (pool.shutdown policy).2 := by
  unfold shutdown
  split
  · rename_i stopping
    exact .again policy stopping
  · rename_i running
    cases policy with
    | drain => exact .drain (Bool.eq_false_iff.mpr running)
    | discard => exact .discard (Bool.eq_false_iff.mpr running)

/-- What any step can do. -/
theorem moves_step (pool : ThreadPool Task size) (step : PoolStep Task size) :
    Moves pool step ((machine Task size).step pool step).1 ((machine Task size).step pool step).2 := by
  cases step with
  | post task => exact pool.moves_post task
  | pop worker => exact pool.moves_pop worker
  | complete worker =>
      simp only [machine, complete]
      split
      · rename_i task running
        exact .complete worker task running
      · exact .nothing _
  | throw worker =>
      simp only [machine, throw]
      split
      · rename_i task running
        exact .throw worker task running
      · exact .nothing _
  | shutdown policy => exact pool.moves_shutdown policy

end ThreadPool

/-! ## What a transcript tells -/

/-- The tasks to which each of these happened, in order. -/
structure Ledger (Task : Type) where
  accepted : List Task := []
  started : List Task := []
  completed : List Task := []
  failed : List Task := []
  discarded : List Task := []

/-- Write an outcome into the ledger. -/
def Ledger.record {Task : Type} (ledger : Ledger Task) : PoolOutcome Task → Ledger Task
  | .posted task .accepted => { ledger with accepted := ledger.accepted ++ [task] }
  | .started task => { ledger with started := ledger.started ++ [task] }
  | .completed task => { ledger with completed := ledger.completed ++ [task] }
  | .failed task => { ledger with failed := ledger.failed ++ [task] }
  | .stopped dropped => { ledger with discarded := ledger.discarded ++ dropped }
  | _ => ledger

/-- Write all outcomes of a transcript into the ledger. -/
def Ledger.recordAll {Task ι : Type} (ledger : Ledger Task)
    (transcript : List (ι × PoolOutcome Task)) : Ledger Task :=
  transcript.foldl (fun ledger entry => ledger.record entry.2) ledger

theorem Ledger.recordAll_snoc {Task ι : Type} (ledger : Ledger Task)
    (transcript : List (ι × PoolOutcome Task)) (entry : ι × PoolOutcome Task) :
    ledger.recordAll (transcript ++ [entry]) = (ledger.recordAll transcript).record entry.2 :=
  List.foldl_append ..

/-- A task that was refused is not entered. -/
theorem Ledger.record_refused {Task : Type} (ledger : Ledger Task) (task : Task)
    {status : PostStatus} (refused : status ≠ .accepted) :
    ledger.record (.posted task status) = ledger := by
  cases status with
  | accepted => exact absurd rfl refused
  | queueFull => rfl
  | shuttingDown => rfl

namespace ThreadPool

variable {Task : Type} {size : PoolSize}

/-! ## Conservation -/

/-- The accepted tasks are those that were started, those in the queue and those that
were discarded, in this order; a started task is running, completed or failed; and the
counters count. A worker leaves its loop only when there is nothing left to do. -/
structure Conserved (ledger : Ledger Task) (pool : ThreadPool Task size) : Prop where
  bounded : pool.queue.length ≤ size.maxQueuedTasks
  order : ledger.accepted = ledger.started ++ pool.queue ++ ledger.discarded
  places : (pool.running ++ ledger.completed ++ ledger.failed).Perm ledger.started
  posted : pool.posted = UInt64.ofNat ledger.accepted.length
  completed : pool.completed = UInt64.ofNat ledger.completed.length
  exceptions : pool.exceptions = UInt64.ofNat ledger.failed.length
  undropped : pool.stopping = false → ledger.discarded = []
  leftLast : ∀ worker, pool.workers worker = .exited → pool.stopping = true ∧ pool.queue = []

theorem ofNat_length_snoc (tasks : List Task) (task : Task) :
    UInt64.ofNat (tasks ++ [task]).length = UInt64.ofNat tasks.length + 1 := by
  rw [List.length_append, List.length_singleton, UInt64.ofNat_add, UInt64.ofNat_one]

section Workers

variable {workers : Fin size.threadCount → Worker Task} {worker other : Fin size.threadCount}
  {task : Task}

/-- A worker that takes a task runs it besides what is running already. -/
theorem running_start (waiting : workers worker = .waiting) (task : Task) :
    (contents Worker.task? (Function.update workers worker (.running task))).Perm
      (task :: contents Worker.task? workers) := by
  have before := contents_split Worker.task? workers worker
  rw [waiting] at before
  exact (contents_update ..).trans (before.symm.cons task)

/-- A worker whose task ends no longer runs it. -/
theorem running_end (running : workers worker = .running task) :
    (contents Worker.task? workers).Perm
      (task :: contents Worker.task? (Function.update workers worker .waiting)) := by
  have before := contents_split Worker.task? workers worker
  rw [running] at before
  have after := contents_update Worker.task? workers worker .waiting
  exact before.trans (after.symm.cons task)

/-- A worker that leaves had no task. -/
theorem running_exit (waiting : workers worker = .waiting) :
    (contents Worker.task? (Function.update workers worker .exited)).Perm
      (contents Worker.task? workers) := by
  have before := contents_split Worker.task? workers worker
  rw [waiting] at before
  exact (contents_update ..).trans before.symm

/-- Only a worker that leaves its loop is then outside it. -/
theorem exited_of_update {state : Worker Task}
    (gone : Function.update workers worker state other = .exited) (stays : state ≠ .exited) :
    workers other = .exited := by
  by_cases same : other = worker
  · subst same
    rw [Function.update_self] at gone
    exact absurd gone stays
  · rwa [Function.update_of_ne same] at gone

end Workers

section Places

variable {ledger : Ledger Task} {pool : ThreadPool Task size} {worker : Fin size.threadCount}
  {task : Task}

/-- A task that starts moves from the queue to a worker. -/
theorem Conserved.places_start (conserved : Conserved ledger pool)
    (waiting : pool.workers worker = .waiting) :
    (contents Worker.task? (Function.update pool.workers worker (.running task)) ++
      ledger.completed ++ ledger.failed).Perm (ledger.started ++ [task]) := by
  have joined := ((running_start waiting task).append_right ledger.completed).append_right
    ledger.failed
  have started := (conserved.places.cons task).trans
    (List.perm_append_singleton task ledger.started).symm
  exact joined.trans started

/-- The tasks that ended, with one more. -/
theorem Conserved.places_end (conserved : Conserved ledger pool)
    (running : pool.workers worker = .running task) {ended : List Task}
    (more : ended.Perm (task :: (ledger.completed ++ ledger.failed))) :
    (contents Worker.task? (Function.update pool.workers worker .waiting) ++ ended).Perm
      ledger.started := by
  have places := conserved.places
  rw [List.append_assoc] at places
  have left := (running_end running).append_right (ledger.completed ++ ledger.failed)
  exact ((more.append_left _).trans List.perm_middle).trans (left.symm.trans places)

end Places

variable {outcome : PoolOutcome Task}

/-- Every move conserves the tasks. -/
theorem Conserved.step {ledger : Ledger Task} {pool next : ThreadPool Task size}
    {step : PoolStep Task size} (conserved : Conserved ledger pool)
    (moves : Moves pool step outcome next) : Conserved (ledger.record outcome) next := by
  cases moves with
  | refuse task status refused =>
      rw [ledger.record_refused task refused]
      exact { conserved with }
  | accept task running room =>
      have none := conserved.undropped running
      exact
        { conserved with
          bounded := by
            rw [List.length_append]
            exact room
          order := by
            have order := conserved.order
            simp only [none, List.append_nil] at order
            simp only [Ledger.record, none, List.append_nil, order, List.append_assoc]
          posted := by
            rw [Ledger.record, ofNat_length_snoc, ← conserved.posted]
          leftLast := fun worker gone => by
            have stopped := (conserved.leftLast worker gone).1
            rw [running] at stopped
            cases stopped }
  | start worker task rest waiting front =>
      exact
        { conserved with
          bounded := by
            have bounded := conserved.bounded
            rw [front, List.length_cons] at bounded
            exact Nat.le_of_succ_le bounded
          order := by
            have order := conserved.order
            rw [front] at order
            simp only [Ledger.record, order, List.append_assoc, List.cons_append, List.nil_append]
          places := conserved.places_start waiting
          leftLast := fun other gone => by
            have empty := (conserved.leftLast other (exited_of_update gone nofun)).2
            rw [front] at empty
            cases empty }
  | exit worker waiting stopping empty =>
      exact
        { conserved with
          places :=
            (((running_exit waiting).append_right _).append_right _).trans conserved.places
          leftLast := fun _ _ => ⟨stopping, empty⟩ }
  | complete worker task running =>
      exact
        { conserved with
          places := by
            rw [List.append_assoc]
            apply conserved.places_end running
            rw [Ledger.record, List.append_assoc]
            exact List.perm_middle
          completed := by
            rw [Ledger.record, ofNat_length_snoc, ← conserved.completed]
          leftLast := fun other gone =>
            conserved.leftLast other (exited_of_update gone nofun) }
  | throw worker task running =>
      exact
        { conserved with
          places := by
            rw [List.append_assoc]
            apply conserved.places_end running
            rw [Ledger.record, ← List.append_assoc]
            exact List.perm_append_singleton ..
          exceptions := by
            rw [Ledger.record, ofNat_length_snoc, ← conserved.exceptions]
          leftLast := fun other gone =>
            conserved.leftLast other (exited_of_update gone nofun) }
  | drain running =>
      exact
        { conserved with
          order := by
            rw [Ledger.record, List.append_nil]
            exact conserved.order
          undropped := nofun
          leftLast := fun worker gone => ⟨rfl, (conserved.leftLast worker gone).2⟩ }
  | discard running =>
      exact
        { conserved with
          bounded := Nat.zero_le _
          order := by
            have none := conserved.undropped running
            rw [Ledger.record, conserved.order, none]
            simp only [List.append_nil, List.nil_append]
          undropped := nofun
          leftLast := fun _ _ => ⟨rfl, rfl⟩ }
  | again policy stopping =>
      rw [Ledger.record, List.append_nil]
      exact conserved
  | nothing => exact conserved

/-! ## Runs -/

/-- The pool after a sequence of steps, and what happened to its tasks. -/
def ran (Task : Type) (size : PoolSize) (steps : List (PoolStep Task size)) :
    Ledger Task × ThreadPool Task size :=
  let run := (machine Task size).run (create Task size) steps
  (Ledger.recordAll {} run.1, run.2)

/-- A longer run goes on from where the shorter one has ended. -/
theorem ran_append (earlier later : List (PoolStep Task size)) :
    ran Task size (earlier ++ later) =
      let rest := (machine Task size).run (ran Task size earlier).2 later
      ((ran Task size earlier).1.recordAll rest.1, rest.2) := by
  rw [ran, Machine.run_append]
  exact Prod.ext (List.foldl_append ..) rfl

/-- What follows a shutdown starts from the pool it left. -/
theorem ran_shutdown (steps later : List (PoolStep Task size)) (policy : ShutdownPolicy) :
    ran Task size (steps ++ .shutdown policy :: later) =
      let before := ran Task size steps
      let cut := before.2.shutdown policy
      let rest := (machine Task size).run cut.2 later
      ((before.1.record (.stopped cut.1)).recordAll rest.1, rest.2) := by
  rw [ran_append, Machine.run_cons]
  rfl

/-- In every run no task is lost and none is run twice. -/
theorem ran_conserved (steps : List (PoolStep Task size)) :
    Conserved (ran Task size steps).1 (ran Task size steps).2 := by
  refine Machine.run_invariant (fun transcript pool =>
    Conserved (Ledger.recordAll {} transcript) pool) ?_ ?_ steps
  · exact
      { bounded := Nat.zero_le _
        order := rfl
        places := by
          have idle : contents Worker.task? (create Task size).workers = [] :=
            List.filterMap_eq_nil_iff.mpr fun _ _ => rfl
          change (contents Worker.task? (create Task size).workers ++ [] ++ []).Perm []
          rw [idle]
          rfl
        posted := rfl
        completed := rfl
        exceptions := rfl
        undropped := fun _ => rfl
        leftLast := nofun }
  · intro transcript pool step conserved
    rw [Ledger.recordAll_snoc]
    exact conserved.step (pool.moves_step step)

/-- A pool that is stopping stays so, and neither accepts nor drops a task. -/
theorem Moves.stopped {pool next : ThreadPool Task size} {step : PoolStep Task size}
    (moves : Moves pool step outcome next) (stopping : pool.stopping = true)
    (ledger : Ledger Task) :
    next.stopping = true ∧ (ledger.record outcome).accepted = ledger.accepted ∧
      (ledger.record outcome).discarded = ledger.discarded := by
  cases moves with
  | refuse task status refused =>
      rw [ledger.record_refused task refused]
      exact ⟨stopping, rfl, rfl⟩
  | accept task running room => exact absurd (stopping.symm.trans running) nofun
  | drain running => exact absurd (stopping.symm.trans running) nofun
  | discard running => exact absurd (stopping.symm.trans running) nofun
  | again policy _ => exact ⟨stopping, rfl, List.append_nil _⟩
  | _ => exact ⟨stopping, rfl, rfl⟩

/-- Only a shutdown stops the pool. -/
theorem Moves.stopping_eq {pool next : ThreadPool Task size} {step : PoolStep Task size}
    (moves : Moves pool step outcome next) (other : ∀ policy, step ≠ .shutdown policy) :
    next.stopping = pool.stopping := by
  cases moves with
  | drain running => exact absurd rfl (other .drain)
  | discard running => exact absurd rfl (other .discard)
  | _ => rfl

/-- A step of a worker changes no other worker and stops nothing. -/
theorem Moves.own {pool next : ThreadPool Task size} {step : PoolStep Task size}
    (moves : Moves pool step outcome next) {worker : Fin size.threadCount}
    (own : step = .pop worker ∨ step = .complete worker ∨ step = .throw worker) :
    (∀ other, other ≠ worker → next.workers other = pool.workers other) ∧
      next.stopping = pool.stopping := by
  cases moves with
  | start actor =>
      obtain rfl : actor = worker := by simpa using own
      exact ⟨fun other different => Function.update_of_ne different .., rfl⟩
  | exit actor =>
      obtain rfl : actor = worker := by simpa using own
      exact ⟨fun other different => Function.update_of_ne different .., rfl⟩
  | complete actor =>
      obtain rfl : actor = worker := by simpa using own
      exact ⟨fun other different => Function.update_of_ne different .., rfl⟩
  | throw actor =>
      obtain rfl : actor = worker := by simpa using own
      exact ⟨fun other different => Function.update_of_ne different .., rfl⟩
  | nothing => exact ⟨fun _ _ => rfl, rfl⟩
  | _ => simp at own

/-- A worker that has left its loop does not come back. -/
theorem Moves.stays_exited {pool next : ThreadPool Task size} {step : PoolStep Task size}
    (moves : Moves pool step outcome next) {worker : Fin size.threadCount}
    (gone : pool.workers worker = .exited) :
    next.workers worker = .exited := by
  have elsewhere : ∀ {other : Fin size.threadCount} (state : Worker Task),
      pool.workers other ≠ .exited →
        Function.update pool.workers other state worker = .exited := by
    intro other state present
    have different : worker ≠ other := by
      rintro rfl
      exact present gone
    rw [Function.update_of_ne different]
    exact gone
  cases moves with
  | start other task rest waiting front => exact elsewhere _ (by simp [waiting])
  | exit other waiting stopping empty => exact elsewhere _ (by simp [waiting])
  | complete other task running => exact elsewhere _ (by simp [running])
  | throw other task running => exact elsewhere _ (by simp [running])
  | _ => exact gone

/-- A pool that is stopping stays so and accepts nothing. -/
theorem run_stopped {pool : ThreadPool Task size} (stopping : pool.stopping = true)
    (ledger : Ledger Task) (later : List (PoolStep Task size)) :
    let rest := (machine Task size).run pool later
    rest.2.stopping = true ∧ (ledger.recordAll rest.1).accepted = ledger.accepted ∧
      (ledger.recordAll rest.1).discarded = ledger.discarded := by
  refine Machine.run_invariant (fun transcript (current : ThreadPool Task size) =>
    current.stopping = true ∧ (ledger.recordAll transcript).accepted = ledger.accepted ∧
      (ledger.recordAll transcript).discarded = ledger.discarded) ⟨stopping, rfl, rfl⟩ ?_ later
  rintro transcript current step ⟨still, accepted, discarded⟩
  rw [Ledger.recordAll_snoc, ← accepted, ← discarded]
  exact (current.moves_step step).stopped still _

/-- A pool that is stopping with an empty queue starts nothing. -/
theorem Moves.emptied {pool next : ThreadPool Task size} {step : PoolStep Task size}
    (moves : Moves pool step outcome next) (stopping : pool.stopping = true)
    (empty : pool.queue = []) (ledger : Ledger Task) :
    next.queue = [] ∧ (ledger.record outcome).started = ledger.started := by
  cases moves with
  | refuse task status refused =>
      rw [ledger.record_refused task refused]
      exact ⟨empty, rfl⟩
  | accept task running room => exact absurd (stopping.symm.trans running) nofun
  | start worker task rest waiting front => exact absurd (empty.symm.trans front) nofun
  | discard running => exact ⟨rfl, rfl⟩
  | _ => exact ⟨empty, rfl⟩

/-- A pool that is stopping with an empty queue starts nothing more. -/
theorem run_emptied {pool : ThreadPool Task size} (stopping : pool.stopping = true)
    (empty : pool.queue = []) (ledger : Ledger Task) (later : List (PoolStep Task size)) :
    let rest := (machine Task size).run pool later
    rest.2.stopping = true ∧ rest.2.queue = [] ∧
      (ledger.recordAll rest.1).started = ledger.started := by
  refine Machine.run_invariant (fun transcript (current : ThreadPool Task size) =>
    current.stopping = true ∧ current.queue = [] ∧
      (ledger.recordAll transcript).started = ledger.started) ⟨stopping, empty, rfl⟩ ?_ later
  rintro transcript current step ⟨still, none, started⟩
  have moves := current.moves_step step
  rw [Ledger.recordAll_snoc, ← started]
  exact ⟨(moves.stopped still ledger).1, moves.emptied still none _⟩

/-- After a shutdown that discards, nothing starts. -/
theorem started_discard (steps later : List (PoolStep Task size))
    (running : (ran Task size steps).2.stopping = false) :
    (ran Task size (steps ++ .shutdown .discard :: later)).1.started =
      (ran Task size steps).1.started := by
  rw [ran_shutdown]
  simp only [shutdown, running, Bool.false_eq_true, ↓reduceIte]
  exact (run_emptied rfl rfl _ later).2.2

/-- After a shutdown that drains, nothing is discarded. -/
theorem discarded_drain (steps later : List (PoolStep Task size))
    (running : (ran Task size steps).2.stopping = false) :
    (ran Task size (steps ++ .shutdown .drain :: later)).1.discarded =
      (ran Task size steps).1.discarded := by
  rw [ran_shutdown]
  simp only [shutdown, running, Bool.false_eq_true, ↓reduceIte]
  rw [(run_stopped rfl _ later).2.2]
  exact List.append_nil _

/-- When every worker has left, there is nothing to run and nothing to do. -/
theorem Conserved.all_left {ledger : Ledger Task} {pool : ThreadPool Task size}
    (conserved : Conserved ledger pool) (left : ∀ worker, pool.workers worker = .exited) :
    pool.queue = [] ∧ pool.running = [] := by
  refine ⟨(conserved.leftLast ⟨0, size.someThread⟩ (left _)).2, ?_⟩
  refine List.filterMap_eq_nil_iff.mpr fun worker _ => ?_
  rw [left worker]
  rfl

/-- The pool conserves its tasks. After every sequence of steps the queue is within its
bound; every accepted task is queued, running on one worker, completed, failed or
discarded, and the counters count them; tasks were started in the order in which they
were accepted; once stopping no task is accepted; after a shutdown that discards, none
is started; and when all workers have left after a shutdown that drains, every accepted
task has run once. -/
theorem conserves_tasks (steps : List (PoolStep Task size)) :
    let ledger := (ran Task size steps).1
    let pool := (ran Task size steps).2
    let places := pool.queue ++ pool.running ++ ledger.completed ++ ledger.failed ++
      ledger.discarded
    pool.queue.length ≤ size.maxQueuedTasks ∧
      (places.Perm ledger.accepted ∧ (ledger.accepted.Nodup → places.Nodup)) ∧
      (pool.posted = UInt64.ofNat (pool.queue.length + pool.running.length +
          ledger.completed.length + ledger.failed.length + ledger.discarded.length) ∧
        pool.completed = UInt64.ofNat ledger.completed.length ∧
        pool.exceptions = UInt64.ofNat ledger.failed.length) ∧
      (ledger.started <+: ledger.accepted ∧
        (pool.running ++ ledger.completed ++ ledger.failed).Perm ledger.started) ∧
      (∀ later, pool.stopping = true →
        (ran Task size (steps ++ later)).1.accepted = ledger.accepted) ∧
      (∀ later, pool.stopping = false →
        (ran Task size (steps ++ .shutdown .discard :: later)).1.started = ledger.started) ∧
      (∀ later, pool.stopping = false →
        let drained := ran Task size (steps ++ .shutdown .drain :: later)
        (∀ worker, drained.2.workers worker = .exited) →
          drained.2.queue = [] ∧
            (drained.1.completed ++ drained.1.failed).Perm drained.1.accepted) := by
  intro ledger pool places
  have conserved : Conserved ledger pool := ran_conserved steps
  have everywhere : places.Perm ledger.accepted := by
    have ended := conserved.places
    rw [conserved.order]
    apply List.Perm.append_right
    simp only [List.append_assoc] at ended ⊢
    exact List.perm_append_comm.trans (ended.append_right pool.queue)
  refine ⟨conserved.bounded, ⟨everywhere, fun distinct => everywhere.nodup_iff.mpr distinct⟩,
    ⟨?_, conserved.completed, conserved.exceptions⟩, ⟨?_, conserved.places⟩, ?_, ?_, ?_⟩
  · rw [conserved.posted, ← everywhere.length_eq]
    simp only [places, List.length_append]
  · rw [conserved.order, List.append_assoc]
    exact List.prefix_append ..
  · intro later stopping
    rw [ran_append]
    exact (run_stopped stopping ledger later).2.1
  · intro later running
    exact started_discard steps later running
  · intro later running drained left
    have all : Conserved drained.1 drained.2 := ran_conserved _
    have undropped : drained.1.discarded = [] :=
      (discarded_drain steps later running).trans (conserved.undropped running)
    obtain ⟨empty, idle⟩ := all.all_left left
    refine ⟨empty, ?_⟩
    have ended := all.places
    have order := all.order
    rw [idle, List.nil_append] at ended
    rw [empty, undropped, List.append_nil, List.append_nil] at order
    rw [order]
    exact ended

end ThreadPool

end Lrd.Concurrency
