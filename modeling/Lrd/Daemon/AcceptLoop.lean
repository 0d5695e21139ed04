import Lrd.Daemon.Registry

/-!
# The accept loop

`Server::run` with the calls it makes: `poll` on the listener and on the stop pipe, `accept4`
with its errors, and the steps of the shutdown, interleaved with clients that connect, with
calls of `request_stop` from signal handlers and other threads, and with the workers. An
error of `poll` or `accept4` that the loop does not handle is thrown, and the server is then
destroyed instead (`Server::~Server`). An exception may leave the loop of a connection at any
time; `post`, the registration of a connection and the log lines around its loop are taken
not to throw.

A request to stop is never lost, and after the first one at most one more connection is
accepted (`stop_request_honoured`).
-/

namespace Lrd.Daemon

open Foundation Concurrency

/-! ## Calls -/

/-- What a call of `poll` comes to. -/
inductive PollOutcome where
  | ready
  | interrupted
  | failed
deriving DecidableEq, Repr

/-- What a call of `accept4` comes to. -/
inductive AcceptOutcome where
  | connected (fd : Nat)
  | interrupted
  | aborted
  | outOfFiles
  | failed
deriving DecidableEq, Repr

/-- Where the thread of `Server::run` is. While it is in `accept_one`, or shuts the server
down, the acceptor of the server says more. -/
inductive Loop where
  | polling
  | polled (listener stop : Bool)
  | accepting
  | backingOff
  | draining
  | leaving
  | unwinding
  | returned
  | destroyed
deriving DecidableEq, Repr

/-- Bytes that a pipe takes before a write to it would block. -/
def pipeCapacity : Nat := 65536

/-- The bytes that `drain_stop_pipe` asks for at a time. -/
def drainSize : Nat := 64

/-- A server that runs, the connections that wait to be accepted, and the bytes in the stop
pipe. -/
structure Running (size : PoolSize) where
  server : Server size
  listening : Bool
  backlog : Nat
  pipe : Nat
  loop : Loop

/-- What the thread of `run`, a client, a signal handler, a worker or another part of the process
does next. -/
inductive RunStep (size : PoolSize) where
  | requestStop
  | connect
  | poll (outcome : PollOutcome)
  | dispatch
  | accept (outcome : AcceptOutcome)
  | backedOff
  | post
  | destroy
  | drain
  | leave
  | stopAll
  | shutdownPool
  | join
  | pop (worker : Fin size.threadCount)
  | add (worker : Fin size.threadCount)
  | remove (worker : Fin size.threadCount)
  | throw (worker : Fin size.threadCount)
  | finish (worker : Fin size.threadCount)
  | openFile (fd : Nat)
  | closeFile (fd : Nat)

namespace Running

variable {size : PoolSize}

/-- A server that listens. -/
def create (size : PoolSize) : Running size := ⟨Server.create size, true, 0, 0, .polling⟩

/-- A step of the acceptor's state, of a worker or of the process. -/
def serve (state : Running size) (step : ServerStep size) : Running size :=
  { state with server := ((Server.machine size).step state.server step).2 }

/-- `request_stop`. A full pipe takes no more, and the error is ignored. -/
def requestStop (state : Running size) : Running size :=
  if state.pipe < pipeCapacity then { state with pipe := state.pipe + 1 } else state

/-- A client connects, if somebody listens. -/
def connect (state : Running size) : Running size :=
  if state.listening then { state with backlog := state.backlog + 1 } else state

/-- `poll` waits without a limit until one of the two is readable. -/
def poll (state : Running size) (outcome : PollOutcome) : Running size :=
  match state.loop, outcome with
  | .polling, .ready =>
      if 0 < state.backlog ∨ 0 < state.pipe then
        { state with loop := .polled (0 < state.backlog) (0 < state.pipe) }
      else state
  | .polling, .failed => { state with loop := .unwinding }
  | _, _ => state

/-- What is done about the result of `poll`; a request to stop comes first. -/
def dispatch (state : Running size) : Running size :=
  match state.loop with
  | .polled _ true => { state with loop := .draining }
  | .polled true false => { state with loop := .accepting }
  | .polled false false => { state with loop := .polling }
  | _ => state

/-- `UnixListener::accept` and what `run` does about its errors. -/
def accept (state : Running size) (outcome : AcceptOutcome) : Running size :=
  match state.loop, state.server.acceptor, outcome with
  | .accepting, .polling, .connected fd =>
      match state.backlog, state.server.kernel.table fd with
      | waiting + 1, none => { state.serve (.accept fd) with backlog := waiting }
      | _, _ => state
  | .accepting, .polling, .aborted =>
      { state with backlog := state.backlog - 1, loop := .polling }
  | .accepting, .polling, .outOfFiles => { state with loop := .backingOff }
  | .accepting, .polling, .failed => { state with loop := .unwinding }
  | _, _, _ => state

/-- The pause without descriptors is over. -/
def backedOff (state : Running size) : Running size :=
  match state.loop with
  | .backingOff => { state with loop := .polling }
  | _ => state

/-- Back to the head of the loop once `accept_one` has dealt with its connection. -/
def again (state : Running size) : Running size :=
  match state.loop, state.server.acceptor with
  | .accepting, .polling => { state with loop := .polling }
  | _, _ => state

/-- `post`, and back to the head of the loop if the pool has taken the stream. -/
def post (state : Running size) : Running size :=
  match state.server.acceptor with
  | .accepted _ => (state.serve .post).again
  | _ => state

/-- A destructor, and back to the head of the loop after a refusal. -/
def destroy (state : Running size) : Running size :=
  match state.server.acceptor with
  | .refused _ => (state.serve .destroy).again
  | _ => state.serve .destroy

/-- One `read` of `drain_stop_pipe`. -/
def drain (state : Running size) : Running size :=
  match state.loop with
  | .draining =>
      if 0 < state.pipe then { state with pipe := state.pipe - drainSize }
      else { state with loop := .leaving }
  | _ => state

/-- `listener_.close()` when the loop has ended. An exception leaves the listener open
until the members of the server are destroyed. -/
def leave (state : Running size) : Running size :=
  match state.loop with
  | .leaving => { state.serve .closeListener with listening := false, backlog := 0 }
  | .unwinding => state.serve .closeListener
  | _ => state

/-- `shutdown` of the pool returns when all workers have left. -/
def join (state : Running size) : Running size :=
  if state.server.acceptor = .discarding [] ∧
      ∀ worker, state.server.pool.workers worker = .exited then
    match state.loop with
    | .leaving => { state with loop := .returned }
    | .unwinding => { state with loop := .destroyed, listening := false, backlog := 0 }
    | _ => state
  else state

/-- What a step does. -/
def step (state : Running size) : RunStep size → Running size
  | .requestStop => state.requestStop
  | .connect => state.connect
  | .poll outcome => state.poll outcome
  | .dispatch => state.dispatch
  | .accept outcome => state.accept outcome
  | .backedOff => state.backedOff
  | .post => state.post
  | .destroy => state.destroy
  | .drain => state.drain
  | .leave => state.leave
  | .stopAll => state.serve .stopAll
  | .shutdownPool => state.serve .shutdownPool
  | .join => state.join
  | .pop worker => state.serve (.pop worker)
  | .add worker => state.serve (.add worker)
  | .remove worker => state.serve (.remove worker)
  | .throw worker => state.serve (.throw worker)
  | .finish worker => state.serve (.finish worker)
  | .openFile fd => state.serve (.openFile fd)
  | .closeFile fd => state.serve (.closeFile fd)

/-- The state after some steps. -/
def run (size : PoolSize) (steps : List (RunStep size)) : Running size :=
  steps.foldl step (create size)

theorem run_snoc (steps : List (RunStep size)) (last : RunStep size) :
    run size (steps ++ [last]) = (run size steps).step last :=
  List.foldl_append ..

theorem run_append (earlier later : List (RunStep size)) :
    run size (earlier ++ later) = later.foldl step (run size earlier) :=
  List.foldl_append ..

end Running

/-! ## The acceptor -/

/-- What a step of the server can do to the acceptor, with the connections it accepts. -/
inductive Turn {size : PoolSize} (before : Acceptor) : ServerStep size → Acceptor → Nat → Prop where
  | stays (step : ServerStep size) : Turn before step before 0
  | accepts (fd : Nat) (stream : Stream) (polling : before = .polling) :
      Turn before (.accept fd) (.accepted stream) 1
  | posts (stream : Stream) (accepted : before = .accepted stream) : Turn before .post .polling 0
  | refuses (stream : Stream) (accepted : before = .accepted stream) :
      Turn before .post (.refused stream) 0
  | rejects (stream : Stream) (refused : before = .refused stream) :
      Turn before .destroy .polling 0
  | drops (stream : Stream) (rest : List Stream) (discarding : before = .discarding (stream :: rest)) :
      Turn before .destroy (.discarding rest) 0
  | closes (polling : before = .polling) : Turn before .closeListener .listenerClosed 0
  | stops (closed : before = .listenerClosed) : Turn before .stopAll .stopped 0
  | cuts (streams : List Stream) (stopped : before = .stopped) :
      Turn before .shutdownPool (.discarding streams) 0

namespace Server

variable {size : PoolSize} (server : Server size)

/-- What any step does to the acceptor. -/
theorem turn_step (step : ServerStep size) :
    ∃ taken, Turn server.acceptor step ((machine size).step server step).2.acceptor taken ∧
      ((machine size).step server step).2.nextId = server.nextId + taken := by
  cases step with
  | accept fd =>
      simp only [machine, accept]
      split
      · rename_i polling
        split
        · exact ⟨1, .accepts fd _ polling, rfl⟩
        · exact ⟨0, .stays _, rfl⟩
      · exact ⟨0, .stays _, rfl⟩
  | post =>
      simp only [machine, post]
      split
      · rename_i stream accepted
        by_cases posted : (server.pool.post stream).1 = .accepted
        · rw [if_pos posted]
          exact ⟨0, .posts stream accepted, rfl⟩
        · rw [if_neg posted]
          exact ⟨0, .refuses stream accepted, rfl⟩
      · exact ⟨0, .stays _, rfl⟩
  | destroy =>
      simp only [machine, destroy]
      split
      · rename_i stream refused
        exact ⟨0, .rejects stream refused, rfl⟩
      · rename_i stream rest discarding
        exact ⟨0, .drops stream rest discarding, rfl⟩
      · exact ⟨0, .stays _, rfl⟩
  | closeListener =>
      simp only [machine, closeListener]
      split
      · rename_i polling
        exact ⟨0, .closes polling, rfl⟩
      · exact ⟨0, .stays _, rfl⟩
  | stopAll =>
      simp only [machine, stopAll]
      split
      · rename_i closed
        exact ⟨0, .stops closed, rfl⟩
      · exact ⟨0, .stays _, rfl⟩
  | shutdownPool =>
      simp only [machine, shutdownPool]
      split
      · rename_i stopped
        exact ⟨0, .cuts _ stopped, rfl⟩
      · exact ⟨0, .stays _, rfl⟩
  | pop worker => exact ⟨0, .stays _, rfl⟩
  | add worker =>
      simp only [machine, add]
      split
      · exact ⟨0, .stays _, rfl⟩
      · exact ⟨0, .stays _, rfl⟩
  | remove worker =>
      simp only [machine, remove]
      split
      · exact ⟨0, .stays _, rfl⟩
      · exact ⟨0, .stays _, rfl⟩
  | throw worker =>
      simp only [machine, throw]
      split
      · exact ⟨0, .stays _, rfl⟩
      · exact ⟨0, .stays _, rfl⟩
  | finish worker =>
      simp only [machine, finish]
      split
      · exact ⟨0, .stays _, rfl⟩
      · exact ⟨0, .stays _, rfl⟩
      · exact ⟨0, .stays _, rfl⟩
  | openFile fd =>
      simp only [machine, openFile]
      split
      · exact ⟨0, .stays _, rfl⟩
      · exact ⟨0, .stays _, rfl⟩
  | closeFile fd =>
      simp only [machine, closeFile]
      split
      · exact ⟨0, .stays _, rfl⟩
      · exact ⟨0, .stays _, rfl⟩

end Server

variable {loop : Loop}

namespace Running

variable {size : PoolSize} {state : Running size}

theorem turn_serve (state : Running size) (step : ServerStep size) :
    ∃ taken, Turn state.server.acceptor step (state.serve step).server.acceptor taken ∧
      (state.serve step).server.nextId = state.server.nextId + taken :=
  state.server.turn_step step

/-! ## Requests to stop -/

/-- A stop was noticed, or something was thrown. -/
def isOver : Loop → Bool
  | .draining | .leaving | .unwinding | .returned | .destroyed => true
  | _ => false

/-- A request to stop was noticed or will be, by the next `poll` that returns. -/
def Pending (state : Running size) : Prop := isOver state.loop = true ∨ 0 < state.pipe

/-- How many connections may be accepted before `poll` is called again. -/
def allowance : Loop → Acceptor → Nat
  | .polled true false, _ => 1
  | .accepting, .polling => 1
  | _, _ => 0

/-- What has been accepted, and what still may be before `poll` is called again. -/
def expected (state : Running size) : Nat :=
  state.server.nextId + allowance state.loop state.server.acceptor

/-- At most one more connection is accepted after a request. -/
theorem allowance_le_one (loop : Loop) (acceptor : Acceptor) : allowance loop acceptor ≤ 1 := by
  unfold allowance
  split
  · exact Nat.le_refl 1
  · exact Nat.le_refl 1
  · exact Nat.zero_le 1

/-- The acceptor matters only to `accept_one`, which expects no connection while it is busy
with one. -/
theorem allowance_busy {before after : Acceptor} (busy : after ≠ .polling ∨ loop ≠ .accepting) :
    allowance loop after ≤ allowance loop before := by
  cases loop with
  | accepting =>
      cases after with
      | polling => exact absurd rfl (busy.resolve_left (fun other => other rfl))
      | _ => exact Nat.zero_le _
  | polled listener stop => exact Nat.le_of_eq (by cases listener <;> cases stop <;> rfl)
  | _ => exact Nat.zero_le _

/-- A step of the server other than those in which the acceptor is done with a connection. -/
theorem expected_serve (state : Running size) {step : ServerStep size}
    (other : ∀ after taken, Turn state.server.acceptor step after taken →
      (after = state.server.acceptor ∨ after ≠ .polling) ∧ taken = 0) :
    (state.serve step).expected ≤ state.expected := by
  obtain ⟨taken, turn, next⟩ := state.turn_serve step
  obtain ⟨same | busy, none⟩ := other _ _ turn
  · rw [expected, next, none, same]
    exact Nat.le_refl _
  · rw [expected, next, none]
    exact Nat.add_le_add_left (allowance_busy (Or.inl busy)) _

/-- Once the acceptor is done with a connection, `poll` is called. -/
theorem expected_again {step : ServerStep size}
    (none : (state.serve step).server.nextId = state.server.nextId) :
    (state.serve step).again.expected ≤ state.expected := by
  unfold Running.again
  split
  · exact Nat.le_trans (Nat.le_of_eq none) (Nat.le_add_right ..)
  · rename_i elsewhere
    rw [expected, none]
    refine Nat.add_le_add_left (allowance_busy ?_) _
    by_cases polling : (state.serve step).server.acceptor = .polling
    · exact Or.inr fun accepting => elsewhere accepting polling
    · exact Or.inl polling

/-- Going back to the head of the loop forgets no request. -/
theorem pending_again (pending : Pending state) : Pending state.again := by
  unfold Running.again
  split
  · rename_i accepting _
    rw [Pending, accepting] at pending
    exact Or.inr (pending.resolve_left (by simp [isOver]))
  · exact pending

/-- Accepting uses the allowance up. -/
theorem expected_accept (state : Running size) (outcome : AcceptOutcome) :
    (state.accept outcome).expected ≤ state.expected := by
  unfold Running.accept
  split
  · rename_i fd accepting polling
    split
    · obtain ⟨taken, turn, next⟩ := state.turn_serve (.accept fd)
      have one : allowance state.loop state.server.acceptor = 1 := by
        rw [accepting, polling]
        rfl
      change (state.serve (.accept fd)).server.nextId +
        allowance state.loop (state.serve (.accept fd)).server.acceptor ≤ _
      rw [expected, next, one, accepting]
      generalize (state.serve (.accept fd)).server.acceptor = after at turn ⊢
      cases turn with
      | stays => exact Nat.add_le_add_left (allowance_le_one ..) _
      | accepts _ stream _ => exact Nat.le_refl _
    · exact Nat.le_refl _
  · exact Nat.add_le_add_left (Nat.zero_le _) _
  · exact Nat.add_le_add_left (Nat.zero_le _) _
  · exact Nat.add_le_add_left (Nat.zero_le _) _
  · exact Nat.le_refl _

/-- Accepting forgets no request. -/
theorem pending_accept (pending : Pending state) (outcome : AcceptOutcome) :
    Pending (state.accept outcome) := by
  have unnoticed : state.loop = .accepting → 0 < state.pipe := by
    intro accepting
    rw [Pending, accepting] at pending
    exact pending.resolve_left (by simp [isOver])
  unfold Running.accept
  split
  · split
    · exact pending
    · exact pending
  · rename_i accepting _
    exact Or.inr (unnoticed accepting)
  · rename_i accepting _
    exact Or.inr (unnoticed accepting)
  · exact Or.inl rfl
  · exact pending

/-- A request that is pending stays so, and at most what `poll` has promised is accepted. -/
theorem Pending.step (pending : Pending state) (step : RunStep size) :
    Pending (state.step step) ∧ (state.step step).expected ≤ state.expected := by
  -- A step of the server moves neither the loop nor the pipe.
  have served : ∀ own : ServerStep size, Pending (state.serve own) := fun _ => pending
  cases step with
  | requestStop =>
      simp only [Running.step, requestStop]
      split
      · exact ⟨Or.inr (Nat.succ_pos _), Nat.le_refl _⟩
      · exact ⟨pending, Nat.le_refl _⟩
  | connect =>
      simp only [Running.step, connect]
      split
      · exact ⟨pending, Nat.le_refl _⟩
      · exact ⟨pending, Nat.le_refl _⟩
  | poll outcome =>
      simp only [Running.step, poll]
      split
      · rename_i polling
        split
        · rw [Pending, polling] at pending
          have requested : 0 < state.pipe := pending.resolve_left (by simp [isOver])
          refine ⟨Or.inr requested, ?_⟩
          simp only [expected, requested, decide_true]
          exact Nat.add_le_add_left (by simp [allowance]) _
        · exact ⟨pending, Nat.le_refl _⟩
      · exact ⟨Or.inl rfl, Nat.add_le_add_left (Nat.zero_le _) _⟩
      · exact ⟨pending, Nat.le_refl _⟩
  | dispatch =>
      simp only [Running.step, dispatch]
      split
      · exact ⟨Or.inl rfl, Nat.add_le_add_left (Nat.zero_le _) _⟩
      · rename_i polled
        rw [Pending, polled] at pending
        refine ⟨Or.inr (pending.resolve_left (by simp [isOver])), ?_⟩
        simp only [expected, polled]
        exact Nat.add_le_add_left (allowance_le_one ..) _
      · rename_i polled
        rw [Pending, polled] at pending
        exact ⟨Or.inr (pending.resolve_left (by simp [isOver])), Nat.add_le_add_left (Nat.zero_le _) _⟩
      · exact ⟨pending, Nat.le_refl _⟩
  | accept outcome => exact ⟨pending_accept pending outcome, state.expected_accept outcome⟩
  | backedOff =>
      simp only [Running.step, backedOff]
      split
      · rename_i waiting
        rw [Pending, waiting] at pending
        exact ⟨Or.inr (pending.resolve_left (by simp [isOver])), Nat.add_le_add_left (Nat.zero_le _) _⟩
      · exact ⟨pending, Nat.le_refl _⟩
  | post =>
      simp only [Running.step, post]
      split
      · refine ⟨pending_again (served _), expected_again ?_⟩
        obtain ⟨taken, turn, next⟩ := state.turn_serve .post
        generalize (state.serve .post).server.acceptor = after at turn
        cases turn with
        | _ => exact next
      · exact ⟨pending, Nat.le_refl _⟩
  | destroy =>
      simp only [Running.step, destroy]
      split
      · refine ⟨pending_again (served _), expected_again ?_⟩
        obtain ⟨taken, turn, next⟩ := state.turn_serve .destroy
        generalize (state.serve .destroy).server.acceptor = after at turn
        cases turn with
        | _ => exact next
      · rename_i unrefused
        refine ⟨served _, state.expected_serve fun after taken turn => ?_⟩
        cases turn with
        | stays => exact ⟨Or.inl rfl, rfl⟩
        | rejects stream refused => exact absurd refused (unrefused stream)
        | drops _ _ _ => exact ⟨Or.inr (by simp), rfl⟩
  | drain =>
      simp only [Running.step, drain]
      split
      · rename_i draining
        split
        · refine ⟨Or.inl ?_, Nat.le_refl _⟩
          rw [draining]
          rfl
        · exact ⟨Or.inl rfl, Nat.add_le_add_left (Nat.zero_le _) _⟩
      · exact ⟨pending, Nat.le_refl _⟩
  | leave =>
      have closed : (state.serve .closeListener).expected ≤ state.expected := by
        refine state.expected_serve fun after taken turn => ?_
        cases turn with
        | stays => exact ⟨Or.inl rfl, rfl⟩
        | closes _ => exact ⟨Or.inr (by simp), rfl⟩
      simp only [Running.step, leave]
      split
      · rename_i leaving
        exact ⟨Or.inl (by rw [serve, leaving]; rfl), closed⟩
      · exact ⟨served _, closed⟩
      · exact ⟨pending, Nat.le_refl _⟩
  | join =>
      simp only [Running.step, join]
      split
      · split
        · exact ⟨Or.inl rfl, Nat.add_le_add_left (Nat.zero_le _) _⟩
        · exact ⟨Or.inl rfl, Nat.add_le_add_left (Nat.zero_le _) _⟩
        · exact ⟨pending, Nat.le_refl _⟩
      · exact ⟨pending, Nat.le_refl _⟩
  | _ =>
      refine ⟨served _, state.expected_serve fun after taken turn => ?_⟩
      cases turn with
      | stays => exact ⟨Or.inl rfl, rfl⟩
      | _ => exact ⟨Or.inr (by simp), rfl⟩

/-- Whether the loop has found the pipe readable. -/
def noticed : Loop → Bool
  | .polled _ true | .draining | .leaving | .returned => true
  | _ => false

/-- Only a request to stop fills the pipe, and only what is in the pipe is noticed. -/
theorem noticed_step {step : RunStep size} (other : step ≠ .requestStop)
    (now : noticed (state.step step).loop = true ∨ 0 < (state.step step).pipe) :
    noticed state.loop = true ∨ 0 < state.pipe := by
  -- A step after which nothing has been noticed, and which does not fill the pipe.
  have quiet : ∀ {loop : Loop} {pipe : Nat}, noticed loop = false → pipe ≤ state.pipe →
      noticed loop = true ∨ 0 < pipe → noticed state.loop = true ∨ 0 < state.pipe := by
    intro loop pipe unnoticed less now
    rcases now with found | some
    · rw [unnoticed] at found
      cases found
    · exact Or.inr (Nat.lt_of_lt_of_le some less)
  cases step with
  | requestStop => exact absurd rfl other
  | connect =>
      simp only [Running.step, connect] at now
      split at now
      · exact now
      · exact now
  | poll outcome =>
      simp only [Running.step, poll] at now
      split at now
      · split at now
        · by_cases some : 0 < state.pipe
          · exact Or.inr some
          · simp only [some, decide_false, noticed, Bool.false_eq_true, or_self] at now
        · exact now
      · exact quiet rfl (Nat.le_refl _) now
      · exact now
  | dispatch =>
      simp only [Running.step, dispatch] at now
      split at now
      · rename_i polled
        rw [polled]
        exact Or.inl rfl
      · exact quiet rfl (Nat.le_refl _) now
      · exact quiet rfl (Nat.le_refl _) now
      · exact now
  | accept outcome =>
      simp only [Running.step, Running.accept] at now
      split at now
      · split at now
        · exact now
        · exact now
      · exact quiet rfl (Nat.le_refl _) now
      · exact quiet rfl (Nat.le_refl _) now
      · exact quiet rfl (Nat.le_refl _) now
      · exact now
  | backedOff =>
      simp only [Running.step, backedOff] at now
      split at now
      · exact quiet rfl (Nat.le_refl _) now
      · exact now
  | post =>
      simp only [Running.step, post, Running.again] at now
      split at now
      · split at now
        · exact quiet rfl (Nat.le_refl _) now
        · exact now
      · exact now
  | destroy =>
      simp only [Running.step, destroy, Running.again] at now
      split at now
      · split at now
        · exact quiet rfl (Nat.le_refl _) now
        · exact now
      · exact now
  | drain =>
      simp only [Running.step, drain] at now
      split at now
      · rename_i draining
        rw [draining]
        exact Or.inl rfl
      · exact now
  | leave =>
      simp only [Running.step, leave] at now
      split at now
      · exact now
      · exact now
      · exact now
  | join =>
      simp only [Running.step, join] at now
      split at now
      · split at now
        · rename_i leaving
          rw [leaving]
          exact Or.inl rfl
        · exact quiet rfl (Nat.le_refl _) now
        · exact now
      · exact now
  | _ => exact now

/-- What is noticed was requested. -/
theorem run_noticed {steps : List (RunStep size)}
    (now : noticed (run size steps).loop = true ∨ 0 < (run size steps).pipe) :
    .requestStop ∈ steps := by
  induction steps using List.reverseRecOn with
  | nil => simp [run, create, noticed] at now
  | append_singleton steps last ih =>
      rw [run_snoc] at now
      by_cases asked : last = .requestStop
      · rw [asked]
        exact List.mem_append_right _ (List.mem_singleton_self _)
      · exact List.mem_append_left _ (ih (noticed_step asked now))

/-- Once requested, a stop is pending for ever, and what is accepted is bounded. -/
theorem run_pending (pending : Pending state) (later : List (RunStep size)) :
    Pending (later.foldl step state) ∧ (later.foldl step state).expected ≤ state.expected := by
  induction later using List.reverseRecOn with
  | nil => exact ⟨pending, Nat.le_refl _⟩
  | append_singleton later last ih =>
      rw [List.foldl_append]
      obtain ⟨still, less⟩ := ih.1.step last
      exact ⟨still, Nat.le_trans less ih.2⟩

/-- Whatever was requested is pending from then on. -/
theorem pending_of_requested {steps : List (RunStep size)} (requested : .requestStop ∈ steps) :
    Pending (run size steps) := by
  obtain ⟨earlier, later, rfl⟩ := List.append_of_mem requested
  rw [run_append, List.foldl_cons]
  refine (run_pending ?_ later).1
  simp only [step, requestStop]
  split
  · exact Or.inr (Nat.succ_pos _)
  · rename_i full
    exact Or.inr (Nat.lt_of_lt_of_le (by decide) (Nat.not_lt.mp full))

end Running

/-- No request to stop is lost, and none is made up. In every interleaving of the accept
loop, clients, workers and calls of `request_stop`: once a stop has been requested, the loop
has been left or is on its way out, or the next `poll` that returns sees the request and the
loop is left; at most one more connection is accepted; and the loop is left without an
exception only if a stop was requested. -/
theorem stop_request_honoured (size : PoolSize) (steps : List (RunStep size)) :
    let state := Running.run size steps
    (.requestStop ∈ steps →
        (Running.isOver state.loop = true ∨ 0 < state.pipe) ∧
        (state.loop = .polling →
          ((state.step (.poll .ready)).step .dispatch).loop = .draining) ∧
        ∀ later, (Running.run size (steps ++ later)).server.nextId ≤ state.server.nextId + 1) ∧
      (state.loop = .draining ∨ state.loop = .leaving ∨ state.loop = .returned →
        .requestStop ∈ steps) := by
  intro state
  refine ⟨fun requested => ⟨Running.pending_of_requested requested, ?_, ?_⟩, ?_⟩
  · intro polling
    have pending : Running.Pending state := Running.pending_of_requested requested
    rw [Running.Pending, polling] at pending
    have some : 0 < state.pipe := pending.resolve_left (by simp [Running.isOver])
    simp only [Running.step, Running.poll, polling, some, or_true, decide_true, ↓reduceIte,
      Running.dispatch]
  · intro later
    have bound := (Running.run_pending (Running.pending_of_requested requested) later).2
    rw [← Running.run_append] at bound
    calc (Running.run size (steps ++ later)).server.nextId
        ≤ (Running.run size (steps ++ later)).expected := Nat.le_add_right ..
      _ ≤ state.expected := bound
      _ ≤ state.server.nextId + 1 := Nat.add_le_add_left (Running.allowance_le_one ..) _
  · intro ended
    refine Running.run_noticed (Or.inl ?_)
    rcases ended with loop | loop | loop
    all_goals
      rw [show (Running.run size steps).loop = _ from loop]
      rfl

end Lrd.Daemon
