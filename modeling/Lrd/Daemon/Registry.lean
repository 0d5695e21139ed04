import Mathlib.Data.List.AList
import Lrd.Foundation.Handles
import Lrd.Concurrency.ThreadPool

/-!
# The connection registry

The acceptor (`Server::run`, `Server::accept_one`), the workers that serve connections
(`Server::serve_connection`) and the kernel's descriptor table, with the registry through
which shutdown reaches the connections that are being served
(`daemon/connection_registry.hpp`, `daemon/connection_registry.cpp`).

A number is open from `accept` until the stream that owns it is destroyed, and the kernel
may then give it to any file. Every stream has one owner at a time: the acceptor, the
pool's queue or a worker. What a step does to the kernel, the registry, the streams and the
connections in their loops is said once, by `Effect`.
-/

namespace Lrd.Daemon

open Foundation Concurrency

/-! ## The registry -/

/-- The connections that are being served, by token. -/
structure ConnectionRegistry where
  connections : AList (fun _ : UInt64 => Nat) := ∅
  nextToken : UInt64 := 1
  stopping : Bool := false

namespace ConnectionRegistry

/-- An entry that is already there is kept, as `emplace` does. -/
def add (registry : ConnectionRegistry) (fd : Nat) : UInt64 × ConnectionRegistry :=
  if registry.stopping then (0, registry)
  else
    let token := registry.nextToken
    (token,
      { registry with
        nextToken := token + 1
        connections :=
          if token ∈ registry.connections then registry.connections
          else registry.connections.insert token fd })

/-- An entry is taken back. -/
def remove (registry : ConnectionRegistry) (token : UInt64) : ConnectionRegistry :=
  { registry with connections := registry.connections.erase token }

/-- With the numbers that are shut down. -/
def stopAll (registry : ConnectionRegistry) : List Nat × ConnectionRegistry :=
  (registry.connections.entries.map fun entry => entry.2, { registry with stopping := true })

/-- The numbers that are shut down are those of the entries. -/
theorem mem_stopAll {registry : ConnectionRegistry} {fd : Nat} :
    fd ∈ registry.stopAll.1 ↔ ∃ token, registry.connections.lookup token = some fd := by
  simp only [stopAll, List.mem_map, ← Option.mem_def, AList.mem_lookup_iff]
  constructor
  · rintro ⟨⟨token, _⟩, member, rfl⟩
    exact ⟨token, member⟩
  · rintro ⟨token, member⟩
    exact ⟨⟨token, fd⟩, member, rfl⟩

end ConnectionRegistry

/-! ## The kernel -/

/-- What a descriptor number stands for. Connections are told apart by the order in which
they were accepted. -/
inductive File where
  | connection (id : Nat)
  | other
deriving DecidableEq, Repr

/-- The descriptor table, and the connections that have been shut down. -/
structure Kernel where
  table : Nat → Option File := fun _ => none
  shut : Nat → Bool := fun _ => false

namespace Kernel

/-- A number is given to a file, or given up. -/
def assign (kernel : Kernel) (fd : Nat) (file : Option File) : Kernel :=
  { kernel with table := Function.update kernel.table fd file }

/-- The system call acts on whatever the number stands for. -/
def shutdown (kernel : Kernel) (fd : Nat) : Kernel :=
  match kernel.table fd with
  | some (.connection id) => { kernel with shut := Function.update kernel.shut id true }
  | _ => kernel

theorem table_shutdown (kernel : Kernel) (fd : Nat) :
    (kernel.shutdown fd).table = kernel.table := by
  unfold shutdown
  split <;> rfl

/-- A connection is shut down through its number, and stays so. -/
theorem shut_shutdown {kernel : Kernel} {id : Nat} (fd : Nat)
    (reached : kernel.shut id = true ∨ kernel.table fd = some (.connection id)) :
    (kernel.shutdown fd).shut id = true := by
  unfold shutdown
  split
  · rename_i other open_
    by_cases same : id = other
    · subst same
      exact Function.update_self ..
    · rw [open_] at reached
      obtain already | now := reached
      · exact (Function.update_of_ne same ..).trans already
      · cases now
        exact absurd rfl same
  · rename_i closed
    obtain already | now := reached
    · exact already
    · exact absurd now (closed id)

/-- Nor do several calls of `shutdown` close anything. -/
theorem table_shutdowns (fds : List Nat) (kernel : Kernel) :
    (fds.foldl shutdown kernel).table = kernel.table := by
  induction fds generalizing kernel with
  | nil => rfl
  | cons fd fds ih => exact (ih _).trans (kernel.table_shutdown fd)

/-- Every connection behind one of the numbers is shut down. -/
theorem shut_shutdowns {fds : List Nat} {kernel : Kernel} {id : Nat}
    (reached : kernel.shut id = true ∨ ∃ fd ∈ fds, kernel.table fd = some (.connection id)) :
    (fds.foldl shutdown kernel).shut id = true := by
  induction fds generalizing kernel with
  | nil =>
      obtain already | ⟨fd, member, _⟩ := reached
      · exact already
      · exact absurd member List.not_mem_nil
  | cons first fds ih =>
      apply ih
      obtain already | ⟨fd, member, opened⟩ := reached
      · exact .inl (shut_shutdown first (.inl already))
      · obtain rfl | later := List.mem_cons.mp member
        · exact .inl (shut_shutdown fd (.inr opened))
        · exact .inr ⟨fd, later, (congrFun (kernel.table_shutdown first) fd).trans opened⟩

end Kernel

/-! ## The server -/

/-- A `UnixStream`, which owns its number, with the connection it was accepted for. -/
structure Stream where
  id : Nat
  fd : Nat
deriving DecidableEq, Repr

/-- The file of a stream. -/
def Stream.file (stream : Stream) : File := .connection stream.id

/-- Where the thread of `Server::run` is. -/
inductive Acceptor where
  | polling
  | accepted (stream : Stream)
  | refused (stream : Stream)
  | listenerClosed
  | stopped
  | discarding (streams : List Stream)
deriving DecidableEq, Repr

/-- The streams that the acceptor owns. -/
def Acceptor.streams : Acceptor → List Stream
  | .accepted stream => [stream]
  | .refused stream => [stream]
  | .discarding streams => streams
  | _ => []

/-- Where a worker is in `serve_connection`: before it has registered, in the loop, or
after the guard is gone, at the end of the function or because an exception left the loop. -/
inductive Phase where
  | entered
  | looping (token : UInt64)
  | left
  | thrown
deriving DecidableEq, Repr

/-- The counters of the server. -/
structure ServerStats where
  accepted : UInt64 := 0
  rejected : UInt64 := 0
  completed : UInt64 := 0

/-- The server: the kernel, the registry, the pool, the acceptor and its workers. -/
structure Server (size : PoolSize) where
  kernel : Kernel
  registry : ConnectionRegistry
  pool : ThreadPool Stream size
  acceptor : Acceptor
  phases : Fin size.threadCount → Phase
  nextId : Nat
  stats : ServerStats

/-- What the acceptor, a worker or another part of the process does next. -/
inductive ServerStep (size : PoolSize) where
  | accept (fd : Nat)
  | post
  | destroy
  | closeListener
  | stopAll
  | shutdownPool
  | pop (worker : Fin size.threadCount)
  | add (worker : Fin size.threadCount)
  | remove (worker : Fin size.threadCount)
  | throw (worker : Fin size.threadCount)
  | finish (worker : Fin size.threadCount)
  | openFile (fd : Nat)
  | closeFile (fd : Nat)

/-- What a step did to the registry, where that is more than to remove an entry. -/
inductive ServerOutcome where
  | handedOut (token : UInt64)
  | stoppedAll
  | nothing
deriving DecidableEq, Repr

namespace Server

variable {size : PoolSize}

/-- A server that waits for its first connection. -/
def create (size : PoolSize) : Server size where
  kernel := {}
  registry := {}
  pool := ThreadPool.create Stream size
  acceptor := .polling
  phases := fun _ => .entered
  nextId := 0
  stats := {}

/-- The kernel picks a number that is not open. -/
def accept (server : Server size) (fd : Nat) : Server size :=
  match server.acceptor with
  | .polling =>
      match server.kernel.table fd with
      | none =>
          let stream : Stream := ⟨server.nextId, fd⟩
          { server with
            kernel := server.kernel.assign fd (some stream.file)
            acceptor := .accepted stream
            nextId := server.nextId + 1
            stats := { server.stats with accepted := server.stats.accepted + 1 } }
      | some _ => server
  | _ => server

/-- The stream goes to the pool, or stays with the acceptor if the pool refuses it. -/
def post (server : Server size) : Server size :=
  match server.acceptor with
  | .accepted stream =>
      let posted := server.pool.post stream
      { server with
        pool := posted.2
        acceptor := if posted.1 = .accepted then .polling else .refused stream }
  | _ => server

/-- The destructor of a stream in a task that the pool refused or discarded. -/
def destroy (server : Server size) : Server size :=
  match server.acceptor with
  | .refused stream =>
      { server with
        kernel := server.kernel.assign stream.fd none
        acceptor := .polling
        stats := { server.stats with rejected := server.stats.rejected + 1 } }
  | .discarding (stream :: rest) =>
      { server with
        kernel := server.kernel.assign stream.fd none
        acceptor := .discarding rest }
  | _ => server

/-- `listener_.close()`. -/
def closeListener (server : Server size) : Server size :=
  match server.acceptor with
  | .polling => { server with acceptor := .listenerClosed }
  | _ => server

/-- `registry_.stop_all()`. -/
def stopAll (server : Server size) : ServerOutcome × Server size :=
  match server.acceptor with
  | .listenerClosed =>
      let stopped := server.registry.stopAll
      (.stoppedAll,
        { server with
          kernel := stopped.1.foldl Kernel.shutdown server.kernel
          registry := stopped.2
          acceptor := .stopped })
  | _ => (.nothing, server)

/-- `pool_.shutdown(Discard)`, up to where it joins: the acceptor now owns what was queued. -/
def shutdownPool (server : Server size) : Server size :=
  match server.acceptor with
  | .stopped =>
      let cut := server.pool.shutdown .discard
      { server with
        pool := cut.2
        acceptor := .discarding cut.1 }
  | _ => server

/-- A worker that takes a task enters `serve_connection`. -/
def pop (server : Server size) (worker : Fin size.threadCount) : Server size :=
  let popped := server.pool.pop worker
  { server with
    pool := popped.2
    phases :=
      match popped.1 with
      | .started _ => Function.update server.phases worker .entered
      | _ => server.phases }

/-- The guard is constructed. A token of zero means that the connection is not served. -/
def add (server : Server size) (worker : Fin size.threadCount) :
    ServerOutcome × Server size :=
  match server.pool.workers worker, server.phases worker with
  | .running stream, .entered =>
      let added := server.registry.add stream.fd
      (if server.registry.stopping then .nothing else .handedOut added.1,
        { server with
          registry := added.2
          phases := Function.update server.phases worker
            (if added.1 = 0 then .left else .looping added.1) })
  | _, _ => (.nothing, server)

/-- The loop has ended and the guard is destroyed. -/
def remove (server : Server size) (worker : Fin size.threadCount) : Server size :=
  match server.pool.workers worker, server.phases worker with
  | .running _, .looping token =>
      { server with
        registry := server.registry.remove token
        phases := Function.update server.phases worker .left
        stats := { server.stats with completed := server.stats.completed + 1 } }
  | _, _ => server

/-- An exception leaves the loop and destroys the guard. The line that counts the
connection as completed is not reached. -/
def throw (server : Server size) (worker : Fin size.threadCount) : Server size :=
  match server.pool.workers worker, server.phases worker with
  | .running _, .looping token =>
      { server with
        registry := server.registry.remove token
        phases := Function.update server.phases worker .thrown }
  | _, _ => server

/-- The parameter `stream` is destroyed after the guard, and the task is done. An exception
goes on to `worker_loop`, which counts it. -/
def finish (server : Server size) (worker : Fin size.threadCount) : Server size :=
  match server.pool.workers worker, server.phases worker with
  | .running stream, .left =>
      { server with
        kernel := server.kernel.assign stream.fd none
        pool := (server.pool.complete worker).2 }
  | .running stream, .thrown =>
      { server with
        kernel := server.kernel.assign stream.fd none
        pool := (server.pool.throw worker).2 }
  | _, _ => server

/-- Something else in the process opens a file. -/
def openFile (server : Server size) (fd : Nat) : Server size :=
  match server.kernel.table fd with
  | none => { server with kernel := server.kernel.assign fd (some .other) }
  | some _ => server

/-- Something else in the process closes a file of its own. -/
def closeFile (server : Server size) (fd : Nat) : Server size :=
  match server.kernel.table fd with
  | some .other => { server with kernel := server.kernel.assign fd none }
  | _ => server

/-- The server as a machine. -/
def machine (size : PoolSize) : Machine (Server size) (ServerStep size) ServerOutcome where
  step server
    | .accept fd => (.nothing, server.accept fd)
    | .post => (.nothing, server.post)
    | .destroy => (.nothing, server.destroy)
    | .closeListener => (.nothing, server.closeListener)
    | .stopAll => server.stopAll
    | .shutdownPool => (.nothing, server.shutdownPool)
    | .pop worker => (.nothing, server.pop worker)
    | .add worker => server.add worker
    | .remove worker => (.nothing, server.remove worker)
    | .throw worker => (.nothing, server.throw worker)
    | .finish worker => (.nothing, server.finish worker)
    | .openFile fd => (.nothing, server.openFile fd)
    | .closeFile fd => (.nothing, server.closeFile fd)

/-! ## What a step can do -/

/-- All streams, by owner. -/
def streams (server : Server size) : List Stream :=
  server.acceptor.streams ++ server.pool.queue ++ server.pool.running

/-- A worker is in the loop of a connection. -/
def Loops (server : Server size) (worker : Fin size.threadCount) (stream : Stream)
    (token : UInt64) : Prop :=
  server.pool.workers worker = .running stream ∧ server.phases worker = .looping token

/-- A stream that a worker serves is one of them. -/
theorem Loops.mem_streams {server : Server size} {worker : Fin size.threadCount}
    {stream : Stream} {token : UInt64} (loops : server.Loops worker stream token) :
    stream ∈ server.streams := by
  refine List.mem_append_right _ (List.mem_filterMap.mpr ⟨worker, List.mem_finRange _, ?_⟩)
  rw [loops.1]
  rfl

/-- The effects of a step on the kernel, the registry, the streams and the workers in their
loops. -/
inductive Effect (server next : Server size) : ServerOutcome → Prop where
  /-- Streams change hands. -/
  | moves (kernel : next.kernel = server.kernel) (registry : next.registry = server.registry)
      (streams : next.streams.Perm server.streams)
      (loops : ∀ worker stream token,
        next.Loops worker stream token ↔ server.Loops worker stream token) :
      Effect server next .nothing
  | opens (stream : Stream) (free : server.kernel.table stream.fd = none)
      (kernel : next.kernel = server.kernel.assign stream.fd (some stream.file))
      (registry : next.registry = server.registry)
      (streams : next.streams.Perm (stream :: server.streams))
      (loops : ∀ worker stream token,
        next.Loops worker stream token ↔ server.Loops worker stream token) :
      Effect server next .nothing
  | closes (stream : Stream) (kernel : next.kernel = server.kernel.assign stream.fd none)
      (registry : next.registry = server.registry)
      (streams : server.streams.Perm (stream :: next.streams))
      (loops : ∀ worker stream token,
        next.Loops worker stream token ↔ server.Loops worker stream token) :
      Effect server next .nothing
  /-- A number that belongs to no connection changes its meaning. -/
  | elsewhere (fd : Nat) (file : Option File)
      (unowned : ∀ id, server.kernel.table fd ≠ some (.connection id))
      (same : next = { server with kernel := server.kernel.assign fd file }) :
      Effect server next .nothing
  | adds (worker : Fin size.threadCount) (stream : Stream)
      (running : server.pool.workers worker = .running stream)
      (entered : server.phases worker = .entered) (accepting : server.registry.stopping = false)
      (kernel : next.kernel = server.kernel)
      (registry : next.registry = (server.registry.add stream.fd).2)
      (streams : next.streams = server.streams) (pool : next.pool = server.pool)
      (phases : next.phases = Function.update server.phases worker
        (if server.registry.nextToken = 0 then .left else .looping server.registry.nextToken)) :
      Effect server next (.handedOut server.registry.nextToken)
  /-- The loop is left, and the guard with it. -/
  | removes (worker : Fin size.threadCount) (stream : Stream) (token : UInt64) (phase : Phase)
      (loops : server.Loops worker stream token) (outside : ∀ held, phase ≠ .looping held)
      (kernel : next.kernel = server.kernel)
      (registry : next.registry = server.registry.remove token)
      (streams : next.streams = server.streams) (pool : next.pool = server.pool)
      (phases : next.phases = Function.update server.phases worker phase) :
      Effect server next .nothing
  | stops (kernel : next.kernel = server.registry.stopAll.1.foldl Kernel.shutdown server.kernel)
      (registry : next.registry = server.registry.stopAll.2)
      (streams : next.streams = server.streams) (pool : next.pool = server.pool)
      (phases : next.phases = server.phases) :
      Effect server next .stoppedAll

theorem Effect.nothing (server : Server size) : Effect server server .nothing :=
  .moves rfl rfl (List.Perm.refl _) fun _ _ _ => Iff.rfl

/-- A worker that is outside the loop before and after may change without notice. -/
theorem loops_elsewhere {server next : Server size} (worker : Fin size.threadCount)
    (others : ∀ other, other ≠ worker →
      next.pool.workers other = server.pool.workers other ∧
        next.phases other = server.phases other)
    (before : ∀ stream token, ¬ server.Loops worker stream token)
    (after : ∀ stream token, ¬ next.Loops worker stream token)
    (other : Fin size.threadCount) (stream : Stream) (token : UInt64) :
    next.Loops other stream token ↔ server.Loops other stream token := by
  by_cases same : other = worker
  · subst same
    exact iff_of_false (after stream token) (before stream token)
  · obtain ⟨workers, phases⟩ := others other same
    rw [Loops, Loops, workers, phases]

/-- A connection that is accepted opens its number. -/
theorem effect_accept (server : Server size) (fd : Nat) :
    Effect server (server.accept fd) .nothing := by
  unfold accept
  split
  · rename_i polling
    split
    · rename_i free
      refine .opens ⟨server.nextId, fd⟩ free rfl rfl ?_ fun _ _ _ => Iff.rfl
      rw [streams, streams, polling]
      rfl
    · exact .nothing server
  · exact .nothing server

/-- `post` moves a stream. -/
theorem effect_post (server : Server size) : Effect server server.post .nothing := by
  unfold post
  split
  · rename_i stream accepted
    have moves := server.pool.moves_post stream
    dsimp only
    generalize server.pool.post stream = posted at moves ⊢
    obtain ⟨status, pool⟩ := posted
    cases moves with
    | refuse _ _ refused =>
        refine .moves rfl rfl ?_ fun _ _ _ => Iff.rfl
        rw [streams, streams, accepted]
        simp only [refused, ↓reduceIte]
        rfl
    | accept _ running room =>
        refine .moves rfl rfl ?_ fun _ _ _ => Iff.rfl
        rw [streams, streams, accepted]
        exact (List.perm_append_singleton stream server.pool.queue).append_right _
  · exact .nothing server

/-- A destructor closes its number. -/
theorem effect_destroy (server : Server size) : Effect server server.destroy .nothing := by
  unfold destroy
  split
  · rename_i stream refused
    refine .closes stream rfl rfl ?_ fun _ _ _ => Iff.rfl
    rw [streams, streams, refused]
    rfl
  · rename_i stream rest discarding
    refine .closes stream rfl rfl ?_ fun _ _ _ => Iff.rfl
    rw [streams, streams, discarding]
    rfl
  · exact .nothing server

/-- Closing the listener moves nothing. -/
theorem effect_closeListener (server : Server size) :
    Effect server server.closeListener .nothing := by
  unfold closeListener
  split
  · rename_i polling
    refine .moves rfl rfl ?_ fun _ _ _ => Iff.rfl
    rw [streams, streams, polling]
    rfl
  · exact .nothing server

/-- `stop_all` stops the registry. -/
theorem effect_stopAll (server : Server size) :
    Effect server server.stopAll.2 server.stopAll.1 := by
  unfold stopAll
  split
  · rename_i closed
    refine .stops rfl rfl ?_ rfl rfl
    rw [streams, streams, closed]
    rfl
  · exact .nothing server

/-- What is discarded moves to the acceptor. -/
theorem effect_shutdownPool (server : Server size) :
    Effect server server.shutdownPool .nothing := by
  unfold shutdownPool
  split
  · rename_i stopped
    have moves := server.pool.moves_shutdown .discard
    dsimp only
    generalize server.pool.shutdown .discard = cut at moves ⊢
    obtain ⟨dropped, pool⟩ := cut
    cases moves with
    | discard running =>
        refine .moves rfl rfl ?_ fun _ _ _ => Iff.rfl
        rw [streams, streams, stopped]
        simp only [Acceptor.streams, List.append_nil, List.nil_append]
        rfl
    | again _ stopping =>
        refine .moves rfl rfl ?_ fun _ _ _ => Iff.rfl
        rw [streams, streams, stopped]
        rfl
  · exact .nothing server

/-- A worker takes a stream, which is not in a loop yet. -/
theorem effect_pop (server : Server size) (worker : Fin size.threadCount) :
    Effect server (server.pop worker) .nothing := by
  have moves := server.pool.moves_pop worker
  unfold pop
  dsimp only
  generalize server.pool.pop worker = popped at moves ⊢
  obtain ⟨outcome, pool⟩ := popped
  cases moves with
  | start _ stream rest waiting front =>
      refine .moves rfl rfl ?_ (loops_elsewhere worker ?_ ?_ ?_)
      · have taken := ThreadPool.running_start waiting stream
        rw [streams, streams, front, List.append_assoc, List.append_assoc]
        exact ((taken.append_left rest).trans List.perm_middle).append_left _
      · intro other different
        exact ⟨Function.update_of_ne different .., Function.update_of_ne different ..⟩
      · rintro _ _ ⟨running, _⟩
        rw [waiting] at running
        cases running
      · rintro _ _ ⟨_, looping⟩
        cases (Function.update_self worker Phase.entered server.phases).symm.trans looping
  | exit _ waiting stopping empty =>
      refine .moves rfl rfl ?_ (loops_elsewhere worker ?_ ?_ ?_)
      · exact (ThreadPool.running_exit waiting).append_left _
      · intro other different
        exact ⟨Function.update_of_ne different .., rfl⟩
      · rintro _ _ ⟨running, _⟩
        rw [waiting] at running
        cases running
      · rintro _ _ ⟨running, _⟩
        cases (Function.update_self worker Worker.exited server.pool.workers).symm.trans running
  | nothing => exact .nothing server

/-- A worker registers, or finds that it must not. -/
theorem effect_add (server : Server size) (worker : Fin size.threadCount) :
    Effect server (server.add worker).2 (server.add worker).1 := by
  unfold add
  split
  · rename_i stream running entered
    cases accepting : server.registry.stopping with
    | true =>
        simp only [ConnectionRegistry.add, accepting, ↓reduceIte]
        refine .moves rfl rfl (List.Perm.refl _) (loops_elsewhere worker ?_ ?_ ?_)
        · intro other different
          exact ⟨rfl, Function.update_of_ne different ..⟩
        · rintro _ _ ⟨_, looping⟩
          rw [entered] at looping
          cases looping
        · rintro _ _ ⟨_, looping⟩
          cases (Function.update_self worker Phase.left server.phases).symm.trans looping
    | false =>
        have token : (server.registry.add stream.fd).1 = server.registry.nextToken := by
          simp only [ConnectionRegistry.add, accepting, Bool.false_eq_true, ↓reduceIte]
        dsimp only
        rw [token]
        exact .adds worker stream running entered accepting rfl rfl rfl rfl rfl
  · exact .nothing server

/-- The end of the loop takes the entry back. -/
theorem effect_remove (server : Server size) (worker : Fin size.threadCount) :
    Effect server (server.remove worker) .nothing := by
  unfold remove
  split
  · rename_i stream token running looping
    exact .removes worker stream token .left ⟨running, looping⟩ (by simp) rfl rfl rfl rfl rfl
  · exact .nothing server

/-- So does an exception. -/
theorem effect_throw (server : Server size) (worker : Fin size.threadCount) :
    Effect server (server.throw worker) .nothing := by
  unfold throw
  split
  · rename_i stream token running looping
    exact .removes worker stream token .thrown ⟨running, looping⟩ (by simp) rfl rfl rfl rfl rfl
  · exact .nothing server

/-- A worker that is outside the loop closes its stream and goes back to the queue, whatever
the pool counts. -/
theorem effect_ended {server : Server size} {worker : Fin size.threadCount} {stream : Stream}
    {pool : ThreadPool Stream size} (running : server.pool.workers worker = .running stream)
    (outside : ∀ token, server.phases worker ≠ .looping token)
    (queue : pool.queue = server.pool.queue)
    (workers : pool.workers = Function.update server.pool.workers worker .waiting) :
    Effect server
      { server with kernel := server.kernel.assign stream.fd none, pool := pool } .nothing := by
  refine .closes stream rfl rfl ?_ (loops_elsewhere worker ?_ ?_ ?_)
  · have ended := (ThreadPool.running_end running).append_left
      (server.acceptor.streams ++ server.pool.queue)
    simp only [streams, ThreadPool.running, queue, workers]
    exact ended.trans List.perm_middle
  · intro other different
    exact ⟨(congrFun workers other).trans (Function.update_of_ne different ..), rfl⟩
  · rintro _ token ⟨_, looping⟩
    exact outside token looping
  · rintro _ _ ⟨busy, _⟩
    have idle := (congrFun workers worker).trans (Function.update_self ..)
    cases busy.symm.trans idle

/-- A worker that is done closes its number, whether by the end or by an exception. -/
theorem effect_finish (server : Server size) (worker : Fin size.threadCount) :
    Effect server (server.finish worker) .nothing := by
  unfold finish
  split
  · rename_i stream running left
    simp only [ThreadPool.complete, running]
    exact effect_ended running (by simp [left]) rfl rfl
  · rename_i stream running thrown
    simp only [ThreadPool.throw, running]
    exact effect_ended running (by simp [thrown]) rfl rfl
  · exact .nothing server

/-- A number that is free belongs to nobody. -/
theorem effect_openFile (server : Server size) (fd : Nat) :
    Effect server (server.openFile fd) .nothing := by
  unfold openFile
  split
  · rename_i free
    refine .elsewhere fd (some .other) ?_ rfl
    intro id opened
    rw [free] at opened
    cases opened
  · exact .nothing server

/-- Nor does one of another file belong to a connection. -/
theorem effect_closeFile (server : Server size) (fd : Nat) :
    Effect server (server.closeFile fd) .nothing := by
  unfold closeFile
  split
  · rename_i opened
    refine .elsewhere fd none ?_ rfl
    intro id connected
    rw [opened] at connected
    cases connected
  · exact .nothing server

/-- Every step has one of these effects. -/
theorem effect_step (server : Server size) (step : ServerStep size) :
    Effect server ((machine size).step server step).2 ((machine size).step server step).1 := by
  cases step with
  | accept fd => exact server.effect_accept fd
  | post => exact server.effect_post
  | destroy => exact server.effect_destroy
  | closeListener => exact server.effect_closeListener
  | stopAll => exact server.effect_stopAll
  | shutdownPool => exact server.effect_shutdownPool
  | pop worker => exact server.effect_pop worker
  | add worker => exact server.effect_add worker
  | remove worker => exact server.effect_remove worker
  | throw worker => exact server.effect_throw worker
  | finish worker => exact server.effect_finish worker
  | openFile fd => exact server.effect_openFile fd
  | closeFile fd => exact server.effect_closeFile fd

end Server

end Lrd.Daemon
