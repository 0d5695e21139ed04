import Mathlib.Algebra.Ring.Nat
import Lrd.Daemon.Registry

/-!
# What stopping reaches

A worker registers the number of its connection before it enters the loop and removes it
before the stream is destroyed, so a registered number is open and belongs to the connection
it was registered for. When the registry is stopped, all connections in their loops are shut
down, no other file is, and no connection enters its loop any more
(`stop_reaches_connections`).

All of this rests on tokens that are not repeated. Their counter has 64 bits, and its first
value after it wraps is the one by which `add` refuses (`zero_token_handed_out`).
-/

namespace Lrd.Daemon

open Foundation Concurrency

variable {stream : Stream} {outcome : ServerOutcome}

namespace Server

variable {size : PoolSize}

/-! ## Tokens -/

/-- The tokens that `add` handed out, in order. -/
def handed (transcript : List (ServerStep size × ServerOutcome)) : List UInt64 :=
  transcript.filterMap fun entry =>
    match entry.2 with
    | .handedOut token => some token
    | _ => none

/-- The registry counts the tokens from one, as far as 64 bits go. -/
structure Counts (tokens : List UInt64) (registry : ConnectionRegistry) : Prop where
  next : registry.nextToken = UInt64.ofNat (tokens.length + 1)
  past : tokens = (List.range tokens.length).map fun index => UInt64.ofNat (index + 1)

/-- One more token. -/
theorem Counts.snoc {tokens : List UInt64} {registry : ConnectionRegistry}
    (counts : Counts tokens registry) {next : ConnectionRegistry}
    (step : next.nextToken = registry.nextToken + 1) :
    Counts (tokens ++ [registry.nextToken]) next where
  next := by
    rw [step, counts.next, List.length_append, List.length_singleton,
      UInt64.ofNat_add (tokens.length + 1), UInt64.ofNat_one]
  past := by
    rw [List.length_append, List.length_singleton, List.range_succ, List.map_append, ← counts.past,
      counts.next]
    rfl

/-- Fewer tokens than there are words of 64 bits are distinct and not zero. -/
theorem Counts.fresh {tokens : List UInt64} {registry : ConnectionRegistry}
    (counts : Counts tokens registry) (few : tokens.length < 2 ^ 64) :
    (∀ token ∈ tokens, token ≠ 0) ∧ tokens.Nodup := by
  have small : ∀ index ∈ List.range tokens.length,
      (UInt64.ofNat (index + 1)).toNat = index + 1 := by
    intro index member
    have inside := List.mem_range.mp member
    rw [UInt64.toNat_ofNat']
    exact Nat.mod_eq_of_lt (by omega)
  rw [counts.past]
  constructor
  · rintro token member rfl
    obtain ⟨index, inside, zero⟩ := List.mem_map.mp member
    have value := small index inside
    rw [zero] at value
    cases value
  · refine List.Nodup.map_on ?_ List.nodup_range
    intro index inside other within same
    have values := (small index inside).symm.trans ((congrArg UInt64.toNat same).trans
      (small other within))
    exact Nat.succ.inj values

/-! ## Who is registered -/

/-- The registry lists the connections that are being served, each under its own token;
and once it is stopping they have been shut down. -/
structure Registered (tokens : List UInt64) (server : Server size) : Prop where
  listed : ∀ token fd, server.registry.connections.lookup token = some fd ↔
    ∃ worker stream, server.Loops worker stream token ∧ stream.fd = fd
  single : ∀ worker stream other another token, server.Loops worker stream token →
    server.Loops other another token → worker = other
  issued : ∀ worker stream token, server.Loops worker stream token → token ∈ tokens
  reached : server.registry.stopping = true → ∀ worker stream token,
    server.Loops worker stream token → server.kernel.shut stream.id = true

variable {worker : Fin size.threadCount}

section Steps

variable {tokens : List UInt64} {server next : Server size}

/-- What is listed stays if the connections in their loops do. -/
theorem Registered.keep (registered : Registered tokens server)
    (connections : next.registry.connections = server.registry.connections)
    (loops : ∀ worker stream token,
      next.Loops worker stream token ↔ server.Loops worker stream token)
    (reached : next.registry.stopping = true → ∀ worker stream token,
      server.Loops worker stream token → next.kernel.shut stream.id = true) :
    Registered tokens next where
  listed token fd := by
    simp only [connections, loops]
    exact registered.listed token fd
  single worker stream other another token looping alike :=
    registered.single worker stream other another token ((loops ..).mp looping)
      ((loops ..).mp alike)
  issued worker stream token looping :=
    registered.issued worker stream token ((loops ..).mp looping)
  reached stopping worker stream token looping :=
    reached stopping worker stream token ((loops ..).mp looping)

/-- Steps outside the registry keep what is listed. -/
theorem Registered.unchanged (registered : Registered tokens server)
    (registry : next.registry = server.registry) (shut : next.kernel.shut = server.kernel.shut)
    (loops : ∀ worker stream token,
      next.Loops worker stream token ↔ server.Loops worker stream token) :
    Registered tokens next := by
  refine registered.keep (congrArg ConnectionRegistry.connections registry) loops ?_
  intro stopping worker stream token looping
  rw [registry] at stopping
  rw [shut]
  exact registered.reached stopping worker stream token looping

/-- A worker that changes its phase changes nothing for the others. -/
theorem loops_update {phase : Phase} (pool : next.pool = server.pool)
    (phases : next.phases = Function.update server.phases worker phase)
    (other : Fin size.threadCount) (stream : Stream) (token : UInt64) :
    next.Loops other stream token ↔
      (other = worker ∧ server.pool.workers worker = .running stream ∧ phase = .looping token) ∨
        (other ≠ worker ∧ server.Loops other stream token) := by
  rw [Loops, Loops, pool, phases]
  by_cases same : other = worker
  · subst same
    simp
  · simp [same]

/-- A worker that enters its loop, and the others. -/
theorem loops_entering {token : UInt64} (running : server.pool.workers worker = .running stream)
    (entered : server.phases worker = .entered) (pool : next.pool = server.pool)
    (phases : next.phases = Function.update server.phases worker (.looping token))
    (other : Fin size.threadCount) (another : Stream) (held : UInt64) :
    next.Loops other another held ↔
      (other = worker ∧ another = stream ∧ held = token) ∨ server.Loops other another held := by
  rw [loops_update pool phases, running]
  by_cases same : other = worker
  · subst same
    simp [Loops, entered, eq_comm]
  · simp [same]

/-- A connection that enters its loop with a token that no other has is listed under it. -/
theorem Registered.add (registered : Registered tokens server)
    (running : server.pool.workers worker = .running stream)
    (entered : server.phases worker = .entered) (accepting : server.registry.stopping = false)
    (fresh : server.registry.nextToken ∉ tokens) (someToken : server.registry.nextToken ≠ 0)
    (registry : next.registry = (server.registry.add stream.fd).2) (pool : next.pool = server.pool)
    (phases : next.phases = Function.update server.phases worker
      (if server.registry.nextToken = 0 then .left else .looping server.registry.nextToken)) :
    Registered (tokens ++ [server.registry.nextToken]) next := by
  rw [if_neg someToken] at phases
  have loops := loops_entering running entered pool phases
  have unlisted : server.registry.nextToken ∉ server.registry.connections := by
    intro listed
    obtain ⟨fd, found⟩ := Option.isSome_iff_exists.mp (AList.lookup_isSome.mpr listed)
    obtain ⟨other, another, looping, _⟩ := (registered.listed _ fd).mp found
    exact fresh (registered.issued other another _ looping)
  have connections : next.registry.connections =
      server.registry.connections.insert server.registry.nextToken stream.fd := by
    rw [registry, ConnectionRegistry.add, accepting]
    exact if_neg unlisted
  refine ⟨?_, ?_, ?_, ?_⟩
  · intro token fd
    rw [connections]
    by_cases new : token = server.registry.nextToken
    · subst new
      rw [AList.lookup_insert]
      constructor
      · intro same
        exact ⟨worker, stream, (loops ..).mpr (.inl ⟨rfl, rfl, rfl⟩), Option.some.inj same⟩
      · rintro ⟨other, another, looping, rfl⟩
        obtain ⟨_, rfl, _⟩ | before := (loops ..).mp looping
        · rfl
        · exact absurd (registered.issued other another _ before) fresh
    · rw [AList.lookup_insert_ne new, registered.listed]
      simp only [loops, new, and_false, false_or]
  · intro first one second two token looping alike
    obtain ⟨rfl, _, rfl⟩ | before := (loops ..).mp looping
    · obtain ⟨rfl, _, _⟩ | earlier := (loops ..).mp alike
      · rfl
      · exact absurd (registered.issued second two _ earlier) fresh
    · obtain ⟨_, _, rfl⟩ | earlier := (loops ..).mp alike
      · exact absurd (registered.issued first one _ before) fresh
      · exact registered.single first one second two token before earlier
  · intro other another token looping
    obtain ⟨_, _, rfl⟩ | before := (loops ..).mp looping
    · exact List.mem_append_right _ (List.mem_singleton_self _)
    · exact List.mem_append_left _ (registered.issued other another token before)
  · intro stopping
    rw [registry, ConnectionRegistry.add, accepting] at stopping
    exact absurd stopping Bool.false_ne_true

/-- A connection that leaves its loop is no longer listed. -/
theorem Registered.remove (registered : Registered tokens server) {token : UInt64} {phase : Phase}
    (looping : server.Loops worker stream token) (outside : ∀ held, phase ≠ .looping held)
    (registry : next.registry = server.registry.remove token) (kernel : next.kernel = server.kernel)
    (pool : next.pool = server.pool)
    (phases : next.phases = Function.update server.phases worker phase) :
    Registered tokens next := by
  have loops : ∀ other another held, next.Loops other another held ↔
      other ≠ worker ∧ server.Loops other another held := by
    intro other another held
    rw [loops_update pool phases]
    simp [outside]
  refine ⟨?_, ?_, ?_, ?_⟩
  · intro held fd
    rw [registry, ConnectionRegistry.remove]
    by_cases own : held = token
    · subst own
      rw [AList.lookup_erase]
      refine iff_of_false (by simp) ?_
      rintro ⟨other, another, alike, _⟩
      obtain ⟨different, before⟩ := (loops ..).mp alike
      exact different (registered.single other another worker stream held before looping)
    · rw [AList.lookup_erase_ne own, registered.listed]
      refine exists_congr fun other => exists_congr fun another => and_congr_left' ?_
      rw [loops, iff_and_self]
      rintro before rfl
      exact own (Phase.looping.inj (before.2.symm.trans looping.2))
  · intro first one second two held alike also
    exact registered.single first one second two held ((loops ..).mp alike).2
      ((loops ..).mp also).2
  · intro other another held alike
    exact registered.issued other another held ((loops ..).mp alike).2
  · intro stopping other another held alike
    rw [registry] at stopping
    rw [kernel]
    exact registered.reached stopping other another held ((loops ..).mp alike).2

/-- Stopping shuts down every connection that is in its loop. -/
theorem Registered.stop (registered : Registered tokens server)
    (owned : Owned Stream.fd Stream.file server.kernel.table server.streams)
    (kernel : next.kernel = server.registry.stopAll.1.foldl Kernel.shutdown server.kernel)
    (registry : next.registry = server.registry.stopAll.2) (pool : next.pool = server.pool)
    (phases : next.phases = server.phases) : Registered tokens next := by
  refine registered.keep (by rw [registry]; rfl) ?_ ?_
  · intro worker stream token
    rw [Loops, Loops, pool, phases]
  · intro _ worker stream token looping
    have listed := (registered.listed token stream.fd).mpr ⟨worker, stream, looping, rfl⟩
    rw [kernel]
    exact Kernel.shut_shutdowns (.inr ⟨stream.fd,
      ConnectionRegistry.mem_stopAll.mpr ⟨token, listed⟩, owned.opened stream looping.mem_streams⟩)

/-! ## Steps -/

/-- Streams own their numbers, whatever happens to other files. -/
theorem Effect.owned (effect : Effect server next outcome)
    (owned : Owned Stream.fd Stream.file server.kernel.table server.streams) :
    Owned Stream.fd Stream.file next.kernel.table next.streams := by
  cases effect with
  | moves kernel registry streams loops =>
      rw [kernel]
      exact owned.perm streams
  | opens stream free kernel registry streams loops =>
      rw [kernel]
      exact (owned.opens free).perm streams
  | closes stream kernel registry streams loops =>
      rw [kernel]
      exact (owned.perm streams.symm).closes
  | elsewhere fd file unowned same =>
      rw [same]
      refine owned.elsewhere ?_ file
      rintro stream member rfl
      exact unowned stream.id (owned.opened stream member)
  | adds worker stream running entered accepting kernel registry streams pool phases =>
      rw [kernel, streams]
      exact owned
  | removes worker stream token phase loops outside kernel registry streams pool phases =>
      rw [kernel, streams]
      exact owned
  | stops kernel registry streams pool phases =>
      rw [kernel, streams, Kernel.table_shutdowns]
      exact owned

/-- What holds of the server after a transcript. -/
structure Invariant (transcript : List (ServerStep size × ServerOutcome)) (server : Server size) :
    Prop where
  owned : Owned Stream.fd Stream.file server.kernel.table server.streams
  counts : Counts (handed transcript) server.registry
  registered : (handed transcript).length < 2 ^ 64 → Registered (handed transcript) server
  stopped : .stoppedAll ∈ transcript.map Prod.snd → server.registry.stopping = true

variable {transcript : List (ServerStep size × ServerOutcome)}

theorem handed_snoc (step : ServerStep size) (outcome : ServerOutcome) :
    handed (transcript ++ [(step, outcome)]) = handed transcript ++ handed [(step, outcome)] :=
  List.filterMap_append

/-- A step that hands out no token and leaves the registry alone. -/
theorem Invariant.quiet (invariant : Invariant transcript server) (step : ServerStep size)
    (owned : Owned Stream.fd Stream.file next.kernel.table next.streams)
    (nextToken : next.registry.nextToken = server.registry.nextToken)
    (stopping : next.registry.stopping = server.registry.stopping)
    (registered : Registered (handed transcript) server → Registered (handed transcript) next) :
    Invariant (transcript ++ [(step, .nothing)]) next := by
  have same : handed (transcript ++ [(step, .nothing)]) = handed transcript :=
    (handed_snoc step .nothing).trans (List.append_nil _)
  refine ⟨owned, ?_, ?_, ?_⟩
  · rw [same]
    exact ⟨nextToken.trans invariant.counts.next, invariant.counts.past⟩
  · rw [same]
    exact fun few => registered (invariant.registered few)
  · intro ran
    rw [List.map_append, List.mem_append] at ran
    obtain before | now := ran
    · exact stopping.trans (invariant.stopped before)
    · cases List.mem_singleton.mp now

/-- A connection is registered under a token that was never handed out before. -/
theorem Invariant.adds (invariant : Invariant transcript server) (step : ServerStep size)
    (owned : Owned Stream.fd Stream.file next.kernel.table next.streams)
    (running : server.pool.workers worker = .running stream)
    (entered : server.phases worker = .entered) (accepting : server.registry.stopping = false)
    (registry : next.registry = (server.registry.add stream.fd).2) (pool : next.pool = server.pool)
    (phases : next.phases = Function.update server.phases worker
      (if server.registry.nextToken = 0 then .left else .looping server.registry.nextToken)) :
    Invariant (transcript ++ [(step, .handedOut server.registry.nextToken)]) next := by
  have more : handed (transcript ++ [(step, .handedOut server.registry.nextToken)]) =
      handed transcript ++ [server.registry.nextToken] := handed_snoc step _
  have counts : Counts (handed transcript ++ [server.registry.nextToken]) next.registry := by
    apply invariant.counts.snoc
    rw [registry, ConnectionRegistry.add, accepting]
    rfl
  refine ⟨owned, more ▸ counts, ?_, ?_⟩
  · rw [more]
    intro few
    obtain ⟨someToken, distinct⟩ := counts.fresh few
    have last := List.mem_append_right (handed transcript)
      (List.mem_singleton_self server.registry.nextToken)
    have fresh : server.registry.nextToken ∉ handed transcript := fun earlier =>
      List.disjoint_of_nodup_append distinct earlier (List.mem_singleton_self _)
    rw [List.length_append] at few
    exact (invariant.registered (Nat.lt_of_le_of_lt (Nat.le_add_right ..) few)).add running
      entered accepting fresh (someToken _ last) registry pool phases
  · intro ran
    rw [List.map_append, List.mem_append] at ran
    obtain before | now := ran
    · cases accepting.symm.trans (invariant.stopped before)
    · cases List.mem_singleton.mp now

/-- Every effect keeps the invariant. -/
theorem Invariant.step (invariant : Invariant transcript server) (step : ServerStep size)
    (effect : Effect server next outcome) :
    Invariant (transcript ++ [(step, outcome)]) next := by
  have owned := effect.owned invariant.owned
  cases effect with
  | moves kernel registry streams loops
  | opens stream free kernel registry streams loops
  | closes stream kernel registry streams loops =>
      refine invariant.quiet step owned (by rw [registry]) (by rw [registry]) fun registered => ?_
      exact registered.unchanged registry (by simp only [kernel, Kernel.assign]) loops
  | elsewhere fd file unowned same =>
      subst same
      refine invariant.quiet step owned rfl rfl fun registered => ?_
      exact registered.unchanged rfl rfl fun _ _ _ => Iff.rfl
  | removes worker stream token phase looping outside kernel registry streams pool phases =>
      refine invariant.quiet step owned (by rw [registry]; rfl) (by rw [registry]; rfl)
        fun registered => ?_
      exact registered.remove looping outside registry kernel pool phases
  | adds worker stream running entered accepting kernel registry streams pool phases =>
      exact invariant.adds step owned running entered accepting registry pool phases
  | stops kernel registry streams pool phases =>
      have same : handed (transcript ++ [(step, .stoppedAll)]) = handed transcript :=
        (handed_snoc step .stoppedAll).trans (List.append_nil _)
      refine ⟨owned, ?_, ?_, ?_⟩
      · rw [same, registry]
        exact ⟨invariant.counts.next, invariant.counts.past⟩
      · rw [same]
        exact fun few =>
          (invariant.registered few).stop invariant.owned kernel registry pool phases
      · intro _
        rw [registry]
        rfl

/-- Once the registry is stopping it stays so, and nobody enters a loop. -/
theorem Effect.stopping (effect : Effect server next outcome)
    (stopping : server.registry.stopping = true) :
    next.registry.stopping = true ∧ ∀ worker stream token,
      next.Loops worker stream token → server.Loops worker stream token := by
  cases effect with
  | moves kernel registry streams loops
  | opens stream free kernel registry streams loops
  | closes stream kernel registry streams loops =>
      exact ⟨by rw [registry, stopping], fun _ _ _ => (loops ..).mp⟩
  | elsewhere fd file unowned same =>
      subst same
      exact ⟨stopping, fun _ _ _ looping => looping⟩
  | adds worker stream running entered accepting kernel registry streams pool phases =>
      cases accepting.symm.trans stopping
  | removes worker stream token phase looping outside kernel registry streams pool phases =>
      refine ⟨by rw [registry]; exact stopping, fun other another held alike => ?_⟩
      obtain ⟨_, _, inside⟩ | ⟨_, before⟩ := (loops_update pool phases ..).mp alike
      · exact absurd inside (outside held)
      · exact before
  | stops kernel registry streams pool phases =>
      refine ⟨by rw [registry]; rfl, fun worker stream token looping => ?_⟩
      rw [Loops, pool, phases] at looping
      exact looping

end Steps

/-! ## Runs -/

/-- The server after a sequence of steps, with the transcript. -/
def ran (size : PoolSize) (steps : List (ServerStep size)) :
    List (ServerStep size × ServerOutcome) × Server size :=
  (machine size).run (create size) steps

/-- The invariant holds in every run. -/
theorem ran_invariant (steps : List (ServerStep size)) :
    Invariant (ran size steps).1 (ran size steps).2 := by
  refine Machine.run_invariant Invariant ?_ ?_ steps
  · have idle : (create size).streams = [] := List.filterMap_eq_nil_iff.mpr fun _ _ => rfl
    refine ⟨idle ▸ Owned.nil _, ⟨rfl, rfl⟩, fun _ => ?_, fun ran => absurd ran List.not_mem_nil⟩
    have outside : ∀ worker stream token, ¬ (create size).Loops worker stream token := by
      rintro worker stream token ⟨running, _⟩
      cases running
    refine ⟨?_, ?_, ?_, ?_⟩
    · intro token fd
      refine iff_of_false (by simp [create]) ?_
      rintro ⟨worker, stream, looping, _⟩
      exact outside worker stream token looping
    · intro worker stream _ _ token looping
      exact absurd looping (outside worker stream token)
    · intro worker stream token looping
      exact absurd looping (outside worker stream token)
    · intro _ worker stream token looping
      exact absurd looping (outside worker stream token)
  · intro transcript server step invariant
    exact invariant.step step (server.effect_step step)

/-- A longer run goes on from where the shorter one has ended. -/
theorem ran_append (earlier later : List (ServerStep size)) :
    ran size (earlier ++ later) =
      let rest := (machine size).run (ran size earlier).2 later
      ((ran size earlier).1 ++ rest.1, rest.2) :=
  Machine.run_append ..

/-- Once the registry is stopping it stays so. -/
theorem ran_stopping {steps : List (ServerStep size)}
    (stopping : (ran size steps).2.registry.stopping = true) (later : List (ServerStep size)) :
    (ran size (steps ++ later)).2.registry.stopping = true ∧ ∀ worker stream token,
      (ran size (steps ++ later)).2.Loops worker stream token →
        (ran size steps).2.Loops worker stream token := by
  rw [ran_append]
  refine Machine.run_invariant (fun _ (current : Server size) =>
    current.registry.stopping = true ∧ ∀ worker stream token,
      current.Loops worker stream token → (ran size steps).2.Loops worker stream token)
    ⟨stopping, fun _ _ _ looping => looping⟩ ?_ later
  rintro _ current step ⟨still, before⟩
  obtain ⟨next, shrinks⟩ := (current.effect_step step).stopping still
  exact ⟨next, fun worker stream token looping =>
    before worker stream token (shrinks worker stream token looping)⟩

/-- Shutdown reaches every live connection and nothing else, as long as fewer than 2^64
tokens are handed out. In every interleaving of the acceptor, the workers and whatever else
opens and closes files: the numbers that `stop_all` would shut down are open and belong to
connections that are registered and being served; after it has run, every connection in its
loop has been shut down, `add` refuses, and no connection enters its loop in anything that
follows; and the tokens handed out are not zero and distinct. -/
theorem stop_reaches_connections (steps : List (ServerStep size))
    (few : (handed (ran size steps).1).length < 2 ^ 64) :
    let transcript := (ran size steps).1
    let server := (ran size steps).2
    (∀ fd ∈ server.registry.stopAll.1, ∃ worker stream token,
        server.Loops worker stream token ∧ stream.fd = fd ∧
          server.registry.connections.lookup token = some fd ∧
          server.kernel.table fd = some (.connection stream.id)) ∧
      (.stoppedAll ∈ transcript.map Prod.snd →
        (∀ worker stream token, server.Loops worker stream token →
          server.kernel.shut stream.id = true) ∧
        (∀ fd, (server.registry.add fd).1 = 0) ∧
        ∀ later worker stream token, (ran size (steps ++ later)).2.Loops worker stream token →
          server.Loops worker stream token) ∧
      (∀ token ∈ handed transcript, token ≠ 0) ∧ (handed transcript).Nodup := by
  intro transcript server
  have invariant : Invariant transcript server := ran_invariant steps
  have registered := invariant.registered few
  refine ⟨?_, ?_, invariant.counts.fresh few⟩
  · intro fd shutDown
    obtain ⟨token, listed⟩ := ConnectionRegistry.mem_stopAll.mp shutDown
    obtain ⟨worker, stream, looping, rfl⟩ := (registered.listed token fd).mp listed
    exact ⟨worker, stream, token, looping, rfl, listed,
      invariant.owned.opened stream looping.mem_streams⟩
  · intro stopped
    have stopping := invariant.stopped stopped
    refine ⟨registered.reached stopping, ?_, ?_⟩
    · intro fd
      rw [ConnectionRegistry.add, stopping]
      rfl
    · intro later
      exact (ran_stopping stopping later).2

section Cases

/-- A pool with one worker and one place. -/
private def oneByOne : PoolSize := ⟨1, 1, Nat.one_pos, Nat.one_pos⟩

/-- Its worker. -/
private def onlyWorker : Fin oneByOne.threadCount := ⟨0, oneByOne.someThread⟩

/-- A connection on number 3 is in its loop when the registry is stopped. -/
theorem stop_reaches_connections_one :
    let steps : List (ServerStep oneByOne) :=
      [.accept 3, .post, .pop onlyWorker, .add onlyWorker, .closeListener, .stopAll]
    let server := (ran oneByOne steps).2
    (handed (ran oneByOne steps).1).length < 2 ^ 64 ∧ server.Loops onlyWorker ⟨0, 3⟩ 1 ∧
      server.kernel.shut 0 = true := by
  intro steps server
  have few : (handed (ran oneByOne steps).1).length < 2 ^ 64 := by decide
  have looping : server.Loops onlyWorker ⟨0, 3⟩ 1 := ⟨rfl, rfl⟩
  obtain ⟨_, stopped, _⟩ := stop_reaches_connections steps few
  exact ⟨few, looping, (stopped (by decide)).1 onlyWorker ⟨0, 3⟩ 1 looping⟩

/-- A server that has handed out some tokens and taken all of them back. -/
private structure Served (count : Nat) (server : Server oneByOne) : Prop where
  token : server.registry.nextToken = UInt64.ofNat (count + 1)
  connections : server.registry.connections = ∅
  accepting : server.registry.stopping = false
  polling : server.acceptor = .polling
  queue : server.pool.queue = []
  running : server.pool.stopping = false

/-- Number 0 is not open and the worker waits. -/
private def Rests (server : Server oneByOne) : Prop :=
  server.kernel.table 0 = none ∧ server.pool.workers onlyWorker = .waiting

/-- The worker is about to register number 0. -/
private def Enters (server : Server oneByOne) : Prop :=
  ∃ id, server.pool.workers onlyWorker = .running ⟨id, 0⟩ ∧ server.phases onlyWorker = .entered

/-- A connection arrives at the worker. -/
private theorem served_arrive {count : Nat} {server : Server oneByOne}
    (served : Served count server) (rests : Rests server) :
    Served count ((machine oneByOne).run server [.accept 0, .post, .pop onlyWorker]).2 ∧
      Enters ((machine oneByOne).run server [.accept 0, .post, .pop onlyWorker]).2 := by
  obtain ⟨⟨table, shut⟩, registry,
    ⟨queue, stopping, posted, completed, rejected, exceptions, workers⟩, acceptor, phases,
    nextId, stats⟩ := server
  obtain ⟨token, connections, accepting, polling, empty, running⟩ := served
  obtain ⟨free, waiting⟩ := rests
  dsimp only at token connections accepting polling empty running free waiting
  subst polling empty running
  have room : ¬ oneByOne.maxQueuedTasks ≤ 0 := Nat.not_succ_le_zero 0
  simp only [Machine.run, List.foldl_cons, List.foldl_nil, machine, accept, free, post, pop,
    waiting, ThreadPool.post, ThreadPool.pop, room, Enters, Function.update_self, List.length_nil,
    Bool.false_eq_true, ↓reduceIte, List.nil_append, List.isEmpty_cons, Bool.not_false,
    Bool.or_true, and_true]
  exact ⟨⟨token, connections, accepting, rfl, rfl, rfl⟩, nextId, rfl⟩

/-- A token that is not zero is taken back. -/
private theorem served_leave {count : Nat} {server : Server oneByOne}
    (served : Served count server) (enters : Enters server) (few : count + 1 < 2 ^ 64) :
    Served (count + 1)
        ((machine oneByOne).run server
          [.add onlyWorker, .remove onlyWorker, .finish onlyWorker]).2 ∧
      Rests ((machine oneByOne).run server
          [.add onlyWorker, .remove onlyWorker, .finish onlyWorker]).2 := by
  obtain ⟨kernel, ⟨connections, nextToken, stopping⟩, pool, acceptor, phases, nextId, stats⟩ :=
    server
  obtain ⟨token, empty, accepting, polling, queue, running⟩ := served
  obtain ⟨id, working, entered⟩ := enters
  dsimp only at token empty accepting polling queue running working entered
  subst token empty accepting
  have someToken : UInt64.ofNat (count + 1) ≠ 0 := by
    intro zero
    have value := congrArg UInt64.toNat zero
    rw [UInt64.toNat_ofNat', Nat.mod_eq_of_lt few] at value
    cases value
  simp only [Machine.run, List.foldl_cons, List.foldl_nil, machine, add, remove, finish, working,
    entered, ConnectionRegistry.add, ConnectionRegistry.remove, someToken, ThreadPool.complete,
    Kernel.assign, Rests, Function.update_self, Bool.false_eq_true, ↓reduceIte]
  refine ⟨⟨?_, ?_, rfl, polling, queue, running⟩, trivial, trivial⟩
  · rw [UInt64.ofNat_add (count + 1), UInt64.ofNat_one]
  · rw [if_neg (AList.notMem_empty _), AList.insert_empty]
    exact AList.ext (List.kerase_cons_eq rfl)

/-- The token after the last word of 64 bits is zero. The guard does not take it back, and
the number may be given to another file while the registry still has it. -/
private theorem lost_entry {server : Server oneByOne} (served : Served (2 ^ 64 - 1) server)
    (enters : Enters server) :
    let rest := (machine oneByOne).run server [.add onlyWorker, .finish onlyWorker, .openFile 0]
    0 ∈ handed rest.1 ∧ 0 ∈ rest.2.registry.stopAll.1 ∧ rest.2.kernel.table 0 = some .other := by
  obtain ⟨kernel, ⟨connections, nextToken, stopping⟩, pool, acceptor, phases, nextId, stats⟩ :=
    server
  obtain ⟨token, empty, accepting, polling, queue, running⟩ := served
  obtain ⟨id, working, entered⟩ := enters
  have wraps : UInt64.ofNat (2 ^ 64 - 1 + 1) = 0 := rfl
  dsimp only at token empty accepting polling queue running working entered
  rw [wraps] at token
  subst token empty accepting
  simp only [Machine.run, List.foldl_cons, List.foldl_nil, machine, add, finish, openFile, working,
    entered, ConnectionRegistry.add, ThreadPool.complete, Kernel.assign, Function.update_self,
    Bool.false_eq_true, ↓reduceIte]
  refine ⟨List.mem_singleton_self 0, ?_, trivial⟩
  rw [if_neg (AList.notMem_empty _), AList.insert_empty]
  exact List.mem_singleton_self 0

/-- A run that has served any number of connections, one by one. -/
private theorem exists_served (count : Nat) (few : count < 2 ^ 64) :
    ∃ steps, Served count (ran oneByOne steps).2 ∧ Rests (ran oneByOne steps).2 := by
  induction count with
  | zero => exact ⟨[], ⟨rfl, rfl, rfl, rfl, rfl, rfl⟩, rfl, rfl⟩
  | succ count ih =>
      obtain ⟨steps, served, rests⟩ := ih (Nat.lt_of_succ_lt few)
      obtain ⟨arrived, enters⟩ := served_arrive served rests
      have left := served_leave arrived enters few
      refine ⟨steps ++ [.accept 0, .post, .pop onlyWorker] ++
        [.add onlyWorker, .remove onlyWorker, .finish onlyWorker], ?_⟩
      rw [ran_append, ran_append]
      exact left

/-- A run that hands out 2^64 tokens hands out zero. The connection is then refused but its
number stays registered, and `stop_all` would shut down a file that has nothing to do with
the daemon's connections. -/
theorem zero_token_handed_out :
    ∃ steps : List (ServerStep oneByOne),
      0 ∈ handed (ran oneByOne steps).1 ∧ ∃ fd ∈ (ran oneByOne steps).2.registry.stopAll.1,
        (ran oneByOne steps).2.kernel.table fd = some .other := by
  obtain ⟨steps, served, rests⟩ := exists_served (2 ^ 64 - 1) (Nat.sub_one_lt (by decide))
  obtain ⟨arrived, enters⟩ := served_arrive served rests
  obtain ⟨zero, listed, other⟩ := lost_entry arrived enters
  refine ⟨steps ++ [.accept 0, .post, .pop onlyWorker] ++
    [.add onlyWorker, .finish onlyWorker, .openFile 0], ?_⟩
  rw [ran_append, ran_append]
  refine ⟨?_, 0, listed, other⟩
  rw [handed, List.filterMap_append]
  exact List.mem_append_right _ zero

end Cases

end Server

end Lrd.Daemon
