import Lrd.Client.Methods
import Lrd.Sdk.Invoke

/-!
# A pool after a restart

When the daemon is restarted, the idle connections of a pool are dead, and nothing tells the
client so. An attempt takes one of them, loses it and drops it; only when none is left does an
attempt open a new one. So a call survives the restart if and only if the pool held fewer
connections than the call has attempts (`restart_survived_iff`).
-/

namespace Lrd.Sdk

open Foundation Net Proto Lrd.Client

/-! ## A client that one thread uses -/

/-- The pool with the connections it ever had, which are known by their numbers. -/
structure Store where
  pool : Pool
  connections : List Connection

namespace Store

/-- Whether a connection is still open. -/
def isConnected (store : Store) (link : Nat) : Bool :=
  match store.connections[link]? with
  | some connection => connection.connected
  | none => false

variable {D : Type} [BitCast D]

/-- What the steps of `invoke` do to the pool and the connections of a client that no other
thread uses. Nobody else returns a connection, so waiting for one is in vain. -/
def serve (client : ClientConfig) (opening : Except OpenFailure Connection) :
    (op : InvokeOp D) → Store → op.Answer × Store
  | .acquire, store =>
      match store.pool.idle with
      | link :: rest => (.idle link, { store with pool := { store.pool with idle := rest } })
      | [] =>
          if store.pool.total < client.maxConnections then
            (.room, { store with pool := { store.pool with total := store.pool.total + 1 } })
          else (.timedOut, store)
  | .open, store =>
      match opening with
      | .ok connection =>
          (.ok store.connections.length,
            { store with connections := store.connections ++ [connection] })
      | .error failure =>
          (.error failure, { store with pool := { store.pool with total := store.pool.total - 1 } })
  | .call link operation, store =>
      match store.connections[link]? with
      | some connection =>
          ((connection.operate operation).1,
            { store with connections := store.connections.set link (connection.operate operation).2 })
      -- an invocation holds a connection of the store
      | none => (⟨.connectionLost, emptyResponse, [], false⟩, store)
  | .release link healthy, store =>
      ((), { store with pool := store.pool.release link (healthy && store.isConnected link) })

end Store

/-! ## Dead connections -/

/-- Nothing arrives any more. -/
def Dead (connection : Connection) : Prop := connection.incoming.bytes = []

/-- Every idle connection is dead. -/
def Store.Stale (store : Store) : Prop :=
  ∀ link ∈ store.pool.idle, ∃ connection, store.connections[link]? = some connection ∧
    Dead connection

variable {D : Type} [BitCast D] {operation : Operation D}

variable {connection : Connection}

/-- A call on a dead connection loses it. -/
theorem Dead.operate (dead : Dead connection) (permitted : operation.refusal? = none) :
    (connection.operate operation).1.status = .connectionLost ∧
      Dead (connection.operate operation).2 := by
  obtain ⟨count, taken, sent, split, along⟩ := call_progress (connection.request operation)
    emptyResponse connection.readBuffer connection.outgoing connection.incoming
  unfold Connection.operate
  simp only [permitted]
  generalize call (connection.request operation) emptyResponse connection.readBuffer
    connection.outgoing connection.incoming = outcome at split along ⊢
  rw [dead] at split
  obtain ⟨rfl, nothing⟩ := List.append_eq_nil_iff.mp split.symm
  have lost : outcome.1.status = .connectionLost := by
    split at along
    · obtain ⟨status, failed⟩ := along
      rw [failed]
      rfl
    · obtain ⟨_, status, failed⟩ := along
      rw [failed]
      rfl
  refine ⟨?_, nothing⟩
  rw [operation.settle_failed (by rw [lost]; simp), lost]

/-! ## Attempts of one thread -/

section Attempts

variable (operation : Operation D) (client : ClientConfig)
  (opening : Except OpenFailure Connection) {store : Store}

/-- A call on a connection, which goes back to the pool unless it failed or is closed. -/
theorem run_callOn {link : Nat} (found : store.connections[link]? = some connection) :
    (callOn operation link).run (Store.serve client opening) store =
      (.called link (connection.operate operation).1,
        ⟨store.pool.release link (!marksFailed (mapStatus (connection.operate operation).1.status) &&
            (connection.operate operation).2.connected),
          store.connections.set link (connection.operate operation).2⟩) := by
  obtain ⟨inside, _⟩ := List.getElem?_eq_some_iff.mp found
  unfold callOn giveBack
  simp only [Program.run_bind, Program.call, Program.run, Store.serve, found, Store.isConnected,
    List.getElem?_set_self inside, Program.pure_eq]

/-- An attempt uses the first idle connection. -/
theorem run_attempt_idle {link : Nat} {rest : List Nat} (idle : store.pool.idle = link :: rest)
    (found : store.connections[link]? = some connection) :
    (attempt operation).run (Store.serve client opening) store =
      (.called link (connection.operate operation).1,
        ⟨Pool.release ⟨rest, store.pool.total⟩ link
          (!marksFailed (mapStatus (connection.operate operation).1.status) &&
            (connection.operate operation).2.connected),
          store.connections.set link (connection.operate operation).2⟩) := by
  unfold attempt
  simp only [Program.run_bind, Program.call, Program.run, Store.serve, idle]
  exact run_callOn operation client opening found

/-- Where none is idle and there is room, an attempt opens a connection. -/
theorem run_attempt_fresh (fresh : Connection) (idle : store.pool.idle = [])
    (room : store.pool.total < client.maxConnections) :
    ((attempt operation).run (Store.serve client (.ok fresh)) store).1 =
      .called store.connections.length (fresh.operate operation).1 := by
  unfold attempt openAndCall
  simp only [Program.run_bind, Program.call, Program.run, Store.serve, idle, room, ↓reduceIte]
  rw [run_callOn operation client (.ok fresh) List.getElem?_concat_length]

omit operation client opening in
/-- Losing an idle connection leaves the other ones dead. -/
theorem Store.Stale.dropped {link : Nat} {rest : List Nat} (stale : store.Stale)
    (idle : store.pool.idle = link :: rest) (dead : Dead connection) :
    Store.Stale ⟨⟨rest, store.pool.total - 1⟩, store.connections.set link connection⟩ := by
  intro other member
  obtain ⟨held, found, isDead⟩ := stale other (by rw [idle]; exact List.mem_cons_of_mem _ member)
  by_cases same : link = other
  · subst same
    obtain ⟨inside, _⟩ := List.getElem?_eq_some_iff.mp found
    exact ⟨connection, List.getElem?_set_self inside, dead⟩
  · exact ⟨held, (List.getElem?_set_ne same).trans found, isDead⟩

end Attempts

/-! ## The loop on a stale pool -/

section Loop

variable {client : ClientConfig} {fresh : Connection} {store : Store}

omit [BitCast D] in
/-- Where no connection is idle and none is checked out, there is room for a new one. -/
theorem room_of_unheld (some : client.maxConnections ≠ 0) (idle : store.pool.idle = [])
    (unheld : store.pool.total = UInt64.ofNat store.pool.idle.length) :
    store.pool.total < client.maxConnections := by
  rw [unheld, idle]
  exact UInt64.pos_iff_ne_zero.mpr some

/-- With more attempts than idle connections the call reaches a new connection; otherwise it
loses one connection after the other. -/
theorem run_invokeLoop_stale (some : client.maxConnections ≠ 0)
    (permitted : operation.refusal? = none)
    (served : (fresh.operate operation).1.status ≠ .connectionLost) (stale : store.Stale)
    (unheld : store.pool.total = UInt64.ofNat store.pool.idle.length) (left : Nat)
    (last : Status × Option (Called D)) :
    let result := ((invokeLoop operation left last).run (Store.serve client (.ok fresh)) store).1
    (store.pool.idle.length < left →
      result = (reported (fresh.operate operation).1, .some (fresh.operate operation).1)) ∧
    (left ≤ store.pool.idle.length → last.1.code = .unavailable → result.1.code = .unavailable) := by
  induction left generalizing store last with
  | zero => exact ⟨fun impossible => absurd impossible (Nat.not_lt_zero _), fun _ given => given⟩
  | succ left ih =>
      intro result
      cases idle : store.pool.idle with
      | nil =>
          have made := run_attempt_fresh operation client fresh idle
            (room_of_unheld some idle unheld)
          refine ⟨fun _ => ?_, fun few => absurd few (by simp)⟩
          have final := (Attempt.isRetried_called_iff store.connections.length
            (fresh.operate operation).1).not.mpr served
          change ((invokeLoop operation (left + 1) last).run _ store).1 = _
          rw [invokeLoop, Program.run_bind, made, if_neg final]
          rfl
      | cons link rest =>
          obtain ⟨connection, found, dead⟩ := stale link (by rw [idle]; exact List.mem_cons_self)
          obtain ⟨lost, stillDead⟩ := dead.operate permitted
          have again := (Attempt.isRetried_called_iff link (connection.operate operation).1).mpr lost
          have ran := run_attempt_idle operation client (.ok fresh) idle found
          have counted : store.pool.total - 1 = UInt64.ofNat rest.length := by
            rw [unheld, idle, List.length_cons, UInt64.ofNat_add]
            exact UInt64.add_sub_cancel _ _
          have goesOn : result = ((invokeLoop operation left
              (reported (connection.operate operation).1, .some (connection.operate operation).1)).run
              (Store.serve client (.ok fresh)) ⟨⟨rest, store.pool.total - 1⟩,
                store.connections.set link (connection.operate operation).2⟩).1 := by
            change ((invokeLoop operation (left + 1) last).run _ store).1 = _
            rw [invokeLoop, Program.run_bind, ran, if_pos again, lost]
            rfl
          have unavailable : (reported (connection.operate operation).1).code = .unavailable := by
            rw [code_reported, lost]
            rfl
          obtain ⟨survives, fails⟩ := ih (stale.dropped idle stillDead) counted
            (reported (connection.operate operation).1, .some (connection.operate operation).1)
          rw [goesOn, List.length_cons]
          exact ⟨fun more => survives (Nat.lt_of_succ_lt_succ more),
            fun few _ => fails (Nat.le_of_succ_le_succ few) unavailable⟩

/-- The first attempt calls on some connection. -/
theorem run_attempt_calls (operation : Operation D) (fresh : Connection)
    (some : client.maxConnections ≠ 0) (stale : store.Stale)
    (unheld : store.pool.total = UInt64.ofNat store.pool.idle.length) :
    ∃ link connection, ((attempt operation).run (Store.serve client (.ok fresh)) store).1 =
      .called link (Connection.operate connection operation).1 := by
  cases idle : store.pool.idle with
  | nil =>
      have room := room_of_unheld some idle unheld
      exact ⟨_, fresh, run_attempt_fresh operation client fresh idle room⟩
  | cons link rest =>
      obtain ⟨connection, found, _⟩ := stale link (by rw [idle]; exact List.mem_cons_self)
      rw [run_attempt_idle operation client (.ok fresh) idle found]
      exact ⟨link, connection, rfl⟩

/-- A refused argument is reported without a call. -/
theorem operate_refused {message : Bytes} (refused : operation.refusal? = some message)
    (connection : Connection) :
    connection.operate operation =
      (⟨.invalidRequest, emptyResponse, message, connection.connected⟩, connection) := by
  unfold Connection.operate
  rw [refused]

/-- A call whose arguments are refused returns from its first attempt. -/
theorem run_invokeLoop_refused (some : client.maxConnections ≠ 0) (stale : store.Stale)
    (unheld : store.pool.total = UInt64.ofNat store.pool.idle.length) {message : Bytes}
    (refused : operation.refusal? = .some message) {left : Nat} (attempts : 0 < left)
    (last : Status × Option (Called D)) :
    let result := ((invokeLoop operation left last).run (Store.serve client (.ok fresh)) store).1
    result.1 = reported (fresh.operate operation).1 ∧
      result.2.map Called.response = .some (fresh.operate operation).1.response := by
  obtain ⟨left, rfl⟩ := Nat.exists_eq_succ_of_ne_zero attempts.ne'
  obtain ⟨link, connection, made⟩ := run_attempt_calls operation fresh some stale unheld
  simp only [operate_refused refused] at made ⊢
  rw [invokeLoop, Program.run_bind, made]
  exact ⟨rfl, rfl⟩

/-- A call that may be retried, made by the one thread that uses the client, after a restart
of the daemon: every idle connection is dead and none is checked out. It returns the result of
a new connection if and only if its attempts outnumber the idle connections, or the arguments
are refused by the first of them, if there is any. Otherwise the daemon counts as unavailable.
The number of attempts is computed in 64 bits. -/
theorem restart_survived_iff (client : ClientConfig)
    (retries : retryable client operation = true) (some : client.maxConnections ≠ 0)
    (stale : store.Stale) (unheld : store.pool.total = UInt64.ofNat store.pool.idle.length)
    (served : (fresh.operate operation).1.status ≠ .connectionLost) :
    let result := ((invoke client operation).run (Store.serve client (.ok fresh)) store).1
    let survives := store.pool.idle.length < (client.maxRetries + 1).toNat ∨
      operation.refusal? ≠ none ∧ client.maxRetries + 1 ≠ 0
    (result.1 = reported (fresh.operate operation).1 ∧
        result.2.map Called.response = .some (fresh.operate operation).1.response ↔ survives) ∧
      (¬ survives → result.1.code = .unavailable) := by
  intro result survives
  have passes : attempts client operation = client.maxRetries + 1 := if_pos retries
  have failed : result.1.code = .unavailable →
      result.1 ≠ reported (fresh.operate operation).1 := by
    intro unavailable same
    rw [same] at unavailable
    apply served
    rw [← Attempt.isRetried_called_iff 0, Attempt.isRetried, Attempt.status, unavailable]
    rfl
  have lost : ¬ survives → result.1.code = .unavailable := by
    intro perishes
    rw [not_or, Nat.not_lt, ← passes] at perishes
    obtain ⟨few, notRefused⟩ := perishes
    by_cases permitted : operation.refusal? = none
    · exact (run_invokeLoop_stale some permitted served stale unheld _ _).2 few rfl
    · have none : attempts client operation = 0 := by
        by_contra more
        exact notRefused ⟨permitted, more⟩
      change ((invokeLoop operation (attempts client operation).toNat _).run _ store).1.1.code = _
      rw [none]
      rfl
  have reached : survives → result.1 = reported (fresh.operate operation).1 ∧
      result.2.map Called.response = .some (fresh.operate operation).1.response := by
    intro enough
    change store.pool.idle.length < (client.maxRetries + 1).toNat ∨ _ at enough
    rw [← passes] at enough
    cases refused : operation.refusal? with
    | none =>
        have more := enough.resolve_right fun given => given.1 refused
        have found := (run_invokeLoop_stale some refused served stale unheld _
          (⟨.unavailable, text "no attempt was made"⟩, .none)).1 more
        change ((invokeLoop operation (attempts client operation).toNat _).run _ store).1.1 = _ ∧
          ((invokeLoop operation (attempts client operation).toNat _).run _ store).1.2.map _ = _
        rw [found]
        exact ⟨rfl, rfl⟩
    | some message =>
        have positive : 0 < (attempts client operation).toNat := by
          rcases enough with more | given
          · exact Nat.zero_lt_of_lt more
          · exact Nat.pos_of_ne_zero fun zero => given.2 (UInt64.toNat.inj zero)
        exact run_invokeLoop_refused some stale unheld refused positive _
  refine ⟨⟨?_, reached⟩, lost⟩
  intro same
  by_contra perishes
  exact failed (lost perishes) same.1

end Loop

/-! ## Pools of dead connections -/

/-- A pool with so many connections, all of them closed by the daemon: nothing arrives on them,
and sending breaks the pipe. -/
def deadPool (count : Nat) : Store where
  pool := ⟨List.range count, UInt64.ofNat count⟩
  connections := List.replicate count ⟨[], ⟨[], [.failed .epipe]⟩, [], 5, true⟩

/-- A connection to the restarted daemon. -/
def reopened : Connection := .awaiting ⟨1, .statsResult .ok {}⟩

theorem restart_survived_iff_two :
    ((invoke {} (.fetchStats : Operation UInt64)).run (Store.serve {} (.ok reopened))
      (deadPool 2)).1.1 = reported (reopened.operate (.fetchStats : Operation UInt64)).1 := by
  have stale : (deadPool 2).Stale := by
    intro link member
    refine ⟨_, List.getElem?_replicate_of_lt (List.mem_range.mp member), rfl⟩
  have served : (reopened.operate (.fetchStats : Operation UInt64)).1.status ≠ .connectionLost := by
    decide +kernel
  obtain ⟨survives, _⟩ := restart_survived_iff {} rfl (by decide) stale rfl served
  exact (survives.mpr (Or.inl (by decide))).1

/-- A client that is to retry as often as can be said. -/
def insistent : ClientConfig := { maxRetries := 0xFFFFFFFFFFFFFFFF }

/-- Three dead connections are more than the retries of a client as configured by default, and
the greatest number of retries leaves no attempt at all. -/
theorem restart_not_survived :
    (reopened.operate (.fetchStats : Operation UInt64)).1.status = .ok ∧
    ((invoke {} (.fetchStats : Operation UInt64)).run (Store.serve {} (.ok reopened))
      (deadPool 3)).1.1 = ⟨.unavailable, text "send failed: PeerClosed"⟩ ∧
    ((invoke insistent (.fetchStats : Operation UInt64)).run
      (Store.serve insistent (.ok reopened)) (deadPool 0)).1.1 =
        ⟨.unavailable, text "no attempt was made"⟩ := by
  decide +kernel

end Lrd.Sdk
