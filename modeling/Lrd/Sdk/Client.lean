import Lrd.Client.Link

/-!
# The SDK's client

`Client` (`sdk/client.cpp`). A client keeps a pool of connections and runs each method
through `invoke`, which takes a connection from the pool or opens one, lets the method
call on it, puts it back or drops it, and retries where that may help. An invocation is
cut where the source holds no lock: each `Action` is one critical section, one opening of
a connection, or the beginning or the end of a method's call. Any number of clients with
any number of invocations under way, and programs that use connections of their own, share
one daemon (`Device`).
-/

namespace Lrd.Sdk

open Foundation Common Rank Proto Daemon Lrd.Client

/-! ## Statuses -/

/-- What a method of the SDK reports. -/
inductive StatusCode where
  | ok
  | notFound
  | invalidArgument
  | unavailable
  | deadlineExceeded
  | internal
  | protocolError
deriving DecidableEq, Repr

/-- A code and a text. -/
structure Status where
  code : StatusCode
  message : Bytes
deriving DecidableEq

/-- A success has no text. -/
def Status.success : Status := ⟨.ok, []⟩

/-- The code for the status of a call. -/
def mapStatus : CallStatus → StatusCode
  | .ok => .ok
  | .notFound => .notFound
  | .invalidRequest => .invalidArgument
  | .serverError => .internal
  | .connectionLost => .unavailable
  | .protocolError => .protocolError

/-- Whether another attempt may help. -/
def isRetryableFailure (code : StatusCode) : Bool :=
  code = .unavailable || code = .deadlineExceeded

/-- The outcomes after which `invoke` marks its connection as failed. -/
def marksFailed (code : StatusCode) : Bool :=
  code = .unavailable || code = .protocolError || code = .deadlineExceeded

/-! ## Clients -/

/-- `ClientConfig`, without the durations: a timeout may strike at any time here. -/
structure ClientConfig where
  socketPath : Bytes := text "/tmp/lrd.sock"
  maxConnections : UInt64 := 8
  maxRetries : UInt64 := 2
  retryRecordingRecommendations : Bool := false
deriving DecidableEq

/-- The guarded part of `Client::Impl`. Connections are known by the number of their link;
the idle ones stand newest first. -/
structure Pool where
  idle : List Nat
  total : UInt64

/-- Where an invocation stands. -/
inductive Phase (D : Type) where
  /-- waits for an idle connection or for room -/
  | acquiring
  /-- has reserved a slot and opens a connection for it -/
  | opening
  /-- holds a connection that it has not used -/
  | holding (link : Nat)
  /-- its method's call is under way -/
  | calling (link : Nat)
  /-- its method has returned, and the connection is still checked out -/
  | releasing (link : Nat) (called : Called D)
  /-- has returned, with what its method's last call left -/
  | returned (status : Status) (called : Option (Called D))

/-- A run of `invoke`. The exchanges record for each call of its method the link and how
many requests had been sent on it before. -/
structure Invocation (D : Type) where
  operation : Operation D
  attempt : UInt64
  last : Status
  exchanges : List (Nat × Nat)
  phase : Phase D

/-- A client with its pool and the invocations on it. -/
structure Client (D : Type) where
  config : ClientConfig
  pool : Pool
  invocations : List (Invocation D)

section Methods

variable {D : Type}

/-- Every method may be retried but a recommendation that records exposures, which is
only retried if the configuration says so. -/
def retryable (config : ClientConfig) : Operation D → Bool
  | .recommend _ _ false => config.retryRecordingRecommendations
  | _ => true

/-- The attempts of an invocation, in `size_t`. -/
def attempts (config : ClientConfig) (operation : Operation D) : UInt64 :=
  if retryable config operation then config.maxRetries + 1 else 1

/-- Why a connection could not be opened. -/
inductive OpenFailure where
  | system (what : Bytes)
  | other (what : Bytes)

/-- The text of the exception. -/
def OpenFailure.what : OpenFailure → Bytes
  | .system what | .other what => what

/-- `Client::connect`, given what opening the first connection comes to. -/
def Client.connect (config : ClientConfig) (opened : Except OpenFailure Nat) :
    Except Status (Client D) :=
  if config.maxConnections = 0 then
    .error ⟨.invalidArgument, text "max_connections must be at least 1"⟩
  else
    match opened with
    | .ok link => .ok ⟨config, ⟨[link], 1⟩, []⟩
    | .error (.system what) =>
        .error ⟨.unavailable, text "cannot reach daemon at " ++ config.socketPath ++ text ": " ++ what⟩
    | .error (.other what) => .error ⟨.invalidArgument, what⟩

namespace Invocation

/-- The head of the loop: another attempt begins, or the last status is returned. -/
def loop (config : ClientConfig) (run : Invocation D) (attempt : UInt64)
    (called : Option (Called D)) : Invocation D :=
  { run with
    attempt
    phase := if attempt < attempts config run.operation then .acquiring else .returned run.last called }

/-- `invoke` is entered. -/
def start (config : ClientConfig) (operation : Operation D) : Invocation D :=
  loop config ⟨operation, 0, ⟨.unavailable, text "no attempt was made"⟩, [], .acquiring⟩ 0 none

/-- An attempt fails before there was a connection. -/
def fail (config : ClientConfig) (run : Invocation D) (message : Bytes) : Invocation D :=
  loop config { run with last := ⟨.unavailable, message⟩ } (run.attempt + 1) none

/-- What follows from the outcome of the method once the connection is given back. -/
def conclude (config : ClientConfig) (run : Invocation D) (called : Called D) : Invocation D :=
  let code := mapStatus called.status
  if code = .ok then { run with phase := .returned Status.success (some called) }
  else
    let run := { run with last := ⟨code, called.lastError⟩ }
    if code = .notFound ∨ isRetryableFailure code = false then
      { run with phase := .returned run.last (some called) }
    else loop config run (run.attempt + 1) (some called)

end Invocation

/-- `~PooledConnection`. -/
def Pool.release (pool : Pool) (link : Nat) (keep : Bool) : Pool :=
  if keep then { pool with idle := link :: pool.idle } else { pool with total := pool.total - 1 }

/-- The client once an invocation has changed. -/
def Client.replace (client : Client D) (pool : Pool) (invocation : Nat) (run : Invocation D) :
    Client D :=
  { client with pool, invocations := client.invocations.set invocation run }

end Methods

/-! ## The programs of a device -/

/-- What an invocation does next. Waiting for a connection ends either way, and so does
opening one. -/
inductive Action where
  | acquire
  | timeOut
  | open
  | openFails (failure : OpenFailure)
  | call
  | finish
  | release

/-- The daemon with all its links, the clients, and the links of other programs. -/
structure Device {D : Type} (config : Config D) where
  world : World config
  clients : List (Client D)
  outside : List Nat

/-- What an application, an invocation or the daemon's side does next. -/
inductive DeviceLabel (D : Type) where
  | connect (config : ClientConfig)
  | start (client : Nat) (operation : Operation D)
  | act (client invocation : Nat) (action : Action)
  | dial
  | outside (link : Nat) (label : LinkLabel D)
  | traffic (link : Nat) (label : LinkLabel D)
  | advance (ticket : Nat) (now : Timestamp)
  | restart

variable {D : Type} [Double D] {config : Config D}

section Worlds

variable (world : World config)

/-- Whether a connection's stream is open. -/
def isConnected (link : Nat) : Bool :=
  match world.links[link]? with
  | some found => found.caller.isOpen
  | none => false

/-- How many requests were sent on a connection. -/
def sentCount (link : Nat) : Nat :=
  match world.links[link]? with
  | some found => found.sent.length
  | none => 0

/-- What the last call on a connection returned, unless one is under way. -/
def finishedCall (link : Nat) : Option (Called D) :=
  match world.links[link]? with
  | some found =>
      match found.caller with
      | .ready | .closed => found.finished.getLast?.map Prod.snd
      | _ => none
  | none => none

/-- One action of an invocation: the pool and the invocation afterwards, and what it does
to a link. An action that is not due is none. -/
def act (client : ClientConfig) (pool : Pool) (run : Invocation D) :
    Phase D → Action → Option (Pool × Invocation D × Option (WorldLabel D))
  | .acquiring, .acquire =>
      match pool.idle with
      | link :: rest => some ({ pool with idle := rest }, { run with phase := .holding link }, none)
      | [] =>
          if pool.total < client.maxConnections then
            some ({ pool with total := pool.total + 1 }, { run with phase := .opening }, none)
          else none
  | .acquiring, .timeOut =>
      if pool.idle = [] ∧ ¬ pool.total < client.maxConnections then
        some (pool, run.fail client (text "timed out waiting for a free connection"), none)
      else none
  | .opening, .open =>
      some (pool, { run with phase := .holding world.links.length }, some .connect)
  | .opening, .openFails failure =>
      some ({ pool with total := pool.total - 1 }, run.fail client failure.what, none)
  | .holding link, .call =>
      match run.operation.refusal? with
      | some message =>
          some (pool, { run with
            phase := .releasing link ⟨.invalidRequest, emptyResponse, message, true⟩ }, none)
      | none =>
          some (pool,
            { run with
              phase := .calling link
              exchanges := run.exchanges ++ [(link, sentCount world link)] },
            some (.link link (.operate run.operation.body)))
  | .calling link, .finish =>
      match finishedCall world link with
      | some called =>
          some (pool, { run with phase := .releasing link (run.operation.settle called) }, none)
      | none => none
  | .releasing link called, .release =>
      if marksFailed (mapStatus called.status) = false ∧ isConnected world link then
        some (pool.release link true, run.conclude client called, none)
      else
        some (pool.release link false, run.conclude client called, some (.link link .callerCloses))
  | _, _ => none

end Worlds

namespace Device

/-- A daemon, and no clients. -/
def initial (config : Config D) : Device config := ⟨World.initial config, [], []⟩

omit [Double D] in
/-- The device once a client has changed. -/
def replace (device : Device config) (world : World config) (number : Nat) (client : Client D) :
    Device config :=
  { device with world, clients := device.clients.set number client }

/-- An invocation acts, if it can. -/
def act (device : Device config) (number invocation : Nat) (action : Action) : Device config :=
  match device.clients[number]? with
  | none => device
  | some client =>
      match client.invocations[invocation]? with
      | none => device
      | some run =>
          match Sdk.act device.world client.config client.pool run run.phase action with
          | none => device
          | some (pool, run, label) =>
              device.replace (label.elim device.world device.world.step) number
                (client.replace pool invocation run)

/-- One step of the device. Other programs use their own links only. -/
def step (device : Device config) : DeviceLabel D → Device config
  | .connect client =>
      match Client.connect client (.ok device.world.links.length) with
      | .ok client =>
          { device with world := device.world.step .connect, clients := device.clients ++ [client] }
      | .error _ => device
  | .start number operation =>
      match device.clients[number]? with
      | none => device
      | some client =>
          device.replace device.world number
            { client with invocations := client.invocations ++ [.start client.config operation] }
  | .act number invocation action => device.act number invocation action
  | .dial =>
      { device with
        world := device.world.step .connect
        outside := device.outside ++ [device.world.links.length] }
  | .outside link label =>
      if link ∈ device.outside then { device with world := device.world.step (.link link label) }
      else device
  | .traffic link label =>
      if label.isTraffic then { device with world := device.world.step (.link link label) }
      else device
  | .advance ticket now => { device with world := device.world.step (.advance ticket now) }
  | .restart => { device with world := device.world.step .restart }

/-- The device after some steps. -/
def run (config : Config D) (labels : List (DeviceLabel D)) : Device config :=
  labels.foldl step (initial config)

theorem run_snoc (labels : List (DeviceLabel D)) (label : DeviceLabel D) :
    run config (labels ++ [label]) = (run config labels).step label :=
  List.foldl_append ..

end Device

end Lrd.Sdk
