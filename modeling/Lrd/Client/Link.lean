import Lrd.Client.Connection
import Lrd.Daemon.Server

/-!
# Connections and their workers

A connection (`client/connection.cpp`) and the worker that serves it
(`Server::serve_connection`) are joined by two channels of bytes. A label lets one of
them make a call of the socket, which may move any number of bytes or fail, or lets one
of them close. Any number of links are served by one daemon, which may be restarted.
-/

namespace Lrd.Client

open Foundation Rank Proto BinaryCodec Daemon

/-! ## The two parties -/

/-- What `Connection::call` is doing, if anything. -/
inductive Caller (D : Type) where
  | ready
  | sending (request : Request D) (rest : Bytes)
  | receiving (request : Request D) (got : Bytes)
  | closed

/-- `Connection::connected`. -/
def Caller.isOpen {D : Type} : Caller D → Bool
  | .closed => false
  | _ => true

/-- What `serve_connection` is doing. -/
inductive Worker where
  | reading (got : Bytes)
  | handling (ticket : Nat)
  | writing (rest : Bytes)
  | closed

/-- What a worker did with a frame that it has read: it passed the request to the handler,
whose call has the given number, or it rejected the request. -/
inductive Served (D : Type) where
  | executed (request : Request D) (ticket : Nat)
  | rejected (response : Response D)

/-- A connection, its worker and what is on the way between them. The lists record the
requests that the connection has begun to send, what the worker did with each, the
replies that the worker has begun to send, and what the calls of the connection have
returned. -/
structure Link (D : Type) where
  daemon : Nat
  caller : Caller D := .ready
  worker : Worker := .reading []
  toWorker : Bytes := []
  toCaller : Bytes := []
  nextRequestId : UInt64 := 1
  sent : List (Request D) := []
  served : List (Served D) := []
  replies : List (Response D) := []
  finished : List (Request D × Called D) := []

/-- What the caller, the worker or the socket of a link does next. -/
inductive LinkLabel (D : Type) where
  | call (request : Request D)
  | operate (body : RequestBody D)
  | callerSends (count : Nat)
  | callerReads (count : Nat)
  | callerFails (status : FrameStatus)
  | callerCloses
  | workerReads (count : Nat)
  | workerReplies
  | workerSends (count : Nat)
  | workerCloses

/-- What happens on a link without its owner: bytes move, calls of the socket fail, and the
worker acts. -/
def LinkLabel.isTraffic {D : Type} : LinkLabel D → Bool
  | .call _ | .operate _ | .callerCloses => false
  | _ => true

namespace Link

variable {D : Type} [BitCast D]

/-! ### The connection -/

omit [BitCast D] in
/-- A call returns. -/
def finish (link : Link D) (request : Request D) (called : Called D) : Link D :=
  { link with
    caller := if called.connected then .ready else .closed
    finished := link.finished ++ [(request, called)] }

/-- A call begins. A body that does not fit into a frame is not sent, and nothing is sent
on a connection that is closed. -/
def call (link : Link D) (request : Request D) : Link D :=
  match link.caller with
  | .ready =>
      if Framable (encodeRequest request []) then
        { link with
          caller := .sending request (frameBytes (encodeRequest request []))
          sent := link.sent ++ [request] }
      else link.finish request (sendFailed .oversized emptyResponse)
  | .closed =>
      link.finish request (sendFailed
        (if Framable (encodeRequest request []) then .ioError else .oversized) emptyResponse)
  | _ => link

/-- A method of the connection calls with the next request id. -/
def operate (link : Link D) (body : RequestBody D) : Link D :=
  match link.caller with
  | .ready | .closed =>
      call { link with nextRequestId := link.nextRequestId + 1 } ⟨link.nextRequestId, body⟩
  | _ => link

omit [BitCast D] in
/-- A `send` of the connection takes some bytes. After the last it starts to read. -/
def callerSends (link : Link D) (count : Nat) : Link D :=
  match link.caller with
  | .sending request rest =>
      { link with
        toWorker := link.toWorker ++ rest.take count
        caller :=
          if rest.drop count = [] then .receiving request [] else .sending request (rest.drop count) }
  | _ => link

/-- A `read` of the connection returns some bytes. -/
def callerReads (link : Link D) (count : Nat) : Link D :=
  match link.caller with
  | .receiving request got =>
      let (got, toCaller) := lengthPrefixed.fetch got link.toCaller count
      let link := { link with toCaller }
      match progress got with
      | .wants _ => { link with caller := .receiving request got }
      | .broken => link.finish request (receiveFailed .oversized emptyResponse)
      | .whole body => link.finish request (conclude request emptyResponse body)
  | _ => link

/-- A call of the socket fails or times out, or the worker has closed. -/
def callerFails (link : Link D) (status : FrameStatus) : Link D :=
  match link.caller with
  | .sending request _ => link.finish request (sendFailed status emptyResponse)
  | .receiving request _ => link.finish request (receiveFailed status emptyResponse)
  | _ => link

/-! ### The worker -/

/-- The worker starts to write a reply. It hangs up if the reply does not fit. -/
def startReply (link : Link D) (response : Response D) : Link D :=
  if Framable (encodeResponse response []) then
    { link with
      worker := .writing (frameBytes (encodeResponse response []))
      replies := link.replies ++ [response] }
  else { link with worker := .closed }

/-- A `read` of the worker returns some bytes. A request that is to be executed gets the
given ticket. -/
def workerReads (link : Link D) (ticket count : Nat) : Link D × Option (Request D) :=
  match link.worker with
  | .reading got =>
      let (got, toWorker) := lengthPrefixed.fetch got link.toWorker count
      let link := { link with toWorker }
      match progress got with
      | .wants _ => ({ link with worker := .reading got }, none)
      | .broken => ({ link with worker := .closed }, none)
      | .whole body =>
          match receive body with
          | .execute request =>
              ({ link with
                worker := .handling ticket
                served := link.served ++ [.executed request ticket] }, some request)
          | .reject response =>
              (startReply { link with served := link.served ++ [.rejected response] } response, none)
          | .hangUp _ => ({ link with worker := .closed }, none)
  | _ => (link, none)

/-- `handle` returns to the worker. -/
def workerReplies {S : Signature} (link : Link D) (calls : List (Call S (Request D) (Response D))) :
    Link D :=
  match link.worker with
  | .handling ticket =>
      match calls[ticket]?.bind Call.result? with
      | some response => link.startReply response
      | none => link
  | _ => link

omit [BitCast D] in
/-- A `send` of the worker takes some bytes. After the last it reads the next frame. -/
def workerSends (link : Link D) (count : Nat) : Link D :=
  match link.worker with
  | .writing rest =>
      { link with
        toCaller := link.toCaller ++ rest.take count
        worker := if rest.drop count = [] then .reading [] else .writing (rest.drop count) }
  | _ => link

/-- What a label does to a link, and the request that it passes to the handler. -/
def step {S : Signature} (link : Link D) (calls : List (Call S (Request D) (Response D))) :
    LinkLabel D → Link D × Option (Request D)
  | .call request => (link.call request, none)
  | .operate body => (link.operate body, none)
  | .callerSends count => (link.callerSends count, none)
  | .callerReads count => (link.callerReads count, none)
  | .callerFails status => (link.callerFails status, none)
  | .callerCloses => ({ link with caller := .closed }, none)
  | .workerReads count => link.workerReads calls.length count
  | .workerReplies => (link.workerReplies calls, none)
  | .workerSends count => (link.workerSends count, none)
  | .workerCloses => ({ link with worker := .closed }, none)

end Link

/-! ## All links of a daemon -/

/-- The incarnations of the daemon, of which the last is running, and all links there ever
were. -/
structure World {D : Type} (config : Config D) where
  daemons : List (System (steps config) (State config) (Request D) (Response D))
  links : List (Link D)

/-- What a client, a link, a daemon or its supervisor does next. -/
inductive WorldLabel (D : Type) where
  | connect
  | link (index : Nat) (label : LinkLabel D)
  | advance (ticket : Nat) (now : Timestamp)
  | restart

namespace World

variable {D : Type} [Double D] {config : Config D}

/-- A first daemon and no links. -/
def initial (config : Config D) : World config := ⟨[.initial (State.initial config)], []⟩

/-- The daemon performs a step of its own or is passed a request. -/
def stepDaemon (world : World config) (index : Nat) (label : Label Timestamp (Request D)) :
    World config :=
  { world with daemons := world.daemons.modify index fun daemon => daemon.step (workers config) label }

/-- One step. A label that names no link, or a call that is not in flight, does nothing. A
restart breaks all links and starts with an empty state. -/
def step (world : World config) : WorldLabel D → World config
  | .connect => { world with links := world.links ++ [{ daemon := world.daemons.length - 1 }] }
  | .link index label =>
      match world.links[index]? with
      | none => world
      | some link =>
          match world.daemons[link.daemon]? with
          | none => world
          | some daemon =>
              let (moved, passed) := link.step daemon.calls label
              let world := { world with links := world.links.set index moved }
              match passed with
              | none => world
              | some request => world.stepDaemon link.daemon (.invoke request)
  | .advance ticket now => world.stepDaemon (world.daemons.length - 1) (.advance ticket now)
  | .restart =>
      ⟨world.daemons ++ [.initial (State.initial config)],
        world.links.map fun link => { link with worker := .closed }⟩

/-- The world after some steps. -/
def run (config : Config D) (labels : List (WorldLabel D)) : World config :=
  labels.foldl step (initial config)

theorem run_snoc (labels : List (WorldLabel D)) (label : WorldLabel D) :
    run config (labels ++ [label]) = (run config labels).step label :=
  List.foldl_append ..

end World

end Lrd.Client
