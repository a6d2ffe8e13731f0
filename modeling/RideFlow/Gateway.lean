import RideFlow.Delivery
import RideFlow.Server

/-!
# The WebSocket gateway

`ride_updates` of `routers/websocket.py` next to the server and the outbox
workers.  A connection is accepted when its token decodes and closed with 4401
when it does not; an accepted one SUBSCRIBEs to the channel of its ride, and
what a worker publishes there from then on is queued for it (`inbox`) and
forwarded in order (`received`).  Redis keeps nothing for those who are not
subscribed.  The forwarding is a task of its own: when it ends by an error, the
handler goes on waiting for its client, who stays connected and gets nothing
more (`deaf`).

The log `wire` remembers what passed over the sockets and the channels, each
event with its audience: a socket's events concern its owner, the subject of
its token, and a message those who may read its ride when it is published.
-/

namespace RideFlow

open Function

abbrev SocketId := Nat

/-- Where a connection stands; `deaf` is one whose forwarding has ended by an error. -/
inductive SocketStage
  | refused (code : Nat)
  | accepted
  | subscribed
  | deaf
  | closed
  deriving DecidableEq, Repr

/-- A connection of `/ws/rides/{ride_id}`.  The handler looks at the token once
and keeps nothing of it; `owner` is its subject.  `inbox` is what Redis has pushed and
`forward_messages` has not sent yet, `received` what it has sent. -/
structure Socket where
  id : SocketId
  rideId : RideId
  owner : Option UserId
  stage : SocketStage
  inbox : List Message
  received : List Message
  deriving DecidableEq, Repr

/-- The handshake of `ride_updates`. -/
def rideUpdates (decode : DecodeToken) (now : Timestamp) (id : SocketId) (rideId : RideId)
    (token : String) : Socket where
  id := id
  rideId := rideId
  owner := (decode now token).bind Claims.sub
  stage := if (decode now token).isSome then .accepted else .refused 4401
  inbox := []
  received := []

/-- What a connection does after the handshake.  `forwardFails` is the end of
`forward_messages` by an error of `listen` or `send_text`, which the handler does
not see; `disconnect` is the end of the handler, because the client has gone or
because SUBSCRIBE raises. -/
inductive SocketOp
  | subscribe
  | forward
  | forwardFails
  | disconnect
  deriving DecidableEq, Repr

namespace Socket

variable (socket : Socket)

/-- What an operation makes of the connection; `none` where it cannot be taken. -/
def run : SocketOp → Option Socket
  | .subscribe =>
      if socket.stage = .accepted then some { socket with stage := .subscribed } else none
  | .forward =>
      match socket.stage, socket.inbox with
      | .subscribed, message :: rest =>
          some { socket with inbox := rest, received := socket.received ++ [message] }
      | _, _ => none
  | .forwardFails =>
      if socket.stage = .subscribed then some { socket with stage := .deaf } else none
  | .disconnect =>
      if socket.stage = .accepted ∨ socket.stage = .subscribed ∨ socket.stage = .deaf then
        some { socket with stage := .closed }
      else none

/-- Is the socket subscribed to the channel of the message?  What Redis pushes to a
deaf one is read by nobody and left out. -/
def listens (message : Message) : Bool :=
  socket.stage = .subscribed ∧ rideChannel socket.rideId = message.channel

/-- PUBLISH, as one subscriber sees it: the message is queued. -/
def deliver (message : Message) : Socket :=
  if socket.listens message then { socket with inbox := socket.inbox ++ [message] } else socket

/-- Is the connection one of the user? -/
def ownedBy (userId : UserId) : Bool := socket.owner = some userId

end Socket

/-- What passes over the sockets and the channels. -/
inductive WireEvent
  | connect (socket : Socket)
  | operate (id : SocketId) (op : SocketOp)
  | publish (message : Message)
  deriving DecidableEq, Repr

/-- What an event makes of the sockets. -/
def WireEvent.apply (sockets : List Socket) : WireEvent → List Socket
  | .connect socket => sockets ++ [socket]
  | .operate id op => sockets.map fun socket =>
      if socket.id = id then (socket.run op).getD socket else socket
  | .publish message => sockets.map fun socket => socket.deliver message

/-- The server, the outbox, the connections, and the log of what passed. -/
structure GatewayState where
  server : ServerState
  outbox : OutboxState
  sockets : List Socket
  wire : List (WireEvent × (UserId → Bool))

/-- The registered users, and nothing else. -/
def GatewayState.init (users : List User) : GatewayState := ⟨.init users, .init, [], []⟩

/-- A step of the server, of a worker or of a connection. -/
inductive GatewayAction
  | server (action : ServerAction)
  | worker (action : OutboxAction)
  | connect (id : SocketId) (rideId : RideId) (token : String)
  | operate (id : SocketId) (op : SocketOp)

/-- The event that a batch publishes next. -/
def OutboxState.next (s : OutboxState) (b : BatchId) : Option OutboxEvent :=
  match s.batches b with
  | some (.publishing (event :: _) _) => some event
  | _ => none

namespace ServerState

variable (s : ServerState)

/-- The time of the server. -/
def now : Timestamp := s.accounts.auth.clock

/-- The endpoint of `get_ride`, with the token that it is called with. -/
def getRide (fns : ServerFunctions) (rideId : RideId) (token : String) : Except Rejection Ride :=
  match getCurrentUser fns.decodeToken s.accounts.auth.users s.now token with
  | .error e => .error e
  | .ok user => RideFlow.getRide s.rides.rides rideId user

/-- May the user, if active, read the ride, if it exists? -/
def mayRead (rideId : RideId) (userId : UserId) : Bool :=
  (s.accounts.auth.users.find? fun user => user.id = userId).any fun user =>
    user.isActive && (s.rides.rides rideId).any fun ride => MayRead user ride

/-- The token is refused, or is the access token of a user who may read the
ride. -/
def mayFollow (fns : ServerFunctions) (rideId : RideId) (token : String) : Bool :=
  (fns.decodeToken s.now token).all fun claims =>
    claims.type = some "access" ∧ claims.sub.any (s.mayRead rideId)

end ServerState

namespace GatewayState

variable (s : GatewayState)

/-- An event passes over the wire. -/
def pass (event : WireEvent) (audience : UserId → Bool) : GatewayState :=
  { s with sockets := event.apply s.sockets, wire := s.wire ++ [(event, audience)] }

/-- What passed over the wire and concerned the user. -/
def wireOf (userId : UserId) : List WireEvent :=
  (s.wire.filter fun entry => entry.2 userId).map Prod.fst

/-- The connections of a user. -/
def socketsOf (userId : UserId) : List Socket :=
  s.sockets.filter fun socket => socket.ownedBy userId

/-- The messages that were forwarded to the sockets of a user. -/
def receivedBy (userId : UserId) : List (SocketId × List Message) :=
  (s.socketsOf userId).map fun socket => (socket.id, socket.received)

end GatewayState

/-- What an action makes of the state; `none` where it cannot be taken. -/
def gatewayStep (cfg : Settings) (fns : ServerFunctions) (s : GatewayState) :
    GatewayAction → Option GatewayState
  | .server action =>
      (serverStep cfg fns s.server action).map fun server => { s with
        server := server
        outbox := s.outbox.insert (insertedRows s.server.rides server.rides) }
  | .worker (.insert _) => none
  | .worker (.publish b) =>
      match s.outbox.next b with
      | none => none
      | some event =>
          (outboxStep s.outbox (.publish b)).map fun outbox =>
            { s with outbox := outbox }.pass (.publish event.message)
              (s.server.mayRead event.aggregateId)
  | .worker action => (outboxStep s.outbox action).map fun outbox => { s with outbox := outbox }
  | .connect id rideId token =>
      if s.sockets.any fun socket => socket.id = id then none
      else
        let socket := rideUpdates fns.decodeToken s.server.now id rideId token
        some (s.pass (.connect socket) socket.ownedBy)
  | .operate id op =>
      if s.sockets.any fun socket => socket.id = id ∧ (socket.run op).isSome then
        some (s.pass (.operate id op) fun userId =>
          s.sockets.any fun socket => socket.id = id ∧ socket.ownedBy userId)
      else none

/-- Server, workers and connections, in any interleaving. -/
def gatewaySystem (cfg : Settings) (fns : ServerFunctions) :
    Runs.System GatewayState GatewayAction :=
  ⟨gatewayStep cfg fns⟩

/-- Every connection is made by someone who may follow the ride, and what is
published of a ride reaches only sockets of those who may still read it. -/
def GatewayState.checked (fns : ServerFunctions) (s : GatewayState) : GatewayAction → Bool
  | .connect _ rideId token => s.server.mayFollow fns rideId token
  | .worker (.publish b) => (s.outbox.next b).all fun event => s.sockets.all fun socket =>
      socket.listens event.message → socket.owner.all (s.server.mayRead event.aggregateId)
  | _ => true

/-- What a step did to the sockets and the log: nothing, or an event passed. -/
theorem step_gateway {cfg : Settings} {fns : ServerFunctions} {s t : GatewayState}
    {a : GatewayAction} (hstep : gatewayStep cfg fns s a = some t) :
    (t.sockets = s.sockets ∧ t.wire = s.wire) ∨
      ∃ event audience, t.sockets = event.apply s.sockets ∧
        t.wire = s.wire ++ [(event, audience)] ∧
        ((∃ id rideId token, a = .connect id rideId token ∧
            event = .connect (rideUpdates fns.decodeToken s.server.now id rideId token) ∧
            audience =
              (rideUpdates fns.decodeToken s.server.now id rideId token).ownedBy) ∨
          (∃ id op, a = .operate id op ∧ event = .operate id op ∧
            audience = fun userId =>
              s.sockets.any fun socket => socket.id = id ∧ socket.ownedBy userId) ∨
          ∃ b row, a = .worker (.publish b) ∧ s.outbox.next b = some row ∧
            event = .publish row.message ∧ audience = s.server.mayRead row.aggregateId) := by
  cases a with
  | server action =>
      obtain ⟨_, _, rfl⟩ := Option.map_eq_some_iff.mp hstep
      exact Or.inl ⟨rfl, rfl⟩
  | connect id rideId token =>
      dsimp only [gatewayStep] at hstep
      split at hstep
      case isTrue => cases hstep
      case isFalse =>
          cases hstep
          exact Or.inr ⟨_, _, rfl, rfl, Or.inl ⟨id, rideId, token, rfl, rfl, rfl⟩⟩
  | operate id op =>
      dsimp only [gatewayStep] at hstep
      split at hstep
      case isTrue =>
          cases hstep
          exact Or.inr ⟨_, _, rfl, rfl, Or.inr (Or.inl ⟨id, op, rfl, rfl, rfl⟩)⟩
      case isFalse => cases hstep
  | worker action =>
      cases action with
      | insert rows => cases hstep
      | publish b =>
          dsimp only [gatewayStep] at hstep
          split at hstep
          case h_1 => cases hstep
          case h_2 row hrow =>
              obtain ⟨_, _, rfl⟩ := Option.map_eq_some_iff.mp hstep
              exact Or.inr ⟨_, _, rfl, rfl, Or.inr (Or.inr ⟨b, row, rfl, hrow, rfl, rfl⟩)⟩
      | _ =>
          obtain ⟨_, _, rfl⟩ := Option.map_eq_some_iff.mp hstep
          exact Or.inl ⟨rfl, rfl⟩

end RideFlow
