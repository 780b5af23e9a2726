import Courier.Config.Endpoint
import Courier.Config.Queues
import Courier.EventFeed
import Courier.Link.Attended
import Courier.Token

/-!
Courier.Client.Basic — a client and its connection.

A client has one connection at a time. While it is to be connected a loop makes one attempt after
another, each until its connection is lost, with a pause between them. What is shown as the state
of a client is the state of its connection, or, while it has none, what the loop has noted.
-/

namespace Courier

/-- The stages of the loop that keeps a client connected. -/
inductive LoopStage where
  /-- about to note that an attempt begins -/
  | beginning
  /-- waits for an answer of the server -/
  | reaching
  /-- sets up the transport, on the queue of a number -/
  | settingUp (queue : Nat)
  /-- about to start a connection -/
  | launching (attempt : Nat)
  /-- waits for the end of a connection -/
  | serving (attempt : Nat)
  /-- about to see whether there is to be another attempt -/
  | deciding
  /-- about to note that there is -/
  | pausing
  /-- waits before the next attempt -/
  | sleeping
  /-- about to note that there is not -/
  | ending
  | finished
  deriving DecidableEq, Repr, Inhabited

/-- A loop. -/
structure ClientLoop where
  stage : LoopStage := .beginning
  /-- it is asked to end, and so are its connections -/
  cancelled : Bool := false
  deriving DecidableEq, Repr, Inhabited

/-- A connection of a client. -/
structure Attempt where
  /-- the number of the loop that made it -/
  loop : Nat
  link : AttendedLink

/-- What is left to do of a call that disconnects the client. -/
inductive PartingStage where
  /-- about to ask a loop to end -/
  | cancelling (loop : Nat)
  /-- waits for the end of the loop -/
  | awaitingLoop (loop : Nat)
  | returned
  deriving DecidableEq, Repr, Inhabited

/-- What a client does at a milestone of a connection. -/
inductive ClientDuty where
  /-- listeners are told that it is ready -/
  | announce
  /-- it is no longer the client's connection -/
  | detach
  /-- listeners are told that it is gone, if they were told that it was ready -/
  | announceEnd
  deriving DecidableEq, Repr, Inhabited

/-- The duties at each milestone, in order. -/
def ClientDuty.at : Milestone → List ClientDuty
  | .handshaked => [.announce]
  | .closing => [.detach]
  | .closed => [.announceEnd]

/-- A client. -/
structure Client where
  config : ClientConfig
  /-- where the server is -/
  address : SocketAddress
  router : Router := {}
  queues : Queues
  /-- where ids come from -/
  source : RandomSource
  events : EventFeed ConnectionEvent := {}
  /-- the number of the present connection -/
  current : Option Nat := none
  /-- the state while there is no connection -/
  noted : ConnectionState := .closed
  /-- all connections that there ever were -/
  attempts : List Attempt := []
  /-- all loops -/
  loops : List ClientLoop := []
  /-- the number of the present loop -/
  looping : Option Nat := none
  /-- all calls that disconnect the client -/
  partings : List PartingStage := []

namespace ClientConfig

/-- How the bytes of connections are moved. -/
def carriage (c : ClientConfig) : Carriage :=
  match c.effectiveTransport with
  | .stream | .secureStream => .stream
  | .socket | .auto => .socket c.options.waitForData false

/-- What connections are set up with. -/
def linkSetup (router : Router) (c : ClientConfig) : LinkSetup :=
  { router, handshake := c.handshake, format := c.format, carriage := c.carriage
    maxHandshake := c.options.maxHandshake }

end ClientConfig

/-- A connection whose link is changed. -/
def Attempt.mapLink (change : Link → Link) (a : Attempt) : Attempt :=
  { a with link := { a.link with link := change a.link.link } }

namespace Client

/-- A client that is not connected, if it can work with the setup. -/
def new (config : ClientConfig) (source : RandomSource) : Except Refusal Client := do
  config.validate
  let address ← config.serverAddress
  return { config, address, source, queues := .ofOptions config.options }

/-! ## 1. What there is to see -/

/-- The link of the present connection. It may be that its handshake is not complete. -/
def link? (c : Client) : Option Link :=
  c.current.bind fun attempt => (c.attempts[attempt]?).map (·.link.link)

/-- The state of the present connection, or of the client without one. -/
def state (c : Client) : ConnectionState :=
  match c.link? with
  | some l => l.connection.state
  | none => c.noted

/-- Frames can be exchanged. -/
def isConnected (c : Client) : Bool :=
  match c.link? with
  | some l => l.connection.state == .opened
  | none => false

/-! ## 2. Changes -/

/-- Changes the link of a connection. -/
def mapLink (attempt : Nat) (change : Link → Link) (c : Client) : Client :=
  { c with attempts := c.attempts.modify attempt (Attempt.mapLink change) }

/-- Registers a handler. It gets the frames of all connections from now on. -/
def register (identifier : String) (h : Handler) (c : Client) : Except Refusal Client := do
  let router ← c.router.register identifier h
  let renew (l : Link) : Link := { l with setup := { l.setup with router } }
  return { c with router, attempts := c.attempts.map (Attempt.mapLink renew) }

/-- Asks something of the present connection, if its handshake is complete. -/
def perform (command : Command) (c : Client) : Except Refusal Unit × Client :=
  match c.current, c.link? with
  | some attempt, some l =>
      if l.connection.handshaked then
        let performed := l.perform command
        (performed.1, c.mapLink attempt fun _ => performed.2)
      else (.error (.notConnected c.address.text), c)
  | _, _ => (.error (.notConnected c.address.text), c)

/-- Queues a payload. -/
def send (identifier : String) (payload : Bytes) (c : Client) : Except Refusal Unit × Client :=
  c.perform (.send identifier payload)

/-- Queues a value. -/
def sendValue (identifier : String) (value : Json) (c : Client) :
    Except Refusal Unit × Client :=
  c.perform (.sendValue identifier value)

/-- Publishes an event. -/
def publish (event : ConnectionEvent) (c : Client) : Client :=
  { c with events := c.events.publish event }

/-- Does a duty for a connection. -/
def fulfil (duty : ClientDuty) (attempt : Nat) (l : Link) (c : Client) : Client :=
  let summary := l.connection.summary l.transport.reason
  match duty with
  | .announce => c.publish (.connected summary)
  | .detach => if c.current = some attempt then { c with current := none } else c
  | .announceEnd => if l.connection.handshaked then c.publish (.disconnected summary) else c

end Client

end Courier
