import Courier.Config.Endpoint
import Courier.Config.Queues
import Courier.EventFeed
import Courier.Link.Attended
import Courier.Token

/-!
Courier.Server.Basic — a server and what it knows of its connections.

A server is started and stopped, and each start begins a new run that accepts connections. An
accepted connection gets an id that no other connection has: the id is reserved until the
handshake is complete, and from then on it is in the registry. What the server does at the
milestones of a connection are duties, each of which is one step.
-/

namespace Courier

/-- One run of a server. -/
structure ServerRun where
  /-- where it listens -/
  address : SocketAddress
  /-- it takes in connections -/
  accepting : Bool := true
  /-- it is asked to end, and so are its connections -/
  cancelled : Bool := false
  deriving DecidableEq, Repr, Inhabited

/-- How far an accepted connection has come. -/
inductive GuestStage where
  | settingUp
  /-- its transport could not be set up -/
  | failed
  | linked (link : AttendedLink)

/-- An accepted connection. -/
structure Guest where
  /-- the number of the run that accepted it -/
  run : Nat
  id : String
  /-- the address of the peer, as text -/
  peer : String
  /-- the number of its queue -/
  queue : Nat
  stage : GuestStage := .settingUp

/-- What is left to do of a call that stops the server. -/
inductive StopStage where
  /-- about to ask a run to end -/
  | cancelling (run : Nat)
  /-- waits until the run takes in no more connections -/
  | awaitingRun (run : Nat)
  /-- about to empty the registry -/
  | clearing
  /-- about to disconnect the first connection that is left of all that were in the registry -/
  | disconnecting (left all : List Nat)
  /-- waits until the first connection that is left is closed -/
  | awaitingGuests (left : List Nat)
  | returned
  deriving DecidableEq, Repr, Inhabited

/-- What a server does at a milestone of a connection. -/
inductive ServerDuty where
  /-- the id is no longer reserved -/
  | unreserve
  /-- the connection enters the registry -/
  | enroll
  /-- listeners are told that it is ready -/
  | announce
  /-- the id leaves the registry -/
  | strike
  /-- listeners are told that it is gone, if they were told that it was ready -/
  | announceEnd
  deriving DecidableEq, Repr, Inhabited

/-- The duties at each milestone, in order. -/
def ServerDuty.at : Milestone → List ServerDuty
  | .handshaked => [.unreserve, .enroll, .announce]
  | .closing => [.unreserve, .strike]
  | .closed => [.announceEnd]

/-- A server. -/
structure Server where
  config : ServerConfig
  router : Router := {}
  queues : Queues
  /-- where ids come from -/
  source : RandomSource
  events : EventFeed ConnectionEvent := {}
  /-- the numbers of the connections that exchange frames, by id -/
  registry : Registry Nat := {}
  /-- the ids of accepted connections that are not in the registry yet -/
  reserved : List String := []
  /-- all connections that were ever accepted -/
  guests : List Guest := []
  /-- all runs -/
  runs : List ServerRun := []
  /-- the number of the present run -/
  running : Option Nat := none
  /-- all calls that stop the server -/
  stops : List StopStage := []

namespace ServerConfig

/-- How the bytes of connections are moved. -/
def carriage (c : ServerConfig) : Carriage :=
  match c.effectiveTransport with
  | .stream | .secureStream => .stream
  | .socket | .auto => .socket c.options.waitForData c.cutOnError

/-- What connections are set up with. -/
def linkSetup (router : Router) (c : ServerConfig) : LinkSetup :=
  { router, handshake := c.handshake, format := c.format, carriage := c.carriage
    maxHandshake := c.options.maxHandshake }

end ServerConfig

/-- The link of an accepted connection, if it has come so far. -/
def Guest.link? (g : Guest) : Option Link :=
  match g.stage with
  | .linked a => some a.link
  | _ => none

/-- A guest whose link is changed, if it has one. -/
def Guest.mapLink (change : Link → Link) (g : Guest) : Guest :=
  match g.stage with
  | .linked a => { g with stage := .linked { a with link := change a.link } }
  | _ => g

namespace Server

/-- A server that is not running, if it can work with the setup. -/
def new (config : ServerConfig) (source : RandomSource) : Except Refusal Server := do
  config.validate
  return { config, source, queues := .ofOptions config.options }

/-! ## 1. What there is to see -/

/-- The link of a connection. -/
def link? (guest : Nat) (s : Server) : Option Link :=
  (s.guests[guest]?).bind Guest.link?

/-- The server accepts connections. -/
def isRunning (s : Server) : Bool :=
  s.running.isSome

/-- Where the server listens while it is running. -/
def address? (s : Server) : Option SocketAddress :=
  s.running.bind fun run => (s.runs[run]?).map (·.address)

/-- How many connections exchange frames. -/
def connectionCount (s : Server) : Nat :=
  s.registry.size

/-- The numbers of the connections that exchange frames. -/
def live (s : Server) : List Nat :=
  s.registry.entries.map (·.2)

/-- The links of the connections that exchange frames. -/
def links (s : Server) : List Link :=
  s.live.filterMap s.link?

/-- The link of the connection of an id. -/
def linkOf? (id : String) (s : Server) : Option Link :=
  (s.registry.get? id).bind s.link?

/-- The id belongs to a connection that exchanges frames, or that may come to do so. -/
def isTaken (s : Server) (id : String) : Bool :=
  s.reserved.contains id || s.registry.contains id

/-! ## 2. Changes -/

/-- Changes the link of a connection. -/
def mapLink (guest : Nat) (change : Link → Link) (s : Server) : Server :=
  { s with guests := s.guests.modify guest (Guest.mapLink change) }

/-- Registers a handler. It gets the frames of all connections from now on. -/
def register (identifier : String) (h : Handler) (s : Server) : Except Refusal Server := do
  let router ← s.router.register identifier h
  let renew (l : Link) : Link := { l with setup := { l.setup with router } }
  return { s with router, guests := s.guests.map (Guest.mapLink renew) }

/-- Publishes an event. -/
def publish (event : ConnectionEvent) (s : Server) : Server :=
  { s with events := s.events.publish event }

/-- Does a duty for a connection. -/
def fulfil (duty : ServerDuty) (guest : Nat) (l : Link) (s : Server) : Server :=
  let c := l.connection
  match duty with
  | .unreserve => { s with reserved := s.reserved.filter (· != c.id) }
  | .enroll => { s with registry := s.registry.insert c.id guest }
  | .announce => s.publish (.connected (c.summary l.transport.reason))
  | .strike => { s with registry := s.registry.erase c.id }
  | .announceEnd =>
      if c.handshaked then s.publish (.disconnected (c.summary l.transport.reason)) else s

/-! ## 3. Broadcasts -/

/-- Asks the same of several connections, one after another, and counts those that did it. A
connection at its end is passed over; if any other refuses, the rest is not asked. -/
def askEach (command : Command) : List Nat → Server → Except Refusal Nat × Server
  | [], s => (.ok 0, s)
  | guest :: guests, s =>
      match s.link? guest with
      | none => askEach command guests s
      | some l =>
          match l.perform command with
          | (.ok (), l) =>
              let rest := askEach command guests (s.mapLink guest fun _ => l)
              (rest.1.map (· + 1), rest.2)
          | (.error r, _) =>
              if l.connection.closed || l.transport.reason.isSome then askEach command guests s
              else (.error r, s)

/-- Asks the same of every connection that exchanges frames. -/
def askAll (command : Command) (s : Server) : Except Refusal Nat × Server :=
  s.askEach command s.live

/-- Queues a payload on every connection that exchanges frames. -/
def broadcast (identifier : String) (payload : Bytes) (s : Server) : Except Refusal Nat × Server :=
  s.askAll (.send identifier payload)

/-- Queues a value on every connection that exchanges frames. -/
def broadcastValue (identifier : String) (value : Json) (s : Server) :
    Except Refusal Nat × Server :=
  s.askAll (.sendValue identifier value)

end Server

end Courier
