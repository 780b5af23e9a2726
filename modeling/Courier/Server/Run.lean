import Courier.Server.Basic

/-!
Courier.Server.Run — everything that can happen on a server, in any order.

A move is one step of a call, of the task that takes in connections, of the task of a connection,
or of a link. Whatever order of moves is possible may happen; a move that is not possible in a
state has no result. A broadcast is one move: it looks at the registry once, and what it does to
one connection does not depend on any other.
-/

namespace Courier

/-- What happens on a server. -/
inductive ServerMove where
  | register (identifier : String) (handler : Handler)
  /-- a call that starts the server, and what came of the attempt to listen -/
  | start (bound : Except IoError SocketAddress)
  /-- a call that stops the server, and its steps after the first -/
  | stop
  | goOnStopping (call : Nat)
  /-- nobody uses the server any more -/
  | abandon
  /-- a run takes in a connection; an id is found within so many attempts -/
  | accept (run : Nat) (peer : String) (attempts : Nat)
  | endAccepting (run : Nat)
  /-- the transport of a connection is set up on a wire -/
  | setUp (guest : Nat) (wire : Wire)
  | failSetUp (guest : Nat)
  /-- the next duty at the milestone of a connection -/
  | attend (guest : Nat)
  | onLink (guest : Nat) (move : Move)
  /-- a broadcast that takes the connections in some order -/
  | broadcast (command : Command) (order : List Nat)
  deriving Inhabited

namespace Server

/-- Starts the server, unless it is running; where it listens. -/
def start (bound : Except IoError SocketAddress) (s : Server) :
    Except IoError SocketAddress × Server :=
  match s.address?, bound with
  | some address, _ => (.ok address, s)
  | none, .error fault => (.error fault, s)
  | none, .ok address =>
      (.ok address, { s with runs := s.runs ++ [{ address }], running := some s.runs.length })

/-- Begins to stop the server. There is nothing to do if it is not running. -/
def stop (s : Server) : Server :=
  match s.running with
  | none => { s with stops := s.stops ++ [.returned] }
  | some run => { s with running := none, stops := s.stops ++ [.cancelling run] }

/-- Asks a run to end, and with it all its connections. -/
def cancelRun (run : Nat) (s : Server) : Server :=
  let disconnect (l : Link) : Link := { l with connection := l.connection.disconnect }
  { s with
    runs := s.runs.modify run fun r => { r with cancelled := true }
    guests := s.guests.map fun g => if g.run = run then g.mapLink disconnect else g }

/-- The next step of a call that stops the server, if it need not wait: the stage after it. -/
def stepStop? (stage : StopStage) (s : Server) : Option (StopStage × Server) :=
  match stage with
  | .cancelling run => some (.awaitingRun run, s.cancelRun run)
  | .awaitingRun run =>
      match s.runs[run]? with
      | none => none
      | some r => if r.accepting then none else some (.clearing, s)
  | .clearing => some (.disconnecting s.live s.live, { s with registry := {} })
  | .disconnecting [] all => some (.awaitingGuests all, s)
  | .disconnecting (guest :: left) all =>
      some (.disconnecting left all, s.mapLink guest fun l => (l.perform .disconnect).2)
  | .awaitingGuests [] => some (.returned, s)
  | .awaitingGuests (guest :: left) =>
      match s.link? guest with
      | none => none
      | some l => if l.connection.closed then some (.awaitingGuests left, s) else none
  | .returned => none

/-- Goes on with a call that stops the server. -/
def goOnStopping? (call : Nat) (s : Server) : Option Server :=
  match s.stops[call]? with
  | none => none
  | some stage =>
      (s.stepStop? stage).map fun stepped =>
        { stepped.2 with stops := stepped.2.stops.set call stepped.1 }

/-- Nobody uses the server any more: the present run is asked to end, and nobody waits for it. -/
def abandon (s : Server) : Server :=
  match s.running with
  | none => s
  | some run => { s.cancelRun run with running := none }

/-- Takes in a connection under a new id. -/
def accept? (run : Nat) (peer : String) (attempts : Nat) (s : Server) : Option Server :=
  match s.runs[run]? with
  | none => none
  | some r =>
      if r.accepting then
        let search := Token.freshId s.isTaken attempts s.source
        match search.found with
        | none => none
        | some id =>
            let queue := s.queues.next
            some { s with
              source := search.source, reserved := s.reserved ++ [id], queues := queue.2,
              guests := s.guests ++ [{ run, id, peer, queue := queue.1 }] }
      else none

/-- A run that was asked to end takes in no more connections. -/
def endAccepting? (run : Nat) (s : Server) : Option Server :=
  match s.runs[run]? with
  | none => none
  | some r =>
      if r.cancelled && r.accepting then
        some { s with runs := s.runs.set run { r with accepting := false } }
      else none

/-- The link of a connection on a wire, started. It is asked to end if its run is. -/
def linkFor (g : Guest) (wire : Wire) (s : Server) : Link :=
  let queue := (s.queues.queues[g.queue]?).getD
    { input := s.config.options.input, output := s.config.options.output }
  let l := Link.new (s.config.linkSetup s.router) g.id g.peer s.config.options.maxPayload
    queue.input queue.output wire
  let cancelled := ((s.runs[g.run]?).map (·.cancelled)).getD true
  { l with connection := { l.connection with cancelled } }.start

/-- Sets up the transport of a connection. -/
def setUp? (guest : Nat) (wire : Wire) (s : Server) : Option Server :=
  match s.guests[guest]? with
  | some g@{ stage := .settingUp, .. } =>
      some { s with
        guests := s.guests.set guest { g with stage := .linked { link := s.linkFor g wire } } }
  | _ => none

/-- The transport of a connection cannot be set up. A stream of its own needs nothing that could
be missing. -/
def failSetUp? (guest : Nat) (s : Server) : Option Server :=
  match s.guests[guest]?, s.config.effectiveTransport with
  | _, .stream => none
  | some g@{ stage := .settingUp, .. }, _ =>
      some { s with
        reserved := s.reserved.filter (· != g.id)
        guests := s.guests.set guest { g with stage := .failed } }
  | _, _ => none

/-- Does the next duty at the milestone of a connection. -/
def attend? (guest : Nat) (s : Server) : Option Server :=
  match s.guests[guest]? with
  | some g@{ stage := .linked a, .. } =>
      (a.duty? ServerDuty.at).map fun duty =>
        let s := s.fulfil duty guest a.link
        { s with guests := s.guests.set guest { g with stage := .linked (a.doneWith a.link) } }
  | _ => none

/-- A move of the link of a connection. -/
def moveLink? (guest : Nat) (m : Move) (s : Server) : Option Server :=
  match s.guests[guest]? with
  | some g@{ stage := .linked a, .. } =>
      (a.move? ServerDuty.at m).map fun a =>
        { s with guests := s.guests.set guest { g with stage := .linked a } }
  | _ => none

/-- The server after a move, if the move is possible. -/
def move? (m : ServerMove) (s : Server) : Option Server :=
  match m with
  | .register identifier h =>
      match s.register identifier h with
      | .ok s => some s
      | .error _ => some s
  | .start bound => some (s.start bound).2
  | .stop => some s.stop
  | .goOnStopping call => s.goOnStopping? call
  | .abandon => some s.abandon
  | .accept run peer attempts => s.accept? run peer attempts
  | .endAccepting run => s.endAccepting? run
  | .setUp guest wire => s.setUp? guest wire
  | .failSetUp guest => s.failSetUp? guest
  | .attend guest => s.attend? guest
  | .onLink guest m => s.moveLink? guest m
  | .broadcast command order =>
      if order.isPerm s.live then some (s.askEach command order).2 else none

/-- The server after a row of moves, if all of them are possible. -/
def run? : List ServerMove → Server → Option Server
  | [], s => some s
  | m :: moves, s =>
      match s.move? m with
      | none => none
      | some s => run? moves s

end Server

end Courier
