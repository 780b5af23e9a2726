import Courier.Client.Run
import Courier.Server.Run

/-!
Courier.Host.Isolated — servers and clients on a host where every attempt to connect is refused.

Such a server has no connections, so a call that stops it waits only for the run to take note. Such
a client goes from an attempt, which fails, to the pause before the next one, and it stays there
until it is disconnected. Both are rows of moves, so what happens here is one of the things that
can happen anywhere.
-/

namespace Courier

namespace Server

/-- A server after it was started and was given a port to listen on. -/
def startIsolated (port : Nat) (s : Server) : Server :=
  match s.config.listenAddress with
  | .error _ => s
  | .ok address => (s.start (.ok { address with port })).2

/-- The moves of a call that stops a server without connections. -/
def stopMoves (s : Server) : List ServerMove :=
  match s.running with
  | none => [.stop]
  | some run =>
      let goOn := ServerMove.goOnStopping s.stops.length
      [.stop, goOn, .endAccepting run, goOn, goOn, goOn, goOn]

/-- A server without connections after it was stopped. -/
def stopIsolated (s : Server) : Server :=
  (s.run? s.stopMoves).getD s.stop

end Server

namespace Client

/-- The moves of a loop from the beginning of an attempt, which fails, to the pause after it. -/
def refusedMoves (loop : Nat) : List ClientMove :=
  [.onLoop loop .proceed, .onLoop loop .fail, .onLoop loop .proceed, .onLoop loop .proceed]

/-- A client after it was told to connect and the server refused. -/
def connectIsolated (c : Client) : Client :=
  match c.looping with
  | some _ => c
  | none => (c.run? (.connect :: refusedMoves c.loops.length)).getD c

/-- The moves of a call that disconnects a client in a pause. -/
def partMoves (c : Client) : List ClientMove :=
  match c.looping with
  | none => [.disconnect]
  | some loop =>
      let goOn := ClientMove.goOnParting c.partings.length
      [.disconnect, goOn, .onLoop loop .stop, .onLoop loop .proceed, goOn]

/-- A client after it was disconnected in a pause. -/
def disconnectIsolated (c : Client) : Client :=
  (c.run? c.partMoves).getD c

/-- A client that was refused is about to try again. -/
theorem state_connectIsolated {c : Client} (idle : c.looping = none) (alone : c.current = none) :
    c.connectIsolated.state = .reconnecting := by
  simp [connectIsolated, idle, refusedMoves, run?, move?, connect, moveLoop?, stepLoop?, note,
    state, link?, alone]

end Client

end Courier
