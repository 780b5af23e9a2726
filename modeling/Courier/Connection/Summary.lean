import Courier.CloseReason

/-!
Courier.Connection.Summary — what can be said of a connection from outside.

The state of a connection goes forward from `connecting` to `closed`; `reconnecting` is a state of
a client between two connections. An event tells listeners that a connection is ready or gone.
-/

namespace Courier

/-- The states of a connection, and of a client between connections. -/
inductive ConnectionState where
  | connecting
  | handshaking
  /-- frames are exchanged -/
  | opened
  | closing
  | closed
  | reconnecting
  deriving DecidableEq, Repr, Inhabited

namespace ConnectionState

/-- The name of a state. -/
def name : ConnectionState → String
  | .connecting => "Connecting"
  | .handshaking => "Handshaking"
  | .opened => "Open"
  | .closing => "Closing"
  | .closed => "Closed"
  | .reconnecting => "Reconnecting"

/-- The number that stands for a state. -/
def toNat : ConnectionState → Nat
  | .connecting => 0
  | .handshaking => 1
  | .opened => 2
  | .closing => 3
  | .closed => 4
  | .reconnecting => 5

/-- The state that a number stands for. -/
def ofNat? : Nat → Option ConnectionState
  | 0 => some .connecting
  | 1 => some .handshaking
  | 2 => some .opened
  | 3 => some .closing
  | 4 => some .closed
  | 5 => some .reconnecting
  | _ => none

theorem ofNat?_toNat (s : ConnectionState) : ofNat? s.toNat = some s := by
  cases s <;> rfl

end ConnectionState

/-- A connection as listeners see it. -/
structure ConnectionSummary where
  id : String
  /-- the address of the peer, as text -/
  peer : String
  state : ConnectionState := .connecting
  reason : Option CloseReason := none
  deriving DecidableEq, Repr, Inhabited

/-- A connection spelled with its id, its peer and its state. -/
def ConnectionSummary.spelled (c : ConnectionSummary) : String :=
  Text.spellRecord "Connection"
    [("unique_id", Text.quote c.id), ("peer_addr", c.peer), ("state", c.state.name)]

/-- What listeners are told. -/
inductive ConnectionEvent where
  /-- the handshake is complete: frames can be exchanged -/
  | connected (connection : ConnectionSummary)
  /-- the connection is gone; only of one that was connected before -/
  | disconnected (connection : ConnectionSummary)
  deriving DecidableEq, Repr, Inhabited

namespace ConnectionEvent

/-- The connection that an event is about. -/
def connection : ConnectionEvent → ConnectionSummary
  | .connected c => c
  | .disconnected c => c

/-- An event spelled with the connection's id and, at the end, the reason. -/
def spelled : ConnectionEvent → String
  | .connected c => "Connected(" ++ c.id ++ ")"
  | .disconnected c =>
      "Disconnected(" ++ c.id ++ ": " ++ Text.spellOption CloseReason.spelled c.reason ++ ")"

end ConnectionEvent

end Courier
