import Courier.Fault

/-!
Courier.CloseReason — why a connection ended.

A connection keeps the first reason that is recorded for it.
-/

namespace Courier

/-- The ways in which a connection ends. -/
inductive CloseReason where
  /-- everything was sent and nothing went wrong -/
  | sendingEnded
  | peerClosed
  | localDisconnect
  /-- an operation was broken off, as happens when it races with closing -/
  | aborted (text : String)
  | violation (text : String)
  | unexpected (text : String)
  deriving DecidableEq, Repr, Inhabited

namespace CloseReason

/-- The name of a reason, without its text. -/
def name : CloseReason → String
  | .sendingEnded => "SendLoopCompleted"
  | .peerClosed => "PeerClosed"
  | .localDisconnect => "LocalDisconnect"
  | .aborted _ => "Aborted"
  | .violation _ => "ProtocolViolation"
  | .unexpected _ => "Unexpected"

/-- The reason of a name, with a text where it has one. -/
def ofName? (text : String) : String → Option CloseReason
  | "SendLoopCompleted" => some .sendingEnded
  | "PeerClosed" => some .peerClosed
  | "LocalDisconnect" => some .localDisconnect
  | "Aborted" => some (.aborted text)
  | "ProtocolViolation" => some (.violation text)
  | "Unexpected" => some (.unexpected text)
  | _ => none

/-- The wording of a reason. -/
def message : CloseReason → String
  | .sendingEnded => "send loop completed gracefully"
  | .peerClosed => "connection closed by peer"
  | .localDisconnect => "disconnected locally"
  | .aborted text => "operation aborted: " ++ text
  | .violation text => "protocol violation: " ++ text
  | .unexpected text => "unexpected error: " ++ text

/-- A reason spelled with its name and its quoted text. -/
def spelled (r : CloseReason) : String :=
  match r with
  | .aborted text | .violation text | .unexpected text => r.name ++ "(" ++ Text.quote text ++ ")"
  | _ => r.name

/-- The reasons after which a connection may be cut off instead of being closed in order. -/
def isError : CloseReason → Bool
  | .violation _ | .unexpected _ => true
  | _ => false

/-- The reason that a failure of the system below amounts to. -/
def ofIoError (e : IoError) : CloseReason :=
  match e.kind.classify with
  | .graceful => .peerClosed
  | .aborted => .aborted e.text
  | .unexpected => .unexpected e.text

/-- The reason that a fault amounts to. A violation, the end of the connection and a failure of
the system are found at the bottom of a row of attempts; any other fault is taken as it stands. -/
def ofFault (f : Fault) : CloseReason :=
  match f.root with
  | .violation v => .violation v.message
  | .peerClosed => .peerClosed
  | .io e => ofIoError e
  | _ => .unexpected f.message

end CloseReason

end Courier
