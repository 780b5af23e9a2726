import Courier.Connection.Summary
import Courier.Json.Value
import Courier.Wire.Frame

/-!
Courier.Connection.Basic — a connection as its owner uses it.

Whoever holds a connection can queue frames on it and ask for its end. Frames are queued in the
order of the calls, and a call is refused if the frame breaks a limit or the connection is at its
end. The tasks that move the frames are in `Courier.Link`.
-/

namespace Courier

/-- What the holders of a connection share. -/
structure Connection where
  id : String
  /-- the address of the peer, as text -/
  peer : String
  /-- the greatest payload, in either direction -/
  maxPayload : Nat
  state : ConnectionState := .connecting
  handshaked : Bool := false
  /-- the end was asked for, or has begun -/
  cancelled : Bool := false
  /-- the end is complete -/
  closed : Bool := false
  /-- the frames that wait to be sent, the oldest first -/
  queue : List Frame := []
  /-- there is someone to take frames from the queue -/
  accepting : Bool := true
  deriving DecidableEq, Repr, Inhabited

/-- What can be asked of a connection. -/
inductive Command where
  | send (identifier : String) (payload : Bytes)
  | sendValue (identifier : String) (value : Json)
  | sendRaw (payload : Bytes)
  | disconnect
  deriving Inhabited

namespace Connection

/-- Queues a frame. Its limits are looked at first. -/
def enqueue (f : Frame) (c : Connection) : Except Refusal Connection :=
  match f.validate c.maxPayload with
  | .error r => .error r
  | .ok () =>
      if c.cancelled || !c.accepting then .error (.connectionClosed c.id)
      else .ok { c with queue := c.queue ++ [f] }

/-- Identifiers that belong to typed values are not for callers. -/
def checkIdentifier (identifier : String) : Except Refusal Unit :=
  if Frame.isTyped identifier then .error (.reservedIdentifier identifier Frame.typedMark)
  else .ok ()

/-- Queues a payload under an identifier. -/
def send (identifier : String) (payload : Bytes) (c : Connection) : Except Refusal Connection := do
  checkIdentifier identifier
  c.enqueue (.new identifier payload)

/-- Queues a value for the handlers of values under an identifier. -/
def sendValue (identifier : String) (value : Json) (c : Connection) :
    Except Refusal Connection := do
  checkIdentifier identifier
  c.enqueue (.new (Frame.typedIdentifier identifier) (Bytes.ofString value.render))

/-- Queues bare bytes. -/
def sendRaw (payload : Bytes) (c : Connection) : Except Refusal Connection :=
  c.enqueue (.raw payload)

/-- Asks for the end of the connection. -/
def disconnect (c : Connection) : Connection :=
  { c with cancelled := true }

/-- Takes no more frames, and drops those that wait. -/
def closeQueue (c : Connection) : Connection :=
  { c with accepting := false, queue := [] }

/-- Does what is asked, and says whether it was refused. -/
def perform (command : Command) (c : Connection) : Except Refusal Unit × Connection :=
  let result := match command with
    | .send identifier payload => c.send identifier payload
    | .sendValue identifier value => c.sendValue identifier value
    | .sendRaw payload => c.sendRaw payload
    | .disconnect => .ok c.disconnect
  match result with
  | .ok c => (.ok (), c)
  | .error r => (.error r, c)

/-- The connection as listeners see it. -/
def summary (reason : Option CloseReason) (c : Connection) : ConnectionSummary :=
  { id := c.id, peer := c.peer, state := c.state, reason }

/-- A frame that was accepted is within the limits. -/
theorem validate_of_enqueue {f : Frame} {c d : Connection} (h : c.enqueue f = .ok d) :
    f.validate c.maxPayload = .ok () := by
  unfold enqueue at h
  split at h
  · cases h
  · next hvalid => exact hvalid

/-- A frame that was accepted is the last one in the queue. -/
theorem queue_of_enqueue {f : Frame} {c d : Connection} (h : c.enqueue f = .ok d) :
    d.queue = c.queue ++ [f] := by
  unfold enqueue at h
  split at h
  · cases h
  · split at h
    · cases h
    · cases h; rfl

end Connection

end Courier
