import Courier.Link.Basic

/-!
Courier.Link.Receiver — the task that moves bytes from the wire to the input pipe.

Memory is provided first, on a socket perhaps only once there are bytes; then as many bytes are
received as are there and fit, and a flush hands them over; while too much is unread nothing is
received. The receiver ends with the stream, with a failure of the wire, when it is asked to, or
when nobody reads the input any more.
-/

namespace Courier.Link

/-- How much memory there has to be for the next bytes. -/
def receiveSize : Nat := 2048

/-- Takes over what the wire delivered. -/
def takeReceived (bs : Bytes) (l : Link) : Link :=
  if bs.isEmpty then { l with receiver := .leaving (some .peerClosed) }
  else
    match (l.transport.input.fillMemory bs).advance bs.length with
    | .error m => { l with receiver := .crashed m }
    | .ok input => { l.setInput l.memory input with receiver := .flushing .publishing }

/-- Does the next thing with the wire or the input; takes at most `most` bytes from the wire. -/
def workReceiver (most : Nat) (l : Link) : Option Link :=
  match l.receiver with
  | .expecting => if l.wire.readable then some { l with receiver := .preparing } else none
  | .preparing =>
      let ready := l.transport.input.ensureMemory receiveSize l.memory
      some { l.setInput ready.1 ready.2 with receiver := .receiving }
  | .receiving =>
      match l.wire.receive? (min most l.transport.input.room) with
      | none => none
      | some (.error fault, wire) =>
          some { l with wire, receiver := .leaving (some (.ofIoError fault)) }
      | some (.ok bs, wire) => some ({ l with wire }.takeReceived bs)
  | .flushing flush =>
      match flush.step? l.memory l.transport.input with
      | none => none
      | some (.next flush, memory, input) =>
          some { l.setInput memory input with receiver := .flushing flush }
      | some (.done outcome, memory, input) =>
          some { l.setInput memory input with
            receiver :=
              if outcome.completed || outcome.canceled then .leaving none
              else .first l.setup.carriage }
  | .leaving none => some { l with receiver := .completing }
  | .leaving (some reason) =>
      some { l with transport := l.transport.record reason, receiver := .completing }
  | .completing =>
      let completed := l.transport.input.completeWriter l.memory
      some { l.setInput completed.1 completed.2 with receiver := .finished }.releaseWire
  | .finished => none
  | .crashed _ => none

/-- Stops waiting for bytes or for room. -/
def stopReceiver (l : Link) : Option Link :=
  if l.transport.stopped then
    match l.receiver with
    | .expecting | .preparing | .receiving => some { l with receiver := .leaving none }
    | .flushing flush =>
        if flush.interruptible then
          some { l.setInput l.memory l.transport.input.abandonFlush with receiver := .leaving none }
        else none
    | _ => none
  else none

/-- A step of the receiver, if it has one. -/
def stepReceiver (choice : Choice) (most : Nat) (l : Link) : Option Link :=
  match choice with
  | .work => l.workReceiver most
  | .stop => l.stopReceiver

end Courier.Link
