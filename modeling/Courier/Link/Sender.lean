import Courier.Link.Basic

/-!
Courier.Link.Sender — the task that moves bytes from the output pipe to the wire.

What a read returns is sent, to a stream segment by segment and to a socket several segments at a
time, each as the wire takes it, and given back once all of it was sent. After the last output a
stream is ended. The sender also ends with a failure of the wire, except that an interrupted write
to a stream is tried again, or when it is asked to; in any case the transport is shut down after it.
-/

namespace Courier.Link

/-- Goes on after an output. A socket is not ended before the transport is shut down. -/
def afterOutput (carriage : Carriage) (last : Bool) : SenderStage :=
  match carriage, last with
  | _, false => .waiting .looking
  | .stream, true => .closing
  | .socket _ _, true => .leaving none

/-- Works off what a read returned. -/
def takeOutput (carriage : Carriage) (outcome : ReadOutcome) : SenderStage :=
  let b := outcome.buffer
  if outcome.canceled then .leaving none
  else if b.isEmpty then afterOutput carriage outcome.completed
  else
    match carriage with
    | .stream => .sending (b.segments.map (·.bytes)) b.size outcome.completed
    | .socket _ _ => .offering (SocketSender.load b {}) b.size outcome.completed

/-- Drops the output. -/
def dropOutput (l : Link) : Link :=
  let dropped := l.transport.output.completeReader l.memory
  l.setOutput dropped.1 dropped.2

/-- Records why the sender ends, if it has a reason of its own. -/
def recordFault (fault : Option IoError) (l : Link) : Link :=
  match fault with
  | none => l
  | some fault => { l with transport := l.transport.record (.ofIoError fault) }

/-- Does the next thing with the output or the wire; sends at most `most` bytes at once. -/
def workSender (most : Nat) (l : Link) : Option Link :=
  match l.sender with
  | .waiting read =>
      match read.step? l.transport.output with
      | none => none
      | some (.next read, output) =>
          some { l.setOutput l.memory output with sender := .waiting read }
      | some (.done outcome, output) =>
          some { l.setOutput l.memory output with sender := takeOutput l.setup.carriage outcome }
  | .sending [] size last => some { l with sender := .settling size last }
  | .sending (segment :: left) size last =>
      match l.wire.send? most segment with
      | none => none
      | some (.error fault, wire) =>
          if fault.kind = .interrupted then some { l with wire }
          else some { l with wire, sender := .leaving (some fault) }
      | some (.ok count, wire) =>
          let left := if segment.length ≤ count then left else segment.drop count :: left
          some { l with wire, sender := .sending left size last }
  | .offering sender size last =>
      if sender.pending.isEmpty then some { l with sender := .settling size last }
      else
        match l.wire.send? most sender.offer with
        | none => none
        | some (.error fault, wire) => some { l with wire, sender := .leaving (some fault) }
        | some (.ok count, wire) =>
            let left := { sender with pending := sender.pending.drop count }
            some { l with wire, sender := .offering left size last }
  | .settling size last =>
      match l.transport.output.consume size l.memory with
      | .error m => some { l with sender := .crashed m }
      | .ok (memory, output) =>
          some { l.setOutput memory output with sender := afterOutput l.setup.carriage last }
  | .closing => some { l with wire := l.wire.endSending, sender := .leaving none }
  | .leaving fault =>
      match l.setup.carriage with
      | .stream => some { l.recordFault fault with sender := .completing }
      | .socket _ _ => some { l.dropOutput with sender := .reporting fault }
  | .completing => some { l.dropOutput with sender := .shutting }
  | .reporting fault => some { l.recordFault fault with sender := .shutting }
  | .shutting => some { l.shutDown .sendingEnded with sender := .finished }.releaseWire
  | .finished => none
  | .crashed _ => none

/-- Stops waiting for output or for the wire. -/
def stopSender (l : Link) : Option Link :=
  if l.transport.stopped then
    match l.sender with
    | .waiting read =>
        if read.interruptible then
          some { l.setOutput l.memory l.transport.output.abandonRead with sender := .leaving none }
        else none
    | .sending _ _ _ | .offering _ _ _ => some { l with sender := .leaving none }
    | _ => none
  else none

/-- A step of the sender, if it has one. -/
def stepSender (choice : Choice) (most : Nat) (l : Link) : Option Link :=
  match choice with
  | .work => l.workSender most
  | .stop => l.stopSender

end Courier.Link
