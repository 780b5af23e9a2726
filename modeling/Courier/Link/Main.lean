import Courier.Link.Basic

/-!
Courier.Link.Main — the main task of a link.

It starts the handshake and waits for input or for a request to stop. As long as the handshake is
not complete, input is shown to it; after that, input is read frame by frame, and each frame is
worked off before the next is read. When there is no more input, or something is wrong with it,
the task closes the connection: it finds the reason, waits until what was written is sent, and
ends the other tasks.
-/

namespace Courier

/-- How long what was written may take to be sent at the end, in thousandths of a second. -/
def Link.drainTime : Nat := 5000

/-- Why a connection ends whose output could not be sent in time. -/
def CloseReason.drainTimeout : CloseReason := .aborted "timeout draining output"

/-- Bare bytes are sent by queueing them. -/
def Connection.rawSender : RawSender Connection := fun message c =>
  match c.sendRaw message with
  | .ok c => .ok c
  | .error r => .error (.refused r)

namespace Link

/-- Goes on with the call of a handler: what is left of it, if anything is. -/
def goOn (job : Job) (l : Link) : Option Job × Link :=
  match job.step l.connection with
  | (left, reports, connection) =>
      (left, { l with connection, log := l.log ++ reports.map .reported })

/-- The reason for the end that the main task has come to: a fault, or a request to stop, or
whatever was recorded when the input ended. -/
def closeReason (cause : Option Fault) (l : Link) : CloseReason :=
  match cause with
  | some fault => .ofFault fault
  | none =>
      if l.connection.cancelled then .localDisconnect
      else l.transport.reason.getD .peerClosed

/-- Starts the handshake. -/
def openHandshake (l : Link) : Link :=
  let started := l.setup.handshake.start Connection.rawSender l.connection
  let l := { l with connection := started.2 }
  match started.1 with
  | .error cause => { l with main := .leaving (some cause) }
  | .ok true => { l with main := .marking none }
  | .ok false => { l with main := .waiting .looking }

/-- Shows input to the handshake. -/
def examine (portion : Portion) (l : Link) : Link :=
  let examined := l.setup.handshake.examine Connection.rawSender portion.buffer l.connection
  let portion := { portion with buffer := examined.2.1 }
  let l := { l with connection := examined.2.2 }
  match examined.1 with
  | .error cause => { l with main := .leaving (some cause) }
  | .ok true => { l with main := .marking (some portion) }
  | .ok false =>
      if l.setup.maxHandshake < portion.buffer.size then
        { l with main := .leaving (some (.violation (.longHandshake l.setup.maxHandshake))) }
      else { l with main := .settling portion }

/-- Hands a frame to its handler, or drops it. -/
def dispatch (f : Frame) (portion : Portion) (l : Link) : Link :=
  let l := l.note (.dispatched f)
  match l.setup.router.route f with
  | none => { l with main := .reading portion }
  | some (h, delivery) =>
      let job := Job.new h delivery
      if h.deferred then { l with jobs := l.jobs ++ [job], main := .reading portion }
      else { l with main := .handling job portion }

/-- Reads the next frame. -/
def readFrame (portion : Portion) (l : Link) : Link :=
  let read := l.reader.read portion.buffer
  let portion := { portion with buffer := read.2.2 }
  let l := { l with reader := read.2.1 }
  match read.1 with
  | .error cause => { l with main := .leaving (some cause) }
  | .ok none => { l with main := .settling portion }
  | .ok (some f) => l.dispatch f portion

/-- Gives back what was consumed. -/
def settle (portion : Portion) (l : Link) : Link :=
  match l.transport.input.consume (portion.size - portion.buffer.size) l.memory with
  | .error m => { l with main := .crashed m }
  | .ok (memory, input) =>
      let l := l.setInput memory input
      { l with main := if portion.last then .leaving none else .waiting .looking }

/-- Works off what a read returned. -/
def takeInput (outcome : ReadOutcome) (l : Link) : Link :=
  let portion : Portion :=
    { buffer := outcome.buffer, size := outcome.buffer.size,
      last := outcome.completed || outcome.canceled }
  { l with main := if l.connection.handshaked then .reading portion else .examining portion }

/-- Drops the input. -/
def dropInput (l : Link) : Link :=
  let dropped := l.transport.input.completeReader l.memory
  l.setInput dropped.1 dropped.2

/-- The writer is at its end. -/
def writerEnded (l : Link) : Bool :=
  match l.writer with
  | .finished | .crashed _ => true
  | _ => false

/-- The sender is at its end. -/
def senderEnded (l : Link) : Bool :=
  match l.sender with
  | .finished | .crashed _ => true
  | _ => false

/-- The receiver is at its end. -/
def receiverEnded (l : Link) : Bool :=
  match l.receiver with
  | .finished | .crashed _ => true
  | _ => false

/-- Waits for the sender; when the time is up, shuts down the transport and waits on. -/
def awaitSender (reason : CloseReason) (deadline : Option Nat) (l : Link) : Option Link :=
  if l.senderEnded then some { l with main := .shutting reason }
  else
    match deadline with
    | none => none
    | some time =>
        if l.clock < time then none
        else some { l.shutDown .drainTimeout with main := .awaitingSender reason none }

/-- Does the next thing on the way to the end of the connection. -/
def workMain (l : Link) : Option Link :=
  match l.main with
  | .unstarted => none
  | .opening => some (l.enter .handshaking).openHandshake
  | .marking portion =>
      some { l with
        connection := { l.connection with handshaked := true }, main := .showing portion }
  | .showing portion => some { l.enter .opened with main := .telling portion }
  | .telling none => some { l.tell .handshaked with main := .waiting .looking }
  | .telling (some portion) => some { l.tell .handshaked with main := .reading portion }
  | .waiting read =>
      match read.step? l.transport.input with
      | none => none
      | some (.next read, input) => some { l.setInput l.memory input with main := .waiting read }
      | some (.done outcome, input) => some ((l.setInput l.memory input).takeInput outcome)
  | .examining portion => some (l.examine portion)
  | .reading portion => some (l.readFrame portion)
  | .handling job portion =>
      match l.goOn job with
      | (none, l) => some { l with main := .reading portion }
      | (some job, l) => some { l with main := .handling job portion }
  | .settling portion => some (l.settle portion)
  | .leaving cause => some { l.dropInput with main := .concluding cause }
  | .concluding cause =>
      some { l.enter .closing with main := .notifying (l.closeReason cause) }
  | .notifying reason => some { l.tell .closing with main := .recording reason }
  | .recording reason =>
      some { l with transport := l.transport.record reason, main := .cutting reason }
  | .cutting reason =>
      some { if reason.isError then l.shutDown reason else l with main := .cancelling reason }
  | .cancelling reason =>
      some { l with connection := l.connection.disconnect, main := .awaitingWriter reason }
  | .awaitingWriter reason =>
      if l.writerEnded then some { l with main := .draining reason } else none
  | .draining reason =>
      some { l.setOutput l.memory l.transport.output.completeWriterOutside with
        main := .awaitingSender reason (some (l.clock + drainTime)) }
  | .awaitingSender reason deadline => l.awaitSender reason deadline
  | .shutting reason => some { l.shutDown reason with main := .releasing }
  | .releasing => some { l.dropInput with main := .awaitingReceiver }
  | .awaitingReceiver => if l.receiverEnded then some { l with main := .ending } else none
  | .ending => some { l.enter .closed with main := .tellingEnd }
  | .tellingEnd => some { l.tell .closed with main := .markingEnd }
  | .markingEnd =>
      some { l with connection := { l.connection with closed := true }, main := .finished }
  | .finished => none
  | .crashed _ => none

/-- Stops waiting for input. -/
def stopMain (l : Link) : Option Link :=
  match l.main with
  | .waiting read =>
      if l.connection.cancelled && read.interruptible then
        some { l.setInput l.memory l.transport.input.abandonRead with main := .leaving none }
      else none
  | _ => none

/-- A step of the main task, if it has one. -/
def stepMain (choice : Choice) (l : Link) : Option Link :=
  match choice with
  | .work => l.workMain
  | .stop => l.stopMain

/-- A step of a deferred handler, if there is one of that number. -/
def stepJob (number : Nat) (l : Link) : Option Link :=
  match l.jobs[number]? with
  | none => none
  | some job =>
      match l.goOn job with
      | (none, l) => some { l with jobs := l.jobs.eraseIdx number }
      | (some job, l) => some { l with jobs := l.jobs.set number job }

/-- Starts the main task and the writer. -/
def start (l : Link) : Link :=
  match l.main with
  | .unstarted => { l with main := .opening, writer := .waiting }
  | _ => l

end Link

end Courier
