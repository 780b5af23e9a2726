import Courier.Link.Basic

/-!
Courier.Link.Writer — the task that writes the queued frames.

Frames that are queued together are written together and then flushed, though never more than a
bound is written before a flush. The writer stops when it is asked to or when nobody reads the
output any more; the frames that are still queued are dropped then, and what was written is kept
for the sender.
-/

namespace Courier.Link

/-- With so much written, a flush comes before the next frame. -/
def flushSize : Nat := 64 * 1024

/-- What is written for a frame, piece by piece. A raw frame is its payload. -/
def outgoingPieces (format : WireFormat) (f : Frame) : Except Misuse (List Bytes) :=
  if f.isRaw then .ok [f.payload] else format.write f

/-- Writes pieces to the output. -/
def writePieces (pieces : List Bytes) (l : Link) : Link :=
  let written := pieces.foldl (fun (s : BlockPool × Pipe) piece => s.2.write piece s.1)
    (l.memory, l.transport.output)
  l.setOutput written.1 written.2

/-- Writes the first frame of the queue, if there is one, and goes on with `next`. -/
def writeNext? (next : Link → WriterStage) (l : Link) : Option Link :=
  match l.connection.queue with
  | [] => none
  | f :: queue =>
      let l := { l with connection := { l.connection with queue } }
      match outgoingPieces l.setup.format f with
      | .error m => some { l with writer := .crashed m }
      | .ok pieces =>
          let l := l.writePieces pieces
          some { l with writer := next l }

/-- What comes after a frame of a batch. -/
def afterFrame (l : Link) : WriterStage :=
  if flushSize ≤ l.transport.output.unflushed then .flushing .publishing else .batching

/-- Does the next thing with the queue or the output. -/
def workWriter (l : Link) : Option Link :=
  match l.writer with
  | .unstarted => none
  | .waiting => l.writeNext? fun _ => .batching
  | .batching =>
      match l.writeNext? afterFrame with
      | some l => some l
      | none => some { l with writer := .flushing .publishing }
  | .flushing flush =>
      match flush.step? l.memory l.transport.output with
      | none => none
      | some (.next flush, memory, output) =>
          some { l.setOutput memory output with writer := .flushing flush }
      | some (.done outcome, memory, output) =>
          some { l.setOutput memory output with
            writer := if outcome.completed || outcome.canceled then .leaving else .waiting }
  | .leaving =>
      some { l with connection := l.connection.closeQueue, writer := .completing }
  | .completing =>
      let completed := l.transport.output.completeWriter l.memory
      some { l.setOutput completed.1 completed.2 with writer := .finished }
  | .finished => none
  | .crashed _ => none

/-- Stops waiting for frames or for room. -/
def stopWriter (l : Link) : Option Link :=
  if l.connection.cancelled then
    match l.writer with
    | .waiting => some { l with writer := .leaving }
    | .flushing flush =>
        if flush.interruptible then
          some { l.setOutput l.memory l.transport.output.abandonFlush with writer := .leaving }
        else none
    | _ => none
  else none

/-- A step of the writer, if it has one. -/
def stepWriter (choice : Choice) (l : Link) : Option Link :=
  match choice with
  | .work => l.workWriter
  | .stop => l.stopWriter

end Courier.Link
