import Courier.CloseReason
import Courier.Pipe.Reader
import Courier.Pipe.Writer

/-!
Courier.Transport.Core — the end of a transport.

A transport moves bytes between a socket and two pipes: what it receives goes into the input
pipe, what it sends comes out of the output pipe. It remembers the first reason that is recorded
for its end, shuts down once, and then wakes whichever of its loops waits at a pipe.
-/

namespace Courier

/-- The two pipes of a transport, and how far its end has come. -/
structure TransportCore where
  /-- the address of the peer, as text -/
  peer : String
  input : Pipe := {}
  output : Pipe := {}
  reason : Option CloseReason := none
  /-- the shutdown was begun: nobody else begins it -/
  begun : Bool := false
  /-- the loops are to stop -/
  stopped : Bool := false
  deriving DecidableEq, Repr, Inhabited

namespace TransportCore

/-- Records a reason, unless there is one already. -/
def record (reason : CloseReason) (t : TransportCore) : TransportCore :=
  { t with reason := some (t.reason.getD reason) }

/-- Begins the shutdown. The first call gets the reason that counts; there is nothing to do for
any other. -/
def begin (reason : CloseReason) (t : TransportCore) : Option CloseReason × TransportCore :=
  if t.begun then (none, t)
  else
    let recorded := t.record reason
    (recorded.reason, { recorded with begun := true })

/-- Stops both loops: the one that waits for output and the one that waits for room. -/
def finish (t : TransportCore) : TransportCore :=
  { t with stopped := true, output := t.output.cancelRead, input := t.input.cancelFlush }

/-- Shuts down, if nobody has begun to. -/
def shutDown (reason : CloseReason) (t : TransportCore) : TransportCore :=
  match t.begin reason with
  | (none, t) => t
  | (some _, t) => t.finish

end TransportCore

end Courier
