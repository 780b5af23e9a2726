import Courier.Handshake.Basic
import Courier.Link.Wire
import Courier.Pipe.Stages
import Courier.Router
import Courier.Socket.Sender
import Courier.Transport.Core
import Courier.Wire.Format

/-!
Courier.Link.Basic — a connection at work, and the tasks that work on it.

Four tasks share the state of a link. The receiver moves bytes from the wire to the input pipe;
the main task carries out the handshake, reads frames from the input pipe, hands them to handlers
and finally closes the connection; the writer moves frames from the queue to the output pipe; the
sender moves bytes from there to the wire. Handlers that are deferred are tasks of their own. Each
task is at a stage, and does one thing with the shared state at a time; what waits to be done next
is all that a stage says.
-/

namespace Courier

/-! ## 1. What a link remembers -/

/-- The moments that the owner of a connection is told of. -/
inductive Milestone where
  | handshaked
  | closing
  | closed
  deriving DecidableEq, Repr, Inhabited

/-- What happened on a link. -/
inductive Entry where
  /-- a frame came in -/
  | dispatched (frame : Frame)
  /-- a handler was called, or was refused something -/
  | reported (report : Report)
  /-- the owner was told of a milestone -/
  | reached (milestone : Milestone) (state : ConnectionState) (reason : Option CloseReason)
  deriving Inhabited

/-- What a read returned: the part that is not worked off, the size of the whole, and whether it
was the last read. -/
structure Portion where
  buffer : Buffer
  size : Nat
  last : Bool
  deriving DecidableEq, Repr, Inhabited

/-! ## 2. Stages -/

/-- The stages of the main task. -/
inductive MainStage where
  | unstarted
  /-- about to start the handshake -/
  | opening
  /-- the handshake is complete, which is about to be marked, shown as a state and told -/
  | marking (portion : Option Portion)
  | showing (portion : Option Portion)
  | telling (portion : Option Portion)
  /-- waits for input -/
  | waiting (read : ReadStage)
  /-- about to show the input to the handshake -/
  | examining (portion : Portion)
  /-- about to read the next frame -/
  | reading (portion : Portion)
  /-- at work in a handler -/
  | handling (job : Job) (portion : Portion)
  /-- about to give back the part of the input that was consumed -/
  | settling (portion : Portion)
  /-- about to drop the input -/
  | leaving (cause : Option Fault)
  /-- about to find the reason -/
  | concluding (cause : Option Fault)
  /-- about to tell the owner of the closing, record the reason, cut off an erroneous connection,
  and stop the writer -/
  | notifying (reason : CloseReason)
  | recording (reason : CloseReason)
  | cutting (reason : CloseReason)
  | cancelling (reason : CloseReason)
  /-- waits for the end of the writer -/
  | awaitingWriter (reason : CloseReason)
  /-- about to end the output -/
  | draining (reason : CloseReason)
  /-- waits for the end of the sender, until a point in time if there is one -/
  | awaitingSender (reason : CloseReason) (deadline : Option Nat)
  /-- about to shut down the transport -/
  | shutting (reason : CloseReason)
  /-- about to end the input -/
  | releasing
  /-- waits for the end of the receiver -/
  | awaitingReceiver
  /-- about to show the end as a state, tell it, and mark it -/
  | ending
  | tellingEnd
  | markingEnd
  | finished
  | crashed (misuse : Misuse)
  deriving Inhabited

/-- The stages of the writer. -/
inductive WriterStage where
  | unstarted
  /-- waits for a frame -/
  | waiting
  /-- a frame was written: about to see whether there is another -/
  | batching
  | flushing (flush : FlushStage)
  /-- about to close the queue -/
  | leaving
  /-- about to end the output -/
  | completing
  | finished
  | crashed (misuse : Misuse)
  deriving DecidableEq, Repr, Inhabited

/-- The stages of the receiver. -/
inductive ReceiverStage where
  /-- waits until there is something to be received -/
  | expecting
  /-- about to provide memory -/
  | preparing
  /-- waits for bytes -/
  | receiving
  | flushing (flush : FlushStage)
  /-- about to record why it ends, if it has a reason of its own -/
  | leaving (reason : Option CloseReason)
  /-- about to end the input -/
  | completing
  | finished
  | crashed (misuse : Misuse)
  deriving DecidableEq, Repr, Inhabited

/-- The stages of the sender. -/
inductive SenderStage where
  /-- waits for output -/
  | waiting (read : ReadStage)
  /-- about to send what is left of an output of some size -/
  | sending (left : List Bytes) (size : Nat) (last : Bool)
  /-- about to offer a socket what is left of an output of some size -/
  | offering (sender : SocketSender) (size : Nat) (last : Bool)
  /-- about to give back the output that was sent -/
  | settling (size : Nat) (last : Bool)
  /-- about to end the stream -/
  | closing
  /-- about to record why it ends, if it has a reason of its own; on a socket it drops the output
  before it records that -/
  | leaving (fault : Option IoError)
  /-- about to drop the output -/
  | completing
  /-- the output is dropped: about to record why it ends, if it has a reason of its own -/
  | reporting (fault : Option IoError)
  /-- about to shut down the transport -/
  | shutting
  | finished
  | crashed (misuse : Misuse)
  deriving DecidableEq, Repr, Inhabited

/-! ## 3. Links -/

/-- How the bytes of a link are moved. -/
inductive Carriage where
  /-- through a stream, one segment after another -/
  | stream
  /-- through the socket itself. With `expects`, memory is provided only once there are bytes for
  it; with `breaks`, a connection that ends with an error is broken off. -/
  | socket (expects breaks : Bool)
  deriving DecidableEq, Repr, Inhabited

/-- What a link is set up with. -/
structure LinkSetup where
  handshake : Handshake := .instant
  format : WireFormat := .plain
  router : Router := {}
  carriage : Carriage := .stream
  /-- how much may wait while the handshake is not complete -/
  maxHandshake : Nat := 2 * 1024

/-- A connection, its transport and its wire, the stages of the tasks, and what happened. -/
structure Link where
  setup : LinkSetup
  connection : Connection
  transport : TransportCore
  memory : BlockPool := {}
  reader : FrameReader
  wire : Wire
  /-- the time, in thousandths of a second -/
  clock : Nat := 0
  main : MainStage := .unstarted
  writer : WriterStage := .unstarted
  receiver : ReceiverStage := .preparing
  sender : SenderStage := .waiting .looking
  jobs : List Job := []
  log : List Entry := []

/-- Where a task that waits for either of two things looks. -/
inductive Choice where
  /-- at what it works for -/
  | work
  /-- at whether it is to stop -/
  | stop
  deriving DecidableEq, Repr, Inhabited

/-- The stage in which a receiver turns to the next bytes. -/
def ReceiverStage.first : Carriage → ReceiverStage
  | .socket true _ => .expecting
  | _ => .preparing

namespace Link

/-- A link that is not started yet. -/
def new (setup : LinkSetup) (id peer : String) (maxPayload : Nat) (input output : Thresholds)
    (wire : Wire) : Link :=
  { setup, wire
    connection := { id, peer, maxPayload }
    transport := { peer, input := { thresholds := input }, output := { thresholds := output } }
    reader := setup.format.reader maxPayload
    receiver := .first setup.carriage }

/-- Notes what happened. -/
def note (e : Entry) (l : Link) : Link :=
  { l with log := l.log ++ [e] }

/-- Tells the owner of a milestone. -/
def tell (m : Milestone) (l : Link) : Link :=
  l.note (.reached m l.connection.state l.transport.reason)

/-- The connection enters a state. -/
def enter (s : ConnectionState) (l : Link) : Link :=
  { l with connection := { l.connection with state := s } }

/-- Asks something of the connection. -/
def perform (command : Command) (l : Link) : Except Refusal Unit × Link :=
  let performed := l.connection.perform command
  (performed.1, { l with connection := performed.2 })

/-- Changes the input pipe. -/
def setInput (memory : BlockPool) (p : Pipe) (l : Link) : Link :=
  { l with memory, transport := { l.transport with input := p } }

/-- Changes the output pipe. -/
def setOutput (memory : BlockPool) (p : Pipe) (l : Link) : Link :=
  { l with memory, transport := { l.transport with output := p } }

/-- What becomes of the wire when the transport is shut down. A stream is left to the receiver and
the sender; a socket is shut down itself. -/
def shutWire (reason : CloseReason) (l : Link) : Wire :=
  match l.setup.carriage with
  | .stream => l.wire
  | .socket _ breaks => if breaks && reason.isError then l.wire.shutBreaking else l.wire.shut

/-- Shuts down the transport, if nobody has begun to. -/
def shutDown (reason : CloseReason) (l : Link) : Link :=
  match l.transport.begin reason with
  | (none, _) => l
  | (some reason, transport) => { l with transport := transport.finish, wire := l.shutWire reason }

/-- The wire is let go once neither the receiver nor the sender uses it. -/
def releaseWire (l : Link) : Link :=
  if l.receiver = .finished ∧ l.sender = .finished then { l with wire := l.wire.release } else l

end Link

end Courier
