import Courier.Link.Main
import Courier.Link.Receiver
import Courier.Link.Sender
import Courier.Link.Writer

/-!
Courier.Link.Run — everything that can happen on a link, in any order.

A move is a step of one of the tasks, or something from outside: a call, the passing of time, what
the peer does with its end of the wire. The tasks are not told when to run: whatever order of moves
is possible may happen. A move that is not possible in a state has no result.
-/

namespace Courier

/-- What happens on a link. -/
inductive Move where
  | main (choice : Choice)
  | writer (choice : Choice)
  /-- the receiver takes at most `most` bytes at once -/
  | receiver (choice : Choice) (most : Nat)
  /-- the sender sends at most `most` bytes at once -/
  | sender (choice : Choice) (most : Nat)
  | job (number : Nat)
  | start
  | call (command : Command)
  /-- a reason is recorded from outside -/
  | record (reason : CloseReason)
  /-- the transport is shut down from outside -/
  | shutDown (reason : CloseReason)
  | elapse (milliseconds : Nat)
  /-- the peer sends bytes, as far as there is room for them -/
  | arrive (bytes : Bytes)
  /-- the peer sends nothing more -/
  | endArriving
  /-- the peer takes at most `most` bytes -/
  | depart (most : Nat)
  /-- the peer lets go of its end -/
  | abandon
  | failRead (fault : IoError)
  | failWrite (fault : IoError)
  deriving Inhabited

namespace Link

/-- The link after a move, if the move is possible. -/
def move? (m : Move) (l : Link) : Option Link :=
  match m with
  | .main choice => l.stepMain choice
  | .writer choice => l.stepWriter choice
  | .receiver choice most => l.stepReceiver choice most
  | .sender choice most => l.stepSender choice most
  | .job number => l.stepJob number
  | .start => some l.start
  | .call command => some (l.perform command).2
  | .record reason => some { l with transport := l.transport.record reason }
  | .shutDown reason => some (l.shutDown reason)
  | .elapse n => some { l with clock := l.clock + n }
  | .arrive bs => some { l with wire := (l.wire.arrive bs).2 }
  | .endArriving => some { l with wire := l.wire.endArriving }
  | .depart most => some { l with wire := (l.wire.depart most).2 }
  | .abandon => some { l with wire := l.wire.abandon }
  | .failRead fault => some { l with wire := { l.wire with readFault := some fault } }
  | .failWrite fault => some { l with wire := { l.wire with writeFault := some fault } }

/-- The link after a row of moves, if all of them are possible. -/
def run? : List Move → Link → Option Link
  | [], l => some l
  | m :: moves, l =>
      match l.move? m with
      | none => none
      | some l => run? moves l

end Link

end Courier
