import Courier.Bytes
import Courier.IoError

/-!
Courier.Link.Wire — the stream between a connection and its peer.

Each direction holds a bounded number of bytes. A direction that has ended still delivers what it
holds. A read or a write that has to wait has no result.
-/

namespace Courier

/-- The two directions of a stream, seen from the connection's end. -/
structure Wire where
  /-- how many bytes each direction holds -/
  capacity : Nat
  /-- what the peer has sent and the connection has not received -/
  arriving : Bytes := []
  /-- the peer sends nothing more -/
  arrivingEnded : Bool := false
  /-- what the connection has sent and the peer has not taken -/
  departing : Bytes := []
  /-- the connection sends nothing more -/
  departingEnded : Bool := false
  /-- the connection found no room and waits for some -/
  awaitingRoom : Bool := false
  /-- the peer takes nothing more -/
  peerGone : Bool := false
  /-- the connection has let go of the stream: what the peer sends is lost -/
  released : Bool := false
  /-- letting go of the stream breaks it off -/
  breaking : Bool := false
  /-- how the next read fails -/
  readFault : Option IoError := none
  /-- how the next write fails -/
  writeFault : Option IoError := none
  deriving DecidableEq, Repr, Inhabited

namespace Wire

/-- There is something to be received, be it the end of the stream or a failure. -/
def readable (w : Wire) : Bool :=
  w.readFault.isSome || !w.arriving.isEmpty || w.arrivingEnded

/-- Receives at most `most` bytes; none at the end of the stream. -/
def receive? (most : Nat) (w : Wire) : Option (Except IoError Bytes × Wire) :=
  match w.readFault with
  | some fault => some (.error fault, { w with readFault := none })
  | none =>
      if w.arriving.isEmpty then
        if w.arrivingEnded then some (.ok [], w) else none
      else if most = 0 then none
      else some (.ok (w.arriving.take most), { w with arriving := w.arriving.drop most })

/-- How many more bytes can be sent. -/
def room (w : Wire) : Nat :=
  w.capacity - w.departing.length

/-- Sends at most `most` of the bytes, as far as there is room, and says how many. Without room it
waits until there is some, and looks at nothing else meanwhile. -/
def send? (most : Nat) (bs : Bytes) (w : Wire) : Option (Except IoError Nat × Wire) :=
  if w.awaitingRoom then none
  else
    match w.writeFault with
    | some fault => some (.error fault, { w with writeFault := none })
    | none =>
        if w.peerGone || w.departingEnded then some (.error (.ofKind .brokenPipe), w)
        else if w.room = 0 then some (.ok 0, { w with awaitingRoom := true })
        else if most = 0 then none
        else
          let piece := bs.take (min most w.room)
          some (.ok piece.length, { w with departing := w.departing ++ piece })

/-- Sends nothing more. -/
def endSending (w : Wire) : Wire :=
  { w with departingEnded := true }

/-- Receives and sends nothing more; what has arrived can still be received. -/
def shut (w : Wire) : Wire :=
  { w with arrivingEnded := true, departingEnded := true }

/-- Receives nothing more, and breaks the stream off when it lets go of it. -/
def shutBreaking (w : Wire) : Wire :=
  { w with arrivingEnded := true, breaking := true }

/-- Lets go of the stream. When that breaks it off, what the peer has not taken is lost. -/
def release (w : Wire) : Wire :=
  { w with
    departingEnded := true, released := true,
    departing := if w.breaking then [] else w.departing }

/-- The peer finds the stream broken off. -/
def brokenOff (w : Wire) : Bool :=
  w.released && w.breaking

/-- The peer sends bytes, as far as there is room; what is left of them. -/
def arrive (bs : Bytes) (w : Wire) : Bytes × Wire :=
  let room := w.capacity - w.arriving.length
  (bs.drop room, { w with arriving := w.arriving ++ bs.take room })

/-- The peer sends nothing more. -/
def endArriving (w : Wire) : Wire :=
  { w with arrivingEnded := true }

/-- The peer lets go of the stream. -/
def abandon (w : Wire) : Wire :=
  { w with arrivingEnded := true, peerGone := true, departing := [], awaitingRoom := false }

/-- The peer takes at most `most` bytes. -/
def depart (most : Nat) (w : Wire) : Bytes × Wire :=
  let taken := w.departing.take most
  (taken, { w with
    departing := w.departing.drop most, awaitingRoom := w.awaitingRoom && taken.isEmpty })

end Wire

end Courier
