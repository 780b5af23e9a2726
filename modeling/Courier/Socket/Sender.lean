import Courier.Buffer
import Courier.IoError

/-!
Courier.Socket.Sender — writing a buffer to a socket that takes part of it at a time.

Each round offers the first segments of what is left and gives back what the socket took. A sender
keeps what is left of the buffer that it was given last. It is cleared before it takes over the
segments of another one, so nothing of an earlier buffer is sent, and the buffer itself stays as it
is. Senders are pooled, up to a bound.
-/

namespace Courier

/-- What comes of a round at a socket. -/
inductive WriteOutcome where
  /-- the wait until the socket takes something failed -/
  | unready (cause : IoError)
  /-- the socket takes so many bytes, or all that it is offered if that is less -/
  | took (count : Nat)
  /-- the write failed, be it only because the socket takes nothing now -/
  | failed (cause : IoError)
  deriving DecidableEq, Repr, Inhabited

/-! ## 1. Senders -/

/-- A sender and what it has not sent yet. -/
structure SocketSender where
  pending : Buffer := {}
  deriving DecidableEq, Repr, Inhabited

namespace SocketSender

/-- The most segments that are offered at once. -/
def maxOffered : Nat := 64

/-- What is offered in the next round: a single segment by itself, several in a row. -/
def offer (s : SocketSender) : Bytes :=
  match s.pending.chunks maxOffered with
  | [_] => s.pending.chunk
  | chunks => chunks.flatten

/-- Forgets what was not sent. -/
def reset (s : SocketSender) : SocketSender :=
  { pending := s.pending.clear }

/-- Takes over the segments of a buffer, and nothing else. -/
def load (b : Buffer) (s : SocketSender) : SocketSender :=
  { pending := b.segments.foldl (fun pending segment => pending.push segment) s.pending.clear }

end SocketSender

/-! ## 2. Transmissions -/

/-- How far a transmission has come: it goes on, or all was sent, or it broke off. A mistake of the
program would end it too. -/
inductive Transmission.Progress where
  | ongoing
  | complete
  | broken (cause : IoError)
  | crashed (misuse : Misuse)
  deriving DecidableEq, Repr, Inhabited

/-- A buffer on its way to a socket: the buffer, the sender that has taken it over, what the socket
took so far, and how far it has come. -/
structure Transmission where
  source : Buffer
  sender : SocketSender
  accepted : Bytes := []
  progress : Transmission.Progress := .ongoing
  deriving DecidableEq, Repr, Inhabited

namespace Transmission

/-- Goes on as long as something is left. -/
def proceed (t : Transmission) : Transmission :=
  { t with progress := if t.sender.pending.isEmpty then .complete else .ongoing }

/-- A sender is given a buffer. -/
def start (b : Buffer) (s : SocketSender) : Transmission :=
  proceed { source := b, sender := s.load b }

/-- A round at the socket, if there is anything left to be sent. -/
def round (t : Transmission) (outcome : WriteOutcome) : Transmission :=
  match t.progress with
  | .ongoing =>
      match outcome with
      | .unready cause => { t with progress := .broken cause }
      | .failed cause =>
          if cause.kind = .wouldBlock then t else { t with progress := .broken cause }
      | .took count =>
          let taken := t.sender.offer.take count
          if taken = [] then { t with progress := .broken (.ofKind .writeZero) }
          else
            match t.sender.pending.advance taken.length with
            | .error misuse =>
                { t with accepted := t.accepted ++ taken, progress := .crashed misuse }
            | .ok pending =>
                proceed { t with sender := { pending }, accepted := t.accepted ++ taken }
  | _ => t

end Transmission

/-- Sends a buffer through a socket of which so much is known. -/
def SocketSender.send (outcomes : List WriteOutcome) (b : Buffer) (s : SocketSender) :
    Transmission :=
  outcomes.foldl Transmission.round (Transmission.start b s)

/-! ## 3. Pools -/

/-- Senders that can be used again, at most `bound` of them, the one returned first in front. -/
structure SenderPool where
  bound : Nat
  idle : List SocketSender := []
  deriving DecidableEq, Repr, Inhabited

namespace SenderPool

/-- How many senders a pool keeps unless it is told otherwise. -/
def defaultBound : Nat := 2048

/-- A pool; it has to have room for a sender. -/
def new (bound : Nat) : Except Misuse SenderPool :=
  if bound = 0 then .error .zeroCapacity else .ok { bound }

/-- The pool of the usual size. -/
def usual : SenderPool := { bound := defaultBound }

/-- A sender: the one that was idle longest, or a new one. -/
def rent (pool : SenderPool) : SocketSender × SenderPool :=
  match pool.idle with
  | s :: rest => (s, { pool with idle := rest })
  | [] => ({}, pool)

/-- Takes a sender back; it is dropped if the pool is full. -/
def giveBack (s : SocketSender) (pool : SenderPool) : SenderPool :=
  if pool.idle.length < pool.bound then { pool with idle := pool.idle ++ [s.reset] } else pool

/-- How many senders are idle. -/
def idleCount (pool : SenderPool) : Nat :=
  pool.idle.length

end SenderPool

end Courier
