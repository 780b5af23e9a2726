import Courier.Buffer
import Courier.Fault

/-!
Courier.Handshake.Basic — what happens on a connection before the first frame.

A handshake says what to send at the start and judges the bytes that have come in so far. It
sends nothing itself: `Handshake.start` and `Handshake.examine` carry out what it says through a
sender that may fail. Bytes are consumed only after the reply to them was sent, so a handshake
that does not succeed leaves the buffer as it was.
-/

namespace Courier

/-- What a handshake does when the connection is there. -/
inductive Opening where
  /-- send the greeting, if there is one; `complete` if that is all there is to do -/
  | proceed (greeting : Option Bytes) (complete : Bool)
  | failed (cause : Fault)
  deriving DecidableEq, Repr, Inhabited

/-- What a handshake makes of the bytes that came in. -/
inductive Verdict where
  /-- more bytes are needed -/
  | pending
  /-- the first `size` bytes complete the handshake; they are answered by the reply, if there is
  one -/
  | accepted (reply : Option Bytes) (size : Nat)
  | rejected (cause : Fault)
  deriving DecidableEq, Repr, Inhabited

/-- How a connection is opened, and how the peer's side of it is judged. -/
structure Handshake where
  opening : Opening
  /-- waits for more unless it is told otherwise -/
  judge : Bytes → Verdict := fun _ => .pending

/-- A sender of bare bytes: it may fail, and otherwise changes its state. -/
abbrev RawSender (σ : Type) := Bytes → σ → Except Fault σ

namespace Handshake

/-- No handshake: complete as soon as the connection is there. -/
def instant : Handshake where
  opening := .proceed none true
  judge _ := .accepted none 0

/-- Sends a message, if there is one. -/
def sendIfAny (send : RawSender σ) : Option Bytes → σ → Except Fault σ
  | none, s => .ok s
  | some message, s => send message s

/-- Opens the connection; `true` if the handshake is complete already. -/
def start (h : Handshake) (send : RawSender σ) (s : σ) : Except Fault Bool × σ :=
  match h.opening with
  | .failed cause => (.error cause, s)
  | .proceed greeting complete =>
      match sendIfAny send greeting s with
      | .error cause => (.error cause, s)
      | .ok s => (.ok complete, s)

/-- Judges what came in, sends the reply and consumes the handshake's bytes; `true` if the
handshake is complete. -/
def examine (h : Handshake) (send : RawSender σ) (b : Buffer) (s : σ) :
    Except Fault Bool × Buffer × σ :=
  match h.judge b.toList with
  | .pending => (.ok false, b, s)
  | .rejected cause => (.error cause, b, s)
  | .accepted reply size =>
      match sendIfAny send reply s with
      | .error cause => (.error cause, b, s)
      | .ok s => (.ok true, b.drop size, s)

end Handshake

end Courier
