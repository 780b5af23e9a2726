import Courier.Handshake.Basic

/-!
Courier.Proofs.Handshake.Basic — what a handshake can come to.

A handshake sends through a sender that it knows nothing of. `Handshake.Starts` and
`Handshake.Examines` say all that its start and a look at what came in can come to: nothing is sent
unless the handshake says so, and nothing is consumed unless the reply was sent.
-/

namespace Courier.Handshake

variable {σ : Type}

/-- What the start of a handshake comes to, and the sender after it. -/
inductive Starts (h : Handshake) (send : RawSender σ) (s : σ) : Except Fault Bool × σ → Prop where
  | failed {cause : Fault} (opening : h.opening = .failed cause) : Starts h send s (.error cause, s)
  | refused {greeting : Option Bytes} {complete : Bool} {cause : Fault}
      (opening : h.opening = .proceed greeting complete)
      (sends : sendIfAny send greeting s = .error cause) : Starts h send s (.error cause, s)
  | opened {greeting : Option Bytes} {complete : Bool} {s' : σ}
      (opening : h.opening = .proceed greeting complete)
      (sends : sendIfAny send greeting s = .ok s') : Starts h send s (.ok complete, s')

/-- What a look at the input comes to, what is left of the input, and the sender after it. -/
inductive Examines (h : Handshake) (send : RawSender σ) (b : Buffer) (s : σ) :
    Except Fault Bool × Buffer × σ → Prop where
  | pending (judge : h.judge b.toList = .pending) : Examines h send b s (.ok false, b, s)
  | rejected {cause : Fault} (judge : h.judge b.toList = .rejected cause) :
      Examines h send b s (.error cause, b, s)
  | refused {reply : Option Bytes} {size : Nat} {cause : Fault}
      (judge : h.judge b.toList = .accepted reply size)
      (sends : sendIfAny send reply s = .error cause) : Examines h send b s (.error cause, b, s)
  | completed {reply : Option Bytes} {size : Nat} {s' : σ}
      (judge : h.judge b.toList = .accepted reply size)
      (sends : sendIfAny send reply s = .ok s') : Examines h send b s (.ok true, b.drop size, s')

theorem starts_start (h : Handshake) (send : RawSender σ) (s : σ) :
    h.Starts send s (h.start send s) := by
  unfold start
  split
  · next hopening => exact .failed hopening
  · next hopening =>
    split
    · next hsends => exact .refused hopening hsends
    · next hsends => exact .opened hopening hsends

theorem examines_examine (h : Handshake) (send : RawSender σ) (b : Buffer) (s : σ) :
    h.Examines send b s (h.examine send b s) := by
  unfold examine
  split
  · next hjudge => exact .pending hjudge
  · next hjudge => exact .rejected hjudge
  · next hjudge =>
    split
    · next hsends => exact .refused hjudge hsends
    · next hsends => exact .completed hjudge hsends

variable {h : Handshake} {send : RawSender σ} {b : Buffer} {s : σ}

theorem starts_of_eq {result : Except Fault Bool × σ} (hstart : h.start send s = result) :
    h.Starts send s result :=
  hstart ▸ h.starts_start send s

theorem examines_of_eq {result : Except Fault Bool × Buffer × σ}
    (hexamine : h.examine send b s = result) : h.Examines send b s result :=
  hexamine ▸ h.examines_examine send b s

/-- A sender that keeps all it is given, and never fails. -/
def record : RawSender (List Bytes) :=
  fun message sent => .ok (sent ++ [message])

end Courier.Handshake
