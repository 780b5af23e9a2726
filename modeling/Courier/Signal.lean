/-!
Courier.Signal — how one side of a pipe wakes the other.

A signal has at most one waiter. Notifying wakes the waiter; with no waiter to wake it leaves a
permit, of which at most one is kept, and which the next wait uses up at once. A waiter that was
woken and gives up instead of going on passes its wake-up on as a permit.
-/

namespace Courier

/-- The waiter of a signal. -/
inductive Waiter where
  | absent
  | waiting
  | woken
  deriving DecidableEq, Repr, Inhabited

/-- A stored permit and the state of the waiter. -/
structure Signal where
  permit : Bool := false
  waiter : Waiter := .absent
  deriving DecidableEq, Repr, Inhabited

namespace Signal

/-- Wakes the waiter, or leaves a permit. -/
def notify (s : Signal) : Signal :=
  match s.waiter with
  | .waiting => { s with waiter := .woken }
  | _ => { s with permit := true }

/-- The waiter goes on: its wake-up is used up. -/
def resume (s : Signal) : Signal :=
  { s with waiter := .absent }

/-- Waits, unless a permit is stored; `true` if it was. -/
def wait (s : Signal) : Bool × Signal :=
  if s.permit then (true, {}) else (false, { permit := false, waiter := .waiting })

/-- The waiter gives up. -/
def abandon (s : Signal) : Signal :=
  match s.waiter with
  | .absent => s
  | .waiting => { s with waiter := .absent }
  | .woken => { permit := true, waiter := .absent }

/-- Someone waits, woken or not. -/
def isPending (s : Signal) : Bool :=
  s.waiter != .absent

end Signal

end Courier
