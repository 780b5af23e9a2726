import Courier.Link.Run

/-!
Courier.Session.Basic — a link with a peer, run to rest.

The peer has an outbox of bytes that it sends as the wire takes them. After each event from
outside, all tasks run until none of them has anything to do: a task that can go on is put in a
row, and the first task of the row goes on until it has to wait. Every step is one that
`Link.move?` allows, so what a session does is one of the things that its link can do.
-/

namespace Courier

/-- The tasks of a session. -/
inductive Task where
  /-- the peer, sending what is in its outbox -/
  | peer
  | receiver
  | sender
  | main
  | writer
  /-- the deferred handler that has waited longest -/
  | job
  deriving DecidableEq, Repr, Inhabited

/-- A link, the peer's end of its wire, and the tasks that are to go on. -/
structure Session where
  link : Link
  /-- what the peer has yet to send -/
  outbox : Bytes := []
  /-- the peer sends nothing more after that -/
  finishing : Bool := false
  /-- the peer has seen the end of what the link sends -/
  sawEnd : Bool := false
  /-- the tasks that can go on, the next one first -/
  row : List Task := []

namespace Session

/-- The order in which tasks that can go on at the same time are put in the row. -/
def allTasks : List Task := [.peer, .receiver, .sender, .main, .writer, .job]

/-- No bound on the bytes that are moved at once. -/
def unbounded : Nat := Nat.pow 2 62

/-- Applies a step of the link. -/
def onLink (step : Link → Option Link) (s : Session) : Option Session :=
  (step s.link).map fun link => { s with link }

/-- A step of the peer: it sends what the wire takes, and then ends. -/
def stepPeer (s : Session) : Option Session :=
  if s.link.wire.released || s.link.wire.arrivingEnded then none
  else if s.outbox.isEmpty then
    if s.finishing then s.onLink fun l => l.move? .endArriving else none
  else if s.link.wire.capacity ≤ s.link.wire.arriving.length then none
  else
    let sent := s.link.wire.arrive s.outbox
    (s.onLink fun l => l.move? (.arrive s.outbox)).map fun s => { s with outbox := sent.1 }

/-- The first step that a task has, work before stopping. -/
def workOrStop (move : Choice → Move) (l : Link) : Option Link :=
  (l.move? (move .work)).or (l.move? (move .stop))

/-- A step of a task, if it has one. -/
def stepTask (t : Task) (s : Session) : Option Session :=
  match t with
  | .peer => s.stepPeer
  | .receiver => s.onLink (workOrStop fun c => .receiver c unbounded)
  | .sender => s.onLink (workOrStop fun c => .sender c unbounded)
  | .main => s.onLink (workOrStop .main)
  | .writer => s.onLink (workOrStop .writer)
  | .job => s.onLink fun l => l.move? (.job 0)

/-- Puts the tasks in the row that can go on and are not in it. -/
def enroll (s : Session) : Session :=
  let fresh := allTasks.filter fun t => !s.row.contains t && (s.stepTask t).isSome
  { s with row := s.row ++ fresh }

/-- Runs the task that is first in the row, and then the others, until none can go on. -/
def settleWithin : (patience : Nat) → Session → Session
  | 0, s => s
  | patience + 1, s =>
      match s.row with
      | [] => s
      | t :: row =>
          match s.stepTask t with
          | none => settleWithin patience ({ s with row }.enroll)
          | some s => settleWithin patience s.enroll

/-- More steps than any session takes to come to rest. -/
def patience : Nat := Nat.pow 2 50

/-- Runs all tasks to rest. -/
def settle (s : Session) : Session :=
  settleWithin patience s.enroll

/-! ## Time -/

/-- The time at which the link has something to do although nothing happens. -/
def nextAlarm? (s : Session) : Option Nat :=
  match s.link.main with
  | .awaitingSender _ (some time) => some time
  | _ => none

/-- Lets time pass. An alarm that falls due is attended to at its time. -/
def elapse (milliseconds : Nat) (s : Session) : Session :=
  let clock := s.link.clock + milliseconds
  let s := match s.nextAlarm? with
    | some time =>
        if time ≤ clock then { s with link := { s.link with clock := time } }.settle else s
    | none => s
  { s with link := { s.link with clock } }.settle

/-- Runs all tasks to rest, which takes a moment. -/
def rest (s : Session) : Session :=
  s.settle.elapse 1

/-! ## The peer -/

/-- The peer takes what is there, and looks again, until it has taken `most` bytes or nothing is
there; `looks` bounds the number of looks. What it took, and the session after it. -/
def takeWithin : (looks most : Nat) → Session → Bytes × Session
  | 0, _, s => ([], s)
  | looks + 1, most, s =>
      if most = 0 || s.sawEnd || s.link.wire.peerGone then ([], s)
      else
        let taken := s.link.wire.depart most
        if taken.1.isEmpty then ([], { s with sawEnd := s.link.wire.departingEnded })
        else
          let s := { s with link := { s.link with wire := taken.2 } }.rest
          let more := takeWithin looks (most - taken.1.length) s
          (taken.1 ++ more.1, more.2)

/-- The peer takes at most `most` bytes. -/
def take (most : Nat) (s : Session) : Bytes × Session :=
  takeWithin patience most s

/-- The peer has bytes to send. -/
def peerSend (bs : Bytes) (s : Session) : Session :=
  { s with outbox := s.outbox ++ bs }

/-- The peer sends nothing more after what it has to send. -/
def peerFinish (s : Session) : Session :=
  { s with finishing := true }

/-- The peer lets go of its end. -/
def peerAbandon (s : Session) : Session :=
  { s with link := { s.link with wire := s.link.wire.abandon }, outbox := [] }

end Session

end Courier
