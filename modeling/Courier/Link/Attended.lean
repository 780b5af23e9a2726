import Courier.Link.Run

/-!
Courier.Link.Attended — a link whose owner has duties at its milestones.

Before the main task goes on past a milestone, the owner does its duties there, one after another.
The other tasks of the link, its peer and its users are not held up meanwhile.
-/

namespace Courier

/-- The milestone that the main task is at. -/
def Link.milestone? (l : Link) : Option Milestone :=
  match l.main with
  | .telling _ => some .handshaked
  | .notifying _ => some .closing
  | .tellingEnd => some .closed
  | _ => none

/-- A link, and how many of the duties at its milestone are done. -/
structure AttendedLink where
  link : Link
  done : Nat := 0

namespace AttendedLink

/-- The next duty at the milestone that the link is at. -/
def duty? (duties : Milestone → List δ) (a : AttendedLink) : Option δ :=
  match a.link.milestone? with
  | none => none
  | some m => (duties m)[a.done]?

/-- A duty is done; doing it may have changed the link. -/
def doneWith (link : Link) (a : AttendedLink) : AttendedLink :=
  { link, done := a.done + 1 }

/-- The link after a move, if the move is possible. Its owner starts it, and nobody but its own
tasks records the reason for its end or shuts its transport down. -/
def move? (duties : Milestone → List δ) (m : Move) (a : AttendedLink) : Option AttendedLink :=
  match m with
  | .start | .record _ | .shutDown _ => none
  | .main .work =>
      if (a.duty? duties).isSome then none else (a.link.move? m).map fun link => { link }
  | _ => (a.link.move? m).map fun link => { a with link }

end AttendedLink

end Courier
