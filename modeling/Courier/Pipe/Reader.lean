import Courier.Pipe.Basic

/-!
Courier.Pipe.Reader — the reading side of a pipe.

A read returns everything that is not consumed, and returns at all only if something is new: data
was flushed since the last read, the writer has finished, or the read was canceled.
-/

namespace Courier.Pipe

/-- Looks at the shared state once: a read ends, or has to wait. -/
def tryRead (p : Pipe) : Option ReadOutcome × Pipe :=
  if p.readCanceled then
    (some { buffer := p.unread, completed := p.writerCompleted, canceled := true },
      { p with readCanceled := false })
  else if p.unexamined || p.writerCompleted then
    (some { buffer := p.unread, completed := p.writerCompleted }, { p with unexamined := false })
  else (none, p)

/-- Begins a read. Without an outcome it waits; a stored permit could only make it look at the
same state again, so waiting uses it up. -/
def beginRead (p : Pipe) : Option ReadOutcome × Pipe :=
  match p.tryRead with
  | (some outcome, p) => (some outcome, p)
  | (none, p) => (none, { p with dataSignal := { waiter := .waiting } })

/-- Looks again after a pending read; it goes on only if its wait was ended. -/
def resumeRead (p : Pipe) : Option ReadOutcome × Pipe :=
  match p.dataSignal.waiter with
  | .woken => { p with dataSignal := p.dataSignal.resume }.beginRead
  | _ => (none, p)

/-- Gives up a pending read. -/
def abandonRead (p : Pipe) : Pipe :=
  { p with dataSignal := p.dataSignal.abandon }

/-- Consumes the first `n` unread bytes. -/
def consume (n : Nat) (pool : BlockPool) (p : Pipe) : Except Misuse (BlockPool × Pipe) :=
  if n = 0 then .ok (pool, p)
  else
    (p.unread.advance n).map fun rest =>
      (pool.releaseAll (p.unread.usedUp rest),
        { p with unread := rest, spaceSignal := p.spaceSignal.notify })

end Courier.Pipe
