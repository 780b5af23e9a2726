import Courier.Memory.Pool
import Courier.Signal

/-!
Courier.Pipe.Basic — what a pipe is made of.

A pipe leads bytes from one writer to one reader. Written bytes first fill the writer's current
block; a block that is full, or flushed, becomes a staged segment; flushing moves the staged
segments to the unread buffer, where the reader finds them. A flush waits while too much is
unread, a read waits while there is nothing new; each waits at a `Signal` that the other side
notifies. Every operation is a function on this state, and one that waits says so by returning
no outcome.
-/

namespace Courier

/-- When a flush waits: with `pause` or more bytes unread, until there are at most `resume`. A
pause threshold of zero never makes it wait. -/
structure Thresholds where
  pause : Nat := 0
  resume : Nat := 0
  deriving DecidableEq, Repr, Inhabited

/-- Pause at a size, resume at half of it. -/
def Thresholds.ofMaxSize (n : Nat) : Thresholds :=
  { pause := n, resume := n / 2 }

/-- How a flush ended. -/
structure FlushOutcome where
  /-- the reader has finished: nothing that is flushed is read any more -/
  completed : Bool := false
  canceled : Bool := false
  deriving DecidableEq, Repr, Inhabited

/-- How a read ended, with all bytes that are not consumed yet. -/
structure ReadOutcome where
  buffer : Buffer := {}
  /-- the writer has finished: `buffer` is all that is left -/
  completed : Bool := false
  canceled : Bool := false
  deriving DecidableEq, Repr, Inhabited

/-- The state of a pipe: what both sides share, then what the writer alone holds. -/
structure Pipe where
  thresholds : Thresholds := {}
  /-- flushed and not consumed -/
  unread : Buffer := {}
  /-- something was flushed since the last read -/
  unexamined : Bool := false
  writerCompleted : Bool := false
  readerCompleted : Bool := false
  readCanceled : Bool := false
  flushCanceled : Bool := false
  /-- where the reader waits for data -/
  dataSignal : Signal := {}
  /-- where the writer waits for space -/
  spaceSignal : Signal := {}
  /-- the block that is being filled -/
  current : Option Block := none
  /-- blocks that were filled since the last flush -/
  staged : List Segment := []
  /-- bytes written since the last flush -/
  unflushed : Nat := 0
  deriving DecidableEq, Repr, Inhabited

namespace Pipe

/-- A flush was begun and has not ended. -/
def flushPending (p : Pipe) : Bool :=
  p.spaceSignal.isPending

/-- A read was begun and has not ended. -/
def readPending (p : Pipe) : Bool :=
  p.dataSignal.isPending

/-- The bytes that were written and not consumed, oldest first: unread, then staged, then those
of the current block. -/
def pendingBytes (p : Pipe) : Bytes :=
  p.unread.toList ++ p.staged.flatMap (·.bytes) ++ (p.current.map (·.filled)).getD []

/-! ## Calls that either side may make -/

/-- Declares the writer finished. What it holds unflushed stays with it. -/
def completeWriterOutside (p : Pipe) : Pipe :=
  { p with writerCompleted := true, dataSignal := p.dataSignal.notify }

/-- Declares the reader finished and drops what is unread. -/
def completeReader (pool : BlockPool) (p : Pipe) : BlockPool × Pipe :=
  (pool.releaseAll p.unread.segments,
    { p with readerCompleted := true, unread := {}, spaceSignal := p.spaceSignal.notify })

/-- Makes the pending flush, or else the next one, return as canceled. -/
def cancelFlush (p : Pipe) : Pipe :=
  { p with flushCanceled := true, spaceSignal := p.spaceSignal.notify }

/-- Makes the pending read, or else the next one, return as canceled. -/
def cancelRead (p : Pipe) : Pipe :=
  { p with readCanceled := true, dataSignal := p.dataSignal.notify }

end Pipe

end Courier
