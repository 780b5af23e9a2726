import Courier.Pipe.Basic

/-!
Courier.Pipe.Writer — the writing side of a pipe.

Memory comes from a pool of blocks in pieces of at most one block. A flush has two parts, each of
which looks at the shared state once: `publish` hands over what was written, `checkSpace` decides
whether the flush may end. `beginFlush` and `resumeFlush` are the flush as a whole, up to the
point where it has to wait.
-/

namespace Courier.Pipe

/-! ## 1. Writing -/

/-- Turns the current block into a staged segment if anything is filled in. -/
def stageCurrent (pool : BlockPool) (p : Pipe) : BlockPool × Pipe :=
  match p.current with
  | none => (pool, p)
  | some b =>
      if b.filled.isEmpty then (pool, p)
      else
        let frozen := pool.freeze b
        (frozen.2, { p with current := none, staged := p.staged ++ [frozen.1] })

/-- The room of the current block; none without one. -/
def room (p : Pipe) : Nat :=
  match p.current with
  | none => 0
  | some b => b.room

/-- Provides memory for at least `atLeast` bytes, though never more than a block. -/
def ensureMemory (atLeast : Nat) (pool : BlockPool) (p : Pipe) : BlockPool × Pipe :=
  let wanted := max 1 (min atLeast Block.capacity)
  if wanted ≤ p.room then (pool, p)
  else
    let staged := p.stageCurrent pool
    let rented := staged.1.rent
    (rented.2, { staged.2 with current := some rented.1 })

/-- Copies bytes to the memory provided, as far as they fit. -/
def fillMemory (bs : Bytes) (p : Pipe) : Pipe :=
  { p with current := p.current.map (·.writeSpare bs) }

/-- Declares `n` bytes of the memory provided written. -/
def advance (n : Nat) (p : Pipe) : Except Misuse Pipe :=
  if n = 0 then .ok p
  else
    match p.current with
    | none => .error .advancedWithoutMemory
    | some b =>
        (b.advance n).map fun b => { p with current := some b, unflushed := p.unflushed + n }

/-- Writes bytes, block by block. -/
def write (bs : Bytes) (pool : BlockPool) (p : Pipe) : BlockPool × Pipe :=
  match bs with
  | [] => (pool, p)
  | b :: rest =>
      let ready := p.ensureMemory 1 pool
      -- memory was provided for one byte at least
      let more := ready.2.room - 1
      let piece := b :: rest.take more
      let written := { ready.2 with
        current := ready.2.current.map fun block =>
          { block with filled := block.filled ++ piece, stale := block.stale.drop piece.length },
        unflushed := ready.2.unflushed + piece.length }
      write (rest.drop more) ready.1 written
termination_by bs.length
decreasing_by simp only [List.length_drop, List.length_cons]; omega

/-! ## 2. Flushing -/

/-- Adds segments to the unread buffer. -/
def appendUnread (ss : List Segment) (p : Pipe) : Pipe :=
  { p with unread := ss.foldl (fun b s => b.push s) p.unread }

/-- The first part of a flush: what was written becomes visible to the reader. If the reader has
finished it is dropped instead, and the flush ends. -/
def publish (pool : BlockPool) (p : Pipe) : Option FlushOutcome × BlockPool × Pipe :=
  let staged := p.stageCurrent pool
  let p := staged.2
  if p.readerCompleted then
    (some { completed := true }, staged.1.releaseAll p.staged,
      { p with staged := [], unflushed := 0 })
  else
    let q := { p.appendUnread p.staged with staged := [] }
    if p.unflushed = 0 then (none, staged.1, q)
    else
      (none, staged.1,
        { q with unexamined := true, unflushed := 0, dataSignal := q.dataSignal.notify })

/-- Whether a flush may end with so much unread; once it has waited, the resume threshold
counts. -/
def mayProceed (waited : Bool) (p : Pipe) : Bool :=
  p.thresholds.pause == 0 ||
    (if waited then p.unread.size ≤ p.thresholds.resume else p.unread.size < p.thresholds.pause)

/-- The second part of a flush: it ends, or has to wait. -/
def checkSpace (waited : Bool) (p : Pipe) : Option FlushOutcome × Pipe :=
  if p.readerCompleted then (some { completed := true }, p)
  else if p.flushCanceled then (some { canceled := true }, { p with flushCanceled := false })
  else if p.mayProceed waited then (some {}, p)
  else (none, p)

/-- Waits for space. A stored permit makes it look once more before it does. -/
def waitForSpace (p : Pipe) : Option FlushOutcome × Pipe :=
  match p.spaceSignal.wait with
  | (false, signal) => (none, { p with spaceSignal := signal })
  | (true, signal) =>
      match { p with spaceSignal := signal }.checkSpace true with
      | (some outcome, p) => (some outcome, p)
      | (none, p) => (none, { p with spaceSignal := p.spaceSignal.wait.2 })

/-- Begins a flush. Without an outcome it waits. -/
def beginFlush (pool : BlockPool) (p : Pipe) : Option FlushOutcome × BlockPool × Pipe :=
  match p.publish pool with
  | (some outcome, pool, p) => (some outcome, pool, p)
  | (none, pool, p) =>
      match p.checkSpace false with
      | (some outcome, p) => (some outcome, pool, p)
      | (none, p) =>
          let waited := p.waitForSpace
          (waited.1, pool, waited.2)

/-- Looks again after a pending flush; it goes on only if its wait was ended. -/
def resumeFlush (p : Pipe) : Option FlushOutcome × Pipe :=
  match p.spaceSignal.waiter with
  | .woken =>
      match { p with spaceSignal := p.spaceSignal.resume }.checkSpace true with
      | (some outcome, p) => (some outcome, p)
      | (none, p) => p.waitForSpace
  | _ => (none, p)

/-- Gives up a pending flush. What it made visible stays visible. -/
def abandonFlush (p : Pipe) : Pipe :=
  { p with spaceSignal := p.spaceSignal.abandon }

/-! ## 3. Finishing -/

/-- Finishes writing. What was written becomes readable, unless the reader has finished. -/
def completeWriter (pool : BlockPool) (p : Pipe) : BlockPool × Pipe :=
  let staged := p.stageCurrent pool
  let p := staged.2
  let finished := { p with
    staged := [], unflushed := 0, writerCompleted := true, dataSignal := p.dataSignal.notify }
  if p.readerCompleted then (staged.1.releaseAll p.staged, finished)
  else (staged.1, finished.appendUnread p.staged)

end Courier.Pipe
