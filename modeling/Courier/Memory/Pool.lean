import Courier.Memory.Block

/-!
Courier.Memory.Pool — blocks that are used again.

A block is in one of three places: idle in the pool, in the hands of one holder, or frozen behind
views that share it. A holder gives it back at once; a frozen block comes back when its last view
is released. Blocks are lent in the order in which they came back, and a new one is made only
when none is idle.
-/

namespace Courier

/-- A block that can no longer be written, and how many views of it there are. -/
structure FrozenBlock where
  block : Block
  views : Nat := 1
  deriving DecidableEq, Repr, Inhabited

/-- The idle blocks, the one that waited longest first; how many blocks were ever made; and the
frozen ones. -/
structure BlockPool where
  idle : List Block := []
  made : Nat := 0
  frozen : List FrozenBlock := []
  deriving DecidableEq, Repr, Inhabited

/-- A part of a view. An empty part refers to no block. -/
def Segment.slice (start stop : Nat) (s : Segment) : Except Misuse Segment :=
  if stop < start || s.bytes.length < stop then .error .slicedOutsideView
  else if start = stop then .ok { bytes := [] }
  else .ok { s with bytes := (s.bytes.take stop).drop start }

namespace BlockPool

/-! ## 1. Lending -/

/-- An empty block: the one that was idle longest, or a new one. -/
def rent (pool : BlockPool) : Block × BlockPool :=
  match pool.idle with
  | b :: rest => (b, { pool with idle := rest })
  | [] => ({ number := pool.made }, { pool with made := pool.made + 1 })

/-- Takes a block back from its holder. -/
def giveBack (b : Block) (pool : BlockPool) : BlockPool :=
  { pool with idle := pool.idle ++ [b.clear] }

/-! ## 2. Views -/

/-- Turns a block into a view of what is filled in. -/
def freeze (b : Block) (pool : BlockPool) : Segment × BlockPool :=
  ({ bytes := b.filled, block := some b.number },
    { pool with frozen := { block := b } :: pool.frozen })

/-- One more view of a frozen block. -/
def retain (number : Nat) (pool : BlockPool) : BlockPool :=
  { pool with frozen := pool.frozen.map fun f =>
      if f.block.number = number then { f with views := f.views + 1 } else f }

/-- One view of a frozen block less; with the last one the block is idle again. -/
def release (number : Nat) (pool : BlockPool) : BlockPool :=
  match pool.frozen.find? (·.block.number = number) with
  | none => pool
  | some f =>
      if f.views ≤ 1 then
        giveBack f.block { pool with frozen := pool.frozen.filter (·.block.number ≠ number) }
      else
        { pool with frozen := pool.frozen.map fun f =>
            if f.block.number = number then { f with views := f.views - 1 } else f }

/-- One more view for a segment that is copied. -/
def retainSegment (pool : BlockPool) (s : Segment) : BlockPool :=
  match s.block with
  | none => pool
  | some number => pool.retain number

/-- One view less for a segment that is dropped. -/
def releaseSegment (pool : BlockPool) (s : Segment) : BlockPool :=
  match s.block with
  | none => pool
  | some number => pool.release number

/-- One more view for each segment of a row. -/
def retainAll (ss : List Segment) (pool : BlockPool) : BlockPool :=
  ss.foldl retainSegment pool

/-- One view less for each segment of a row, from its front. -/
def releaseAll (ss : List Segment) (pool : BlockPool) : BlockPool :=
  ss.foldl releaseSegment pool

/-- How many blocks are idle. -/
def idleCount (pool : BlockPool) : Nat :=
  pool.idle.length

end BlockPool

end Courier
