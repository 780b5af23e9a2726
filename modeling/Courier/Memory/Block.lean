import Courier.Buffer

/-!
Courier.Memory.Block — a block of memory that is filled from its front.

A block has room for `Block.capacity` bytes. Its memory outlives a use: what an earlier use left
behind the filled part is still there, and is seen when bytes are declared filled without being
written. Memory that was never written holds zeros.
-/

namespace Courier

/-- A block: its number, the bytes filled in, and what its memory holds after them. Beyond
`stale` the memory holds zeros. -/
structure Block where
  number : Nat
  filled : Bytes := []
  stale : Bytes := []
  deriving DecidableEq, Repr, Inhabited

namespace Block

/-- How many bytes a block has room for. -/
def capacity : Nat := 4096

/-- How many bytes are filled in. -/
def size (b : Block) : Nat :=
  b.filled.length

/-- How many more bytes there is room for. -/
def room (b : Block) : Nat :=
  capacity - b.filled.length

/-- The first `n` bytes of the memory after the filled part. -/
def spare (n : Nat) (b : Block) : Bytes :=
  let left := b.stale.take n
  left ++ List.replicate (n - left.length) 0

/-- Writes to the start of the unfilled part, as far as there is room, without filling it. -/
def writeSpare (bs : Bytes) (b : Block) : Block :=
  let fitting := bs.take b.room
  { b with stale := fitting ++ b.stale.drop fitting.length }

/-- Declares the next `n` bytes of the memory filled. -/
def advance (n : Nat) (b : Block) : Except Misuse Block :=
  if capacity < b.size + n then .error .advancedPastBlock
  else .ok { b with filled := b.filled ++ b.spare n, stale := b.stale.drop n }

/-- Fills in bytes, for which there must be room. -/
def put (bs : Bytes) (b : Block) : Except Misuse Block :=
  if b.room < bs.length then .error .wrotePastBlock
  else .ok { b with filled := b.filled ++ bs, stale := b.stale.drop bs.length }

/-- Nothing is filled in any more; the memory keeps its content. -/
def clear (b : Block) : Block :=
  { b with filled := [], stale := b.filled ++ b.stale }

end Block

end Courier
