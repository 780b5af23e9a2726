/-!
Courier.Misuse — calls that break an operation's contract.

Such a call is a mistake of the program that makes it, not of the peer; it has no result, and
nothing after it counts. Each kind is a constructor, and `Misuse.message?` has the wording of
those that have one.
-/

namespace Courier

/-- What a caller did wrong. -/
inductive Misuse where
  /-- more bytes of a buffer were given back than it holds -/
  | advancedPastBuffer
  /-- more bytes of a buffer were asked for in one piece than it holds -/
  | copiedPastBuffer
  /-- a number or a run of bytes was read that the buffer does not hold -/
  | readPastBuffer
  /-- an empty byte string was searched for -/
  | emptyNeedle
  /-- more bytes of a block were declared written than it has room for -/
  | advancedPastBlock
  /-- more bytes were written to a block than it has room for -/
  | wrotePastBlock
  /-- a part of a view was asked for that reaches beyond it -/
  | slicedOutsideView
  /-- bytes were declared written without memory to write to -/
  | advancedWithoutMemory
  /-- a feed without room for a single event, or a queue without room for a single item -/
  | zeroCapacity
  /-- a number was stored in a field that is too narrow for it -/
  | outOfRange
  deriving DecidableEq, Repr, Inhabited

/-- The wording of a misuse, where it has one. -/
def Misuse.message? : Misuse → Option String
  | .advancedPastBuffer => some "advancing beyond the end of the buffer"
  | .copiedPastBuffer => some "copying beyond the end of the buffer"
  | .readPastBuffer => none
  | .emptyNeedle => none
  | .advancedPastBlock => some "advancing beyond the block's capacity"
  | .wrotePastBlock => none
  | .slicedOutsideView => none
  | .advancedWithoutMemory => some "advancing a pipe writer without memory"
  | .zeroCapacity => some "capacity must be non-zero"
  | .outOfRange =>
      some ("this is a bug: application logic should have ensured the value range: " ++
        "TryFromIntError(PosOverflow)")

end Courier
