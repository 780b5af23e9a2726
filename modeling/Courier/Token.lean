import Courier.Encoding.Base64

/-!
Courier.Token — names made of random bytes.

A connection's id is drawn again until it is one that is not taken. Random bytes come from a
source that is a sequence of bytes with a position in it.
-/

namespace Courier

/-- Random bytes, and how many of them were handed out. -/
structure RandomSource where
  byte : Nat → UInt8
  position : Nat := 0
  deriving Inhabited

namespace RandomSource

/-- The next `n` bytes. -/
def draw (n : Nat) (source : RandomSource) : Bytes × RandomSource :=
  ((List.range n).map fun i => source.byte (source.position + i),
    { source with position := source.position + n })

end RandomSource

namespace Token

/-- How many random bytes the id of a connection is made of. -/
def idSize : Nat := 9

/-- How many random bytes the key of an upgrade request is made of. -/
def keySize : Nat := 16

/-- The id that random bytes stand for. -/
def idOf (bs : Bytes) : String :=
  Base64.encode Base64.urlSafe bs

/-- The key that random bytes stand for. -/
def keyOf (bs : Bytes) : String :=
  Base64.encode Base64.standard bs

/-- These are the bytes of a key: sixteen bytes in twenty-two digits and two fillers, so that the
last digit stands for two bits only. -/
def isKey (bs : Bytes) : Bool :=
  let digits := bs.take 22
  let isDigit (b : UInt8) : Bool := (Char.ofNat b.toNat).isAlphanum || b == 43 || b == 47
  bs.length == 24 && digits.all isDigit && bs.drop 22 == Bytes.ofString "==" &&
    digits.getLast?.any (Bytes.ofString "AQgw").contains

/-- A key for an upgrade request. -/
def freshKey (source : RandomSource) : String × RandomSource :=
  let drawn := source.draw keySize
  (keyOf drawn.1, drawn.2)

/-- So many keys, one after another. -/
def freshKeys : Nat → RandomSource → List String
  | 0, _ => []
  | n + 1, source =>
      let made := freshKey source
      made.1 :: freshKeys n made.2

/-- What came of a search for an id: the id, if one was found; all ids that were looked at, in
order; and the source after it. -/
structure Search where
  found : Option String
  asked : List String := []
  source : RandomSource

/-- Draws ids until one is not taken, at most `attempts` times. -/
def freshId (isTaken : String → Bool) : (attempts : Nat) → RandomSource → Search
  | 0, source => { found := none, source }
  | attempts + 1, source =>
      let drawn := source.draw idSize
      let id := idOf drawn.1
      if isTaken id then
        let more := freshId isTaken attempts drawn.2
        { more with asked := id :: more.asked }
      else { found := some id, asked := [id], source := drawn.2 }

/-- So many searches, one after another, for ids that are not taken. Finding an id does not make
it taken. -/
def freshIds (isTaken : String → Bool) (attempts : Nat) : Nat → RandomSource → List Search
  | 0, _ => []
  | n + 1, source =>
      let search := freshId isTaken attempts source
      search :: freshIds isTaken attempts n search.source

/-- An id that was found was not taken. -/
theorem not_isTaken_of_freshId {isTaken : String → Bool} {attempts : Nat} {source : RandomSource}
    {id : String} (h : (freshId isTaken attempts source).found = some id) : isTaken id = false := by
  induction attempts generalizing source with
  | zero => simp [freshId] at h
  | succ attempts ih =>
      simp only [freshId] at h
      split at h
      · exact ih h
      · simp_all

end Token

end Courier
