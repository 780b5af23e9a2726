import Courier.Text.Quoted
import Courier.Text.Split

/-!
Courier.Net.Address — numeric addresses and their text.

An address of four bytes is written as four decimal numbers, one of eight words as hexadecimal
numbers in which one run of zeros may be left out. `IpAddress.ofString?` reads every such text,
`IpAddress.text` writes the shortest one.
-/

namespace Courier

/-- An address of either length. -/
inductive IpAddress where
  /-- four bytes -/
  | short (bytes : List Nat)
  /-- eight words of sixteen bits -/
  | long (words : List Nat)
  deriving DecidableEq, Repr, Inhabited

namespace IpAddress

/-! ## 1. Numbers -/

/-- The value of a digit to a base of at most sixteen, upper and lower case alike. -/
def digitValue? (base : Nat) (c : Char) : Option Nat :=
  let value :=
    if '0' ≤ c ∧ c ≤ '9' then some (c.toNat - 48)
    else if 'a' ≤ c ∧ c ≤ 'f' then some (c.toNat - 87)
    else if 'A' ≤ c ∧ c ≤ 'F' then some (c.toNat - 55)
    else none
  value.filter (· < base)

/-- The value of a row of one to `most` digits. -/
def number? (base most : Nat) (cs : List Char) : Option Nat :=
  if cs.isEmpty || most < cs.length then none
  else (cs.mapM (digitValue? base)).map fun ds => ds.foldl (fun n d => n * base + d) 0

/-! ## 2. Reading -/

/-- A byte in decimal, without zeros in front. -/
def byte? (cs : List Char) : Option Nat :=
  if 1 < cs.length && cs.head? == some '0' then none
  else (number? 10 3 cs).filter (· < 256)

/-- Four bytes with points between them. -/
def readShort (cs : List Char) : Option (List Nat) :=
  let pieces := Text.splitAt '.' cs
  if pieces.length = 4 then pieces.mapM byte? else none

/-- The two words that four bytes make. -/
def pairWords : List Nat → List Nat
  | a :: b :: rest => (a * 256 + b) :: pairWords rest
  | _ => []

/-- Words in hexadecimal; the last piece may be a short address, which stands for two of them. -/
def readPieces (shortAtEnd : Bool) : List (List Char) → Option (List Nat)
  | [] => some []
  | [piece] =>
      match number? 16 4 piece with
      | some n => some [n]
      | none => if shortAtEnd then (readShort piece).map pairWords else none
  | piece :: pieces => do
      let n ← number? 16 4 piece
      let rest ← readPieces shortAtEnd pieces
      return n :: rest

/-- Words with colons between them; none in an empty text. -/
def readWords (shortAtEnd : Bool) (cs : List Char) : Option (List Nat) :=
  if cs.isEmpty then some [] else readPieces shortAtEnd (Text.splitAt ':' cs)

/-- Eight words, of which a run of zeros may be left out. -/
def readLong (cs : List Char) : Option (List Nat) :=
  match Text.splitAtPair ':' cs with
  | none => (readWords true cs).filter (·.length = 8)
  | some (front, back) => do
      let front ← readWords false front
      let back ← readWords true back
      if 7 < front.length + back.length then none
      else some (front ++ List.replicate (8 - front.length - back.length) 0 ++ back)

/-- The address that a text stands for. -/
def ofString? (s : String) : Option IpAddress :=
  match readShort s.toList with
  | some bytes => some (.short bytes)
  | none => (readLong s.toList).map .long

/-! ## 3. Writing -/

/-- Four bytes as text. -/
def shortText (bytes : List Nat) : String :=
  String.intercalate "." (bytes.map toString)

/-- Words as text. -/
def wordsText (words : List Nat) : String :=
  String.intercalate ":" (words.map (Text.digits 16))

/-- How many zeros a row begins with. -/
def zerosAt (words : List Nat) : Nat :=
  (words.takeWhile (· == 0)).length

/-- The start and the length of the longest run of zeros, the first of several. -/
def longestZeros (words : List Nat) : Nat × Nat :=
  (List.range words.length).foldl
    (fun best start =>
      let n := zerosAt (words.drop start)
      if best.2 < n then (start, n) else best)
    (0, 0)

/-- Eight words as text. A short address that is made long shows as such. -/
def longText (words : List Nat) : String :=
  match words with
  | [0, 0, 0, 0, 0, 0xffff, a, b] => "::ffff:" ++ shortText [a / 256, a % 256, b / 256, b % 256]
  | words =>
      let run := longestZeros words
      if run.2 < 2 then wordsText words
      else wordsText (words.take run.1) ++ "::" ++ wordsText (words.drop (run.1 + run.2))

/-- An address as text. -/
def text : IpAddress → String
  | .short bytes => shortText bytes
  | .long words => longText words

end IpAddress

/-- An address and a port. -/
structure SocketAddress where
  ip : IpAddress
  port : Nat
  deriving DecidableEq, Repr, Inhabited

/-- An address and a port as text; a long address stands in brackets. -/
def SocketAddress.text (a : SocketAddress) : String :=
  match a.ip with
  | .short _ => a.ip.text ++ ":" ++ toString a.port
  | .long _ => "[" ++ a.ip.text ++ "]:" ++ toString a.port

end Courier
