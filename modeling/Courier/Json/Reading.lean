import Courier.Json.Number
import Courier.Json.Value

/-!
Courier.Json.Reading — values from payloads.

`Json.decode?` reads a payload as a value of a given shape, or not at all: a payload with
anything before or after the value but white space is refused, as is one whose lists and objects
are nested too deeply. A shape says which values are wanted; `Shape.any` takes all of them. What
a shape has no use for is skipped without being looked at closely.
-/

namespace Courier.Json

/-! ## 1. Shapes -/

/-- The kinds of values that a payload can be read as. -/
inductive Shape where
  | any
  | bool
  /-- a whole number of at most so much -/
  | natural (most : Nat)
  /-- a whole number of 64 bits with a sign -/
  | integer
  | float
  | text
  | unit
  | option (shape : Shape)
  | list (shape : Shape)
  /-- a list of two -/
  | pair (first second : Shape)
  /-- an object with any names -/
  | map (shape : Shape)
  /-- an object with exactly these names, or a list of their values -/
  | record (fields : List (String × Shape))
  deriving Inhabited

/-! ## 2. Texts -/

/-- The value of a hexadecimal digit. -/
def hexValue? (b : UInt8) : Option Nat :=
  if 48 ≤ b && b ≤ 57 then some (b.toNat - 48)
  else if 97 ≤ b && b ≤ 102 then some (b.toNat - 87)
  else if 65 ≤ b && b ≤ 70 then some (b.toNat - 55)
  else none

/-- The value of four hexadecimal digits. -/
def hexValue4? (a b c d : UInt8) : Option Nat := do
  return (← hexValue? a) * 4096 + (← hexValue? b) * 256 + (← hexValue? c) * 16 + (← hexValue? d)

/-- The byte that a letter after a backslash stands for. -/
def escaped? : UInt8 → Option UInt8
  | 34 => some 34
  | 92 => some 92
  | 47 => some 47
  | 98 => some 8
  | 102 => some 12
  | 110 => some 10
  | 114 => some 13
  | 116 => some 9
  | _ => none

/-- The bytes of a text up to its closing quotation mark, the last one first, and what follows. -/
def readTextBytes : Bytes → (read : Bytes) → Option (Bytes × Bytes)
  | [], _ => none
  | 34 :: rest, read => some (read, rest)
  | 92 :: 117 :: a :: b :: c :: d :: rest, read =>
      match hexValue4? a b c d with
      | none => none
      | some n =>
          if 0xdc00 ≤ n ∧ n < 0xe000 then none
          else if 0xd800 ≤ n ∧ n < 0xdc00 then
            match rest with
            | 92 :: 117 :: a :: b :: c :: d :: rest =>
                match hexValue4? a b c d with
                | none => none
                | some m =>
                    if 0xdc00 ≤ m ∧ m < 0xe000 then
                      let c := Char.ofNat (0x10000 + (n - 0xd800) * 0x400 + (m - 0xdc00))
                      readTextBytes rest ((Bytes.ofString c.toString).reverse ++ read)
                    else none
            | _ => none
          else readTextBytes rest ((Bytes.ofString (Char.ofNat n).toString).reverse ++ read)
  | 92 :: e :: rest, read =>
      match escaped? e with
      | none => none
      | some b => readTextBytes rest (b :: read)
  | b :: rest, read => if b < 32 then none else readTextBytes rest (b :: read)

/-- Reads a text after its opening quotation mark. -/
def readText (bs : Bytes) : Option (String × Bytes) := do
  let (bytes, rest) ← readTextBytes bs []
  return (← Bytes.toString? bytes.reverse, rest)

/-- Skips a text after its opening quotation mark. -/
def skipText : Bytes → Option Bytes
  | [] => none
  | 34 :: rest => some rest
  | 92 :: 117 :: a :: b :: c :: d :: rest =>
      if (hexValue4? a b c d).isSome then skipText rest else none
  | 92 :: e :: rest => if (escaped? e).isSome then skipText rest else none
  | b :: rest => if b < 32 then none else skipText rest

/-! ## 3. Punctuation -/

/-- White space between the parts of a value. -/
def isSpace (b : UInt8) : Bool :=
  b == 32 || b == 10 || b == 9 || b == 13

/-- Skips white space. -/
def skipSpace (bs : Bytes) : Bytes :=
  bs.dropWhile isSpace

/-- Reads a byte after white space. -/
def readMark (mark : UInt8) (bs : Bytes) : Option Bytes :=
  match skipSpace bs with
  | [] => none
  | b :: rest => if b == mark then some rest else none

/-- Reads a word. -/
def readWord (word : String) (bs : Bytes) : Option Bytes :=
  let w := Bytes.ofString word
  if w.isPrefixOf bs then some (bs.drop w.length) else none

/-- The value of a number. -/
def ofNumber : Number → Json
  | .natural n => .natural n
  | .negative n => .negative n
  | .float x => .float x

/-! ## 4. Values of any kind

Each of these functions uses up at least one byte before it calls itself, so the number of bytes
bounds the calls; that number is `fuel`. -/

mutual

/-- Reads a value with `depth` more levels of lists and objects allowed. -/
def readValue : (fuel depth : Nat) → Bytes → Option (Json × Bytes)
  | 0, _, _ => none
  | fuel + 1, depth, bs =>
      match skipSpace bs with
      | [] => none
      | 34 :: rest => (readText rest).map fun r => (.text r.1, r.2)
      | 110 :: rest => (readWord "ull" rest).map fun rest => (.null, rest)
      | 116 :: rest => (readWord "rue" rest).map fun rest => (.bool true, rest)
      | 102 :: rest => (readWord "alse" rest).map fun rest => (.bool false, rest)
      | 91 :: rest =>
          if depth ≤ 1 then none
          else
            match skipSpace rest with
            | 93 :: rest => some (.list [], rest)
            | rest => (readItems fuel (depth - 1) rest).map fun r => (.list r.1, r.2)
      | 123 :: rest =>
          if depth ≤ 1 then none
          else
            match skipSpace rest with
            | 125 :: rest => some (.object [], rest)
            | rest => (readFields fuel (depth - 1) rest []).map fun r => (.object r.1, r.2)
      | bs => (readNumber bs).map fun r => (ofNumber r.1, r.2)

/-- Reads the items of a list and its end. -/
def readItems : (fuel depth : Nat) → Bytes → Option (List Json × Bytes)
  | 0, _, _ => none
  | fuel + 1, depth, bs => do
      let (item, rest) ← readValue fuel depth bs
      match skipSpace rest with
      | 93 :: rest => some ([item], rest)
      | 44 :: rest =>
          let (items, rest) ← readItems fuel depth rest
          some (item :: items, rest)
      | _ => none

/-- Reads the fields of an object and its end, sorting them in; of two fields of one name the
later one counts. -/
def readFields : (fuel depth : Nat) → Bytes → List (String × Json) →
    Option (List (String × Json) × Bytes)
  | 0, _, _, _ => none
  | fuel + 1, depth, bs, read => do
      let (name, rest) ← readText (← readMark 34 bs)
      let (value, rest) ← readValue fuel depth (← readMark 58 rest)
      let read := insertField name value read
      match skipSpace rest with
      | 125 :: rest => some (read, rest)
      | 44 :: rest => readFields fuel depth rest read
      | _ => none

/-- Skips a value. -/
def skipValue : (fuel : Nat) → Bytes → Option Bytes
  | 0, _ => none
  | fuel + 1, bs =>
      match skipSpace bs with
      | [] => none
      | 34 :: rest => skipText rest
      | 110 :: rest => readWord "ull" rest
      | 116 :: rest => readWord "rue" rest
      | 102 :: rest => readWord "alse" rest
      | 91 :: rest =>
          match skipSpace rest with
          | 93 :: rest => some rest
          | rest => skipItems fuel rest
      | 123 :: rest =>
          match skipSpace rest with
          | 125 :: rest => some rest
          | rest => skipFields fuel rest
      | bs => skipNumber bs

/-- Skips the items of a list and its end. -/
def skipItems : (fuel : Nat) → Bytes → Option Bytes
  | 0, _ => none
  | fuel + 1, bs => do
      let rest ← skipValue fuel bs
      match skipSpace rest with
      | 93 :: rest => some rest
      | 44 :: rest => skipItems fuel rest
      | _ => none

/-- Skips the fields of an object and its end. -/
def skipFields : (fuel : Nat) → Bytes → Option Bytes
  | 0, _ => none
  | fuel + 1, bs => do
      let rest ← skipText (← readMark 34 bs)
      let rest ← skipValue fuel (← readMark 58 rest)
      match skipSpace rest with
      | 125 :: rest => some rest
      | 44 :: rest => skipFields fuel rest
      | _ => none

end

/-! ## 5. Values of a shape -/

/-- The fields that were read, in the order in which the shape names them. -/
def arrange (fields : List (String × Shape)) (read : List (String × Json)) :
    Option (List (String × Json)) :=
  fields.mapM fun f => (read.find? (·.1 == f.1)).map fun r => (f.1, r.2)

/-- A number as a floating-point one. -/
def floatOf : Number → Float
  | .natural n => (UInt64.ofNat n).toFloat
  | .negative n => -(UInt64.ofNat n).toFloat
  | .float x => x

mutual

/-- Reads a value of a shape with `depth` more levels of lists and objects allowed. -/
def readShape : (fuel depth : Nat) → Shape → Bytes → Option (Json × Bytes)
  | 0, _, _, _ => none
  | fuel + 1, depth, shape, bs =>
      let bs := skipSpace bs
      match shape with
      | .any => readValue fuel depth bs
      | .bool =>
          match bs with
          | 116 :: rest => (readWord "rue" rest).map fun rest => (.bool true, rest)
          | 102 :: rest => (readWord "alse" rest).map fun rest => (.bool false, rest)
          | _ => none
      | .natural most =>
          match readNumber bs with
          | some (.natural n, rest) => if n ≤ most then some (.natural n, rest) else none
          | _ => none
      | .integer =>
          match readNumber bs with
          | some (.natural n, rest) => if n < Nat.pow 2 63 then some (.natural n, rest) else none
          | some (.negative n, rest) => some (.negative n, rest)
          | _ => none
      | .float => (readNumber bs).map fun r => (.float (floatOf r.1), r.2)
      | .text => do
          let r ← readText (← readMark 34 bs)
          return (.text r.1, r.2)
      | .unit => (readWord "null" bs).map fun rest => (.null, rest)
      | .option shape =>
          match bs with
          | 110 :: rest => (readWord "ull" rest).map fun rest => (.null, rest)
          | bs => readShape fuel depth shape bs
      | .list shape => do
          let rest ← readMark 91 bs
          if depth ≤ 1 then none
          else
            match skipSpace rest with
            | 93 :: rest => some (.list [], rest)
            | rest => (readShapedItems fuel (depth - 1) shape rest).map fun r => (.list r.1, r.2)
      | .pair first second => do
          let rest ← readMark 91 bs
          if depth ≤ 1 then none
          else
            (readRow fuel (depth - 1) [("", first), ("", second)] rest).map fun r =>
              (.list (r.1.map (·.2)), r.2)
      | .map shape => do
          let rest ← readMark 123 bs
          if depth ≤ 1 then none
          else
            match skipSpace rest with
            | 125 :: rest => some (.object [], rest)
            | rest =>
                (readShapedFields fuel (depth - 1) shape rest []).map fun r => (.object r.1, r.2)
      | .record fields =>
          if depth ≤ 1 then none
          else
            match bs with
            | 91 :: rest =>
                (readRow fuel (depth - 1) fields rest).map fun r => (.object r.1, r.2)
            | 123 :: rest => do
                let (read, rest) ←
                  match skipSpace rest with
                  | 125 :: rest => some ([], rest)
                  | rest => readRecord fuel (depth - 1) fields rest []
                return (.object (← arrange fields read), rest)
            | _ => none

/-- Reads items of one shape and the end of their list. -/
def readShapedItems : (fuel depth : Nat) → Shape → Bytes → Option (List Json × Bytes)
  | 0, _, _, _ => none
  | fuel + 1, depth, shape, bs => do
      let (item, rest) ← readShape fuel depth shape bs
      match skipSpace rest with
      | 93 :: rest => some ([item], rest)
      | 44 :: rest =>
          let (items, rest) ← readShapedItems fuel depth shape rest
          some (item :: items, rest)
      | _ => none

/-- Reads one item for each of a row of shapes and the end of their list. -/
def readRow : (fuel depth : Nat) → List (String × Shape) → Bytes →
    Option (List (String × Json) × Bytes)
  | 0, _, _, _ => none
  | _, _, [], bs => (readMark 93 bs).map fun rest => ([], rest)
  | fuel + 1, depth, (name, shape) :: shapes, bs => do
      let (item, rest) ← readShape fuel depth shape bs
      if shapes.isEmpty then
        let rest ← readMark 93 rest
        some ([(name, item)], rest)
      else
        let (items, rest) ← readRow fuel depth shapes (← readMark 44 rest)
        some ((name, item) :: items, rest)

/-- Reads fields of one shape and the end of their object, sorting them in. -/
def readShapedFields : (fuel depth : Nat) → Shape → Bytes → List (String × Json) →
    Option (List (String × Json) × Bytes)
  | 0, _, _, _, _ => none
  | fuel + 1, depth, shape, bs, read => do
      let (name, rest) ← readText (← readMark 34 bs)
      let (value, rest) ← readShape fuel depth shape (← readMark 58 rest)
      let read := insertField name value read
      match skipSpace rest with
      | 125 :: rest => some (read, rest)
      | 44 :: rest => readShapedFields fuel depth shape rest read
      | _ => none

/-- Reads the fields of a record and the end of its object. A field of the record may come once;
other fields are skipped. -/
def readRecord : (fuel depth : Nat) → List (String × Shape) → Bytes → List (String × Json) →
    Option (List (String × Json) × Bytes)
  | 0, _, _, _, _ => none
  | fuel + 1, depth, fields, bs, read => do
      let (name, rest) ← readText (← readMark 34 bs)
      let rest ← readMark 58 rest
      let (read, rest) ←
        match fields.find? (·.1 == name) with
        | none => (skipValue fuel rest).map fun rest => (read, rest)
        | some f =>
            if read.any (·.1 == name) then none
            else (readShape fuel depth f.2 rest).map fun r => ((name, r.1) :: read, r.2)
      match skipSpace rest with
      | 125 :: rest => some (read, rest)
      | 44 :: rest => readRecord fuel depth fields rest read
      | _ => none

end

/-- Lists and objects may be nested one level less deep than this. -/
def maxDepth : Nat := 128

/-- The value of a shape that a payload holds, if it holds nothing else. -/
def decode? (shape : Shape) (payload : Bytes) : Option Json :=
  match readShape (2 * payload.length + 2) maxDepth shape payload with
  | none => none
  | some (value, rest) => if (skipSpace rest).isEmpty then some value else none

/-- The payload that holds a value. -/
def encode (value : Json) : Bytes :=
  Bytes.ofString value.render

end Courier.Json
