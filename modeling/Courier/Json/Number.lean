import Courier.Bytes

/-!
Courier.Json.Number — reading numbers.

A number without fraction and exponent is whole and exact as long as it fits 64 bits. Any other
one becomes floating-point: its first digits, as many as fit 64 bits, are scaled by a power of
ten, in steps of at most 308. A number that grows beyond all floating-point ones is refused.
-/

namespace Courier.Json

/-- A number as it was read. -/
inductive Number where
  | natural (n : Nat)
  /-- the negative of `n`, which is not zero -/
  | negative (n : Nat)
  | float (x : Float)
  deriving Inhabited

/-- The byte is a decimal digit. -/
def isDigit (b : UInt8) : Bool :=
  48 ≤ b && b ≤ 57

/-- The value of a digit. -/
def digitValue (b : UInt8) : Nat :=
  b.toNat - 48

/-- The greatest number that fits 64 bits. -/
def maxWord : Nat := Nat.pow 2 64 - 1

/-- The digits that fit 64 bits, as a number, and how many digits are left over. -/
def wholePart : Bytes → (value : Nat) → Nat × Nat
  | [], value => (value, 0)
  | d :: rest, value =>
      let next := value * 10 + digitValue d
      if maxWord < next then (value, rest.length + 1) else wholePart rest next

/-- Digits after the point are added as long as they fit 64 bits; returns the number and how many
digits were added. -/
def fractionPart : Bytes → (value : Nat) → (count : Nat) → Nat × Nat
  | [], value, count => (value, count)
  | d :: rest, value, count =>
      let next := value * 10 + digitValue d
      if maxWord < next then (value, count) else fractionPart rest next (count + 1)

/-- Scales a floating-point number by a power of ten; `none` if it grows beyond all bounds. Each
step down takes 308 off the exponent, so `steps` of them are enough. -/
def scale : (steps : Nat) → Float → Int → Option Float
  | 0, x, _ => some x
  | steps + 1, x, e =>
      if e.natAbs ≤ 308 then
        let power := Float.ofScientific 1 false e.natAbs
        if 0 ≤ e then
          let y := x * power
          if y.isInf then none else some y
        else some (x / power)
      else if x == 0.0 then some x
      else if 0 ≤ e then none
      else scale steps (x / Float.ofScientific 1 false 308) (e + 308)

/-- The floating-point number with a sign, leading digits and an exponent. -/
def toFloat (negative : Bool) (significand : Nat) (exponent : Int) : Option Float :=
  (scale (exponent.natAbs / 308 + 2) (UInt64.ofNat significand).toFloat exponent).map fun x =>
    if negative then -x else x

/-- The greatest exponent that is computed with; a greater one means zero or too much. -/
def maxExponent : Nat := Nat.pow 2 31 - 1

/-- Reads an exponent, after its mark, and makes the number. -/
def readExponent (negative : Bool) (significand : Nat) (exponent : Int) (bs : Bytes) :
    Option (Number × Bytes) :=
  let (down, bs) : Bool × Bytes :=
    match bs with
    | 43 :: rest => (false, rest)
    | 45 :: rest => (true, rest)
    | bs => (false, bs)
  let ds := bs.takeWhile isDigit
  let rest := bs.dropWhile isDigit
  if ds.isEmpty then none
  else
    let size := ds.foldl (fun n d => min (n * 10 + digitValue d) (maxExponent + 1)) 0
    if maxExponent < size then
      if significand != 0 && !down then none
      else some (.float (if negative then -0.0 else 0.0), rest)
    else
      let exponent := if down then exponent - (size : Int) else exponent + (size : Int)
      (toFloat negative significand exponent).map fun x => (.float x, rest)

/-- Goes on after the digits: with an exponent, or the number is complete. -/
def readScale (negative : Bool) (significand : Nat) (exponent : Int) (bs : Bytes) :
    Option (Number × Bytes) :=
  match bs with
  | 101 :: rest | 69 :: rest => readExponent negative significand exponent rest
  | bs => (toFloat negative significand exponent).map fun x => (.float x, bs)

/-- Reads a fraction, after the point, and makes the number. -/
def readFraction (negative : Bool) (significand : Nat) (dropped : Nat) (bs : Bytes) :
    Option (Number × Bytes) :=
  let ds := bs.takeWhile isDigit
  if ds.isEmpty then none
  else
    let part := fractionPart ds significand 0
    readScale negative part.1 ((dropped : Int) - (part.2 : Int)) (bs.dropWhile isDigit)

/-- The number of digits alone, with its sign. -/
def wholeNumber (negative : Bool) (value : Nat) : Number :=
  if !negative then .natural value
  else if value = 0 || Nat.pow 2 63 < value then .float (-(UInt64.ofNat value).toFloat)
  else .negative value

/-- Reads a number without its sign. -/
def readUnsigned (negative : Bool) (bs : Bytes) : Option (Number × Bytes) :=
  let ds := bs.takeWhile isDigit
  let rest := bs.dropWhile isDigit
  match ds with
  | [] => none
  | 48 :: _ :: _ => none
  | _ =>
      let whole := wholePart ds 0
      match rest with
      | 46 :: rest => readFraction negative whole.1 whole.2 rest
      | 101 :: rest | 69 :: rest => readExponent negative whole.1 (whole.2 : Int) rest
      | _ =>
          if whole.2 = 0 then some (wholeNumber negative whole.1, rest)
          else (toFloat negative whole.1 (whole.2 : Int)).map fun x => (.float x, rest)

/-- Reads a number. -/
def readNumber (bs : Bytes) : Option (Number × Bytes) :=
  match bs with
  | 45 :: rest => readUnsigned true rest
  | bs => readUnsigned false bs

/-- Skips digits, of which there must be one. -/
def skipDigits (bs : Bytes) : Option Bytes :=
  match bs with
  | [] => none
  | b :: rest => if isDigit b then some (rest.dropWhile isDigit) else none

/-- Skips a number, whatever its size. -/
def skipNumber (bs : Bytes) : Option Bytes := do
  let bs := match bs with
    | 45 :: rest => rest
    | bs => bs
  let rest ← match bs with
    | 48 :: rest => match rest with
      | b :: _ => if isDigit b then none else some rest
      | [] => some []
    | bs => skipDigits bs
  let rest ← match rest with
    | 46 :: rest => skipDigits rest
    | rest => some rest
  match rest with
  | 101 :: rest | 69 :: rest =>
      match rest with
      | 43 :: rest | 45 :: rest => skipDigits rest
      | rest => skipDigits rest
  | rest => some rest

end Courier.Json
