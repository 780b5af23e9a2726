/-!
Courier.Decimal.Shortest — the fewest digits that still mean the same number.

A binary floating-point number stands for every real number that rounds to it. Among the decimal
numbers in that interval those with the fewest digits are wanted, and of these the one nearest to
the number itself; of two equally near ones the even one. Everything is computed in whole numbers:
the number and the ends of its interval are brought to one denominator, and for each count of
digits only the two neighbours on the decimal grid need to be looked at.
-/

namespace Courier.Decimal

/-- A positive number `mantissa · 2 ^ exponent`; `narrow` if the next smaller one is only half as
far away as the next greater one. -/
structure Binary where
  mantissa : Nat
  exponent : Int
  narrow : Bool

/-- A positive number `digits · 10 ^ exponent`. -/
structure Digits where
  digits : Nat
  exponent : Int
  deriving Inhabited

/-- The interval of reals that round to a number, and the number itself, over one denominator;
the ends belong to it if `closed`. -/
structure Interval where
  low : Nat
  value : Nat
  high : Nat
  denominator : Nat
  closed : Bool

/-- The interval of a number: its ends lie halfway to its neighbours. -/
def Binary.interval (x : Binary) : Interval :=
  let scale := Nat.pow 2 (x.exponent - 2).toNat
  { low := (4 * x.mantissa - if x.narrow then 1 else 2) * scale
    value := 4 * x.mantissa * scale
    high := (4 * x.mantissa + 2) * scale
    denominator := Nat.pow 2 (2 - x.exponent).toNat
    closed := x.mantissa % 2 == 0 }

/-- The numerator of `n · 10 ^ e` over a denominator that takes up negative powers. -/
def gridPoint (i : Interval) (e : Int) (n : Nat) : Nat :=
  n * i.denominator * Nat.pow 10 e.toNat

/-- A numerator of the interval over the same denominator. -/
def gridValue (e : Int) (n : Nat) : Nat :=
  n * Nat.pow 10 (-e).toNat

/-- The multiple of `10 ^ e` lies in the interval. -/
def Interval.contains (i : Interval) (e : Int) (n : Nat) : Bool :=
  let p := gridPoint i e n
  let low := gridValue e i.low
  let high := gridValue e i.high
  if i.closed then low ≤ p && p ≤ high else low < p && p < high

/-- The multiple of `10 ^ e` in the interval that is nearest to the number, if there is one. -/
def Interval.nearest (i : Interval) (e : Int) : Option Digits :=
  let value := gridValue e i.value
  let below := value / gridPoint i e 1
  let above := below + 1
  match i.contains e below && below != 0, i.contains e above with
  | false, false => none
  | true, false => some ⟨below, e⟩
  | false, true => some ⟨above, e⟩
  | true, true =>
      let down := value - gridPoint i e below
      let up := gridPoint i e above - value
      if down < up || (down == up && below % 2 == 0) then some ⟨below, e⟩ else some ⟨above, e⟩

/-- The exponent of the leading digit of a positive fraction. -/
def leadingExponent (numerator denominator : Nat) : Int :=
  if denominator ≤ numerator then
    ((Nat.toDigits 10 (numerator / denominator)).length : Int) - 1
  else
    -- the fraction is below one: its inverse, rounded up, has as many digits
    let inverse := (denominator + numerator - 1) / numerator
    Int.neg (Nat.toDigits 10 (inverse - 1)).length

/-- Moves zeros at the end of the digits to the exponent, at most `limit` of them. -/
def Digits.trim : (limit : Nat) → Digits → Digits
  | 0, d => d
  | limit + 1, d =>
      if d.digits % 10 = 0 ∧ d.digits ≠ 0 then trim limit ⟨d.digits / 10, d.exponent + 1⟩ else d

/-- The shortest digits of a positive number: seventeen are always enough. -/
def shortest (x : Binary) : Digits :=
  let i := x.interval
  let lead := leadingExponent i.value i.denominator
  let found := (List.range 17).findSome? fun (n : Nat) => i.nearest (lead - (n : Int))
  (found.getD default).trim 20

/-- The parts of a finite floating-point number other than zero, without its sign. -/
def Binary.ofFloat (x : Float) : Binary :=
  let bits : Nat := x.toBits.toNat
  let fraction : Nat := bits % Nat.pow 2 52
  let field : Nat := bits / Nat.pow 2 52 % 2048
  if field = 0 then { mantissa := fraction, exponent := -1074, narrow := false }
  else
    { mantissa := Nat.pow 2 52 + fraction, exponent := (field : Int) - 1075,
      narrow := fraction == 0 && decide (1 < field) }

/-- The sign bit is set. -/
def isNegative (x : Float) : Bool :=
  decide (Nat.pow 2 63 ≤ x.toBits.toNat)

end Courier.Decimal
