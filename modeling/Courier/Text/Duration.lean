import Courier.Text.Quoted

/-!
Courier.Text.Duration — lengths of time as text.

A duration is written in the largest of four units of which it has at least one whole, with as
many decimal places as it needs.
-/

namespace Courier

/-- A length of time. -/
structure Duration where
  nanoseconds : Nat := 0
  deriving DecidableEq, Repr, Inhabited

namespace Duration

/-- So many thousandths of a second. -/
def ofMilliseconds (n : Nat) : Duration := ⟨n * 1000000⟩

/-- The decimal places of `rest / unit` without zeros at the end, `places` of them at most. -/
def decimals (places rest : Nat) : String :=
  let ds := (toString rest).toList
  let filled := List.replicate (places - ds.length) '0' ++ ds
  String.ofList (filled.reverse.dropWhile (· == '0')).reverse

/-- A number of units, where a unit is divided into ten to the power of `places`. -/
def inUnit (places : Nat) (name : String) (n : Nat) : String :=
  let unit := Nat.pow 10 places
  let whole := toString (n / unit)
  if n % unit = 0 then whole ++ name else whole ++ "." ++ decimals places (n % unit) ++ name

/-- A duration as text. -/
def spelled (d : Duration) : String :=
  let n := d.nanoseconds
  if 1000000000 ≤ n then inUnit 9 "s" n
  else if 1000000 ≤ n then inUnit 6 "ms" n
  else if 1000 ≤ n then inUnit 3 "µs" n
  else inUnit 0 "ns" n

end Duration

end Courier
