import Courier.Bytes

/-!
Courier.Encoding.Hex — bytes as text, two hexadecimal digits to a byte.
-/

namespace Courier.Hex

/-- The digit of a value below sixteen, lower case. -/
def digit (n : Nat) : Char :=
  if n < 10 then Char.ofNat (48 + n) else Char.ofNat (87 + n)

/-- The value of a digit, upper and lower case alike. -/
def value (c : Char) : Nat :=
  if '0' ≤ c && c ≤ '9' then c.toNat - 48
  else if 'a' ≤ c && c ≤ 'f' then c.toNat - 87
  else if 'A' ≤ c && c ≤ 'F' then c.toNat - 55
  else 0

/-- A byte string as text. -/
def encode (bs : Bytes) : String :=
  String.ofList (bs.flatMap fun b => [digit (b.toNat / 16), digit (b.toNat % 16)])

/-- The bytes that pairs of digits stand for, the last one first. -/
def decodeChars : List Char → (read : Bytes) → Bytes
  | a :: b :: rest, read => decodeChars rest (UInt8.ofNat (value a * 16 + value b) :: read)
  | _, read => read

/-- The byte string that a text of digits stands for. -/
def decode (s : String) : Bytes :=
  (decodeChars s.toList []).reverse

end Courier.Hex
