import Courier.Bytes

/-!
Courier.Encoding.Base64 — bytes as text, six bits to a character.
-/

namespace Courier.Base64

/-- Which characters stand for the values 62 and 63, and whether the last group is filled up. -/
structure Style where
  plus : Char
  slash : Char
  padded : Bool

/-- The usual alphabet, filled up to groups of four. -/
def standard : Style := ⟨'+', '/', true⟩

/-- The alphabet for names in addresses, not filled up. -/
def urlSafe : Style := ⟨'-', '_', false⟩

/-- The character of a value below 64. -/
def digit (style : Style) (n : Nat) : Char :=
  if n < 26 then Char.ofNat (65 + n)
  else if n < 52 then Char.ofNat (97 + (n - 26))
  else if n < 62 then Char.ofNat (48 + (n - 52))
  else if n = 62 then style.plus
  else style.slash

/-- The characters of a byte string: four for three bytes, and two or three for what is left. -/
def chars (style : Style) : Bytes → List Char
  | a :: b :: c :: rest =>
      let n := a.toNat * 65536 + b.toNat * 256 + c.toNat
      digit style (n / 262144) :: digit style (n / 4096 % 64) :: digit style (n / 64 % 64) ::
        digit style (n % 64) :: chars style rest
  | [a, b] =>
      let n := a.toNat * 1024 + b.toNat * 4
      [digit style (n / 4096), digit style (n / 64 % 64), digit style (n % 64)] ++
        (if style.padded then ['='] else [])
  | [a] =>
      let n := a.toNat * 16
      [digit style (n / 64), digit style (n % 64)] ++ (if style.padded then ['=', '='] else [])
  | [] => []

/-- A byte string as text. -/
def encode (style : Style) (bs : Bytes) : String :=
  String.ofList (chars style bs)

end Courier.Base64
