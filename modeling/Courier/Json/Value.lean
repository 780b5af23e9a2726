import Courier.Decimal.Shortest
import Courier.Text.Quoted

/-!
Courier.Json.Value — values as payloads carry them, and their text.

Whole numbers are kept exact; all other numbers are floating-point ones and always written with a
point or an exponent. The fields of an object are written in the order in which the value has
them.
-/

namespace Courier

/-- A value. -/
inductive Json where
  | null
  | bool (b : Bool)
  | natural (n : Nat)
  /-- the negative of `n` -/
  | negative (n : Nat)
  | float (x : Float)
  | text (s : String)
  | list (items : List Json)
  | object (fields : List (String × Json))
  deriving Inhabited

namespace Json

/-! ## 1. Numbers and texts -/

/-- Digits with a point where their exponent asks for it: with at most sixteen places before the
point, or at most four zeros behind it, they are written out; beyond that they have an exponent,
which always has a sign. -/
def digitsText (d : Decimal.Digits) : String :=
  let ds := toString d.digits
  let n := ds.length
  let point : Int := n + d.exponent
  if 0 ≤ d.exponent ∧ point ≤ 16 then
    ds ++ String.ofList (List.replicate d.exponent.toNat '0') ++ ".0"
  else if 0 < point ∧ point ≤ 16 then
    String.ofList (ds.toList.take point.toNat) ++ "." ++ String.ofList (ds.toList.drop point.toNat)
  else if -5 < point ∧ point ≤ 0 then
    "0." ++ String.ofList (List.replicate (-point).toNat '0') ++ ds
  else
    let front := String.ofList (ds.toList.take 1)
    let back := String.ofList (ds.toList.drop 1)
    let mantissa := if n = 1 then front else front ++ "." ++ back
    mantissa ++ (if 0 < point then "e+" else "e") ++ toString (point - 1)

/-- The text of a floating-point number: the fewest digits that read back as it. A number that is
not finite has none, and is written as null. -/
def floatText (x : Float) : String :=
  let sign := if Decimal.isNegative x then "-" else ""
  if !x.isFinite then "null"
  else if x == 0.0 then sign ++ "0.0"
  else sign ++ digitsText (Decimal.shortest (.ofFloat x))

/-- A number of four hexadecimal digits. -/
def hex4 (n : Nat) : String :=
  let ds := Text.digits 16 n
  String.ofList (List.replicate (4 - ds.length) '0') ++ ds

/-- How a character is written inside a text. -/
def charText (c : Char) : String :=
  match c with
  | '"' => "\\\""
  | '\\' => "\\\\"
  | '\n' => "\\n"
  | '\r' => "\\r"
  | '\t' => "\\t"
  | '\x08' => "\\b"
  | '\x0c' => "\\f"
  | c => if c.val < 0x20 then "\\u" ++ hex4 c.toNat else c.toString

/-- The text of a text. -/
def stringText (s : String) : String :=
  "\"" ++ (s.toList.foldl (fun t c => t ++ charText c) "") ++ "\""

/-! ## 2. Values -/

mutual

/-- The text of a value, without spaces. -/
def render : Json → String
  | .null => "null"
  | .bool b => if b then "true" else "false"
  | .natural n => toString n
  | .negative n => "-" ++ toString n
  | .float x => floatText x
  | .text s => stringText s
  | .list items => "[" ++ renderItems items ++ "]"
  | .object fields => "\x7b" ++ renderFields fields ++ "\x7d"

/-- The texts of values with commas between them. -/
def renderItems : List Json → String
  | [] => ""
  | [item] => item.render
  | item :: rest => item.render ++ "," ++ renderItems rest

/-- The texts of fields with commas between them. -/
def renderFields : List (String × Json) → String
  | [] => ""
  | [(name, value)] => stringText name ++ ":" ++ value.render
  | (name, value) :: rest => stringText name ++ ":" ++ value.render ++ "," ++ renderFields rest

end

/-! ## 3. Fields -/

/-- Puts a field where its name belongs in the order of names; a field of that name is
replaced. -/
def insertField (name : String) (value : Json) : List (String × Json) → List (String × Json)
  | [] => [(name, value)]
  | f :: rest =>
      if name = f.1 then (name, value) :: rest
      else if name < f.1 then (name, value) :: f :: rest
      else f :: insertField name value rest

/-- The value of a field of an object. -/
def field? (name : String) : Json → Option Json
  | .object fields => (fields.find? (·.1 == name)).map (·.2)
  | _ => none

end Json

end Courier
