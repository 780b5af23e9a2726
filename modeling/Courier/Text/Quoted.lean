import Courier.Text.Unprintable

/-!
Courier.Text.Quoted — text between quotation marks, with every character visible.

A quotation mark and a backslash get a backslash in front, the usual control characters their
letter, and any other character without a picture its number in hexadecimal.
-/

namespace Courier.Text

/-- The digits of a number to a base of at most sixteen, lower case. -/
def digits (base n : Nat) : String :=
  String.ofList (Nat.toDigits base n)

/-- How a character is written between quotation marks. -/
def quoteChar (c : Char) : String :=
  match c with
  | '"' => "\\\""
  | '\\' => "\\\\"
  | '\n' => "\\n"
  | '\r' => "\\r"
  | '\t' => "\\t"
  | '\x00' => "\\0"
  | c => if isUnprintable c then "\\u\x7b" ++ digits 16 c.toNat ++ "\x7d" else c.toString

/-- A text between quotation marks. -/
def quote (s : String) : String :=
  "\"" ++ String.join (s.toList.map quoteChar) ++ "\""

/-- A value that may be missing, spelled so that both cases can be told apart. -/
def spellOption (spell : α → String) : Option α → String
  | none => "None"
  | some a => "Some(" ++ spell a ++ ")"

/-- A row of values in brackets. -/
def spellList (spell : α → String) (xs : List α) : String :=
  "[" ++ String.intercalate ", " (xs.map spell) ++ "]"

/-- A yes or a no. -/
def spellBool (b : Bool) : String :=
  if b then "true" else "false"

/-- A named group of named values. -/
def spellRecord (name : String) (fields : List (String × String)) : String :=
  name ++ " \x7b " ++ String.intercalate ", " (fields.map fun f => f.1 ++ ": " ++ f.2) ++ " \x7d"

end Courier.Text
