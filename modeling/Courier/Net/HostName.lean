import Courier.Net.Address

/-!
Courier.Net.HostName — names that a server's certificate can be issued for.

Such a name is a numeric address or a row of labels with points between them, of which the last
is not a number.
-/

namespace Courier.HostName

/-- A letter, a digit, a low line or a hyphen. -/
def isLabelChar (c : Char) : Bool :=
  c.isAlphanum || c == '_' || c == '-'

/-- A label: at most 63 characters, with no hyphen at either end. -/
def isLabel (cs : List Char) : Bool :=
  !cs.isEmpty && cs.length ≤ 63 && cs.all isLabelChar && cs.head? != some '-' &&
    cs.getLast? != some '-'

/-- The labels of a name. An empty one at the end comes from a point there and does not count. -/
def labels (s : String) : List (List Char) :=
  let pieces := Text.splitAt '.' s.toList
  match pieces.getLast? with
  | some [] => if 1 < pieces.length then pieces.dropLast else pieces
  | _ => pieces

/-- The name consists of labels, and the last one is not a number. -/
def isDomain (s : String) : Bool :=
  let ls := labels s
  s.utf8ByteSize ≤ 253 && ls.all isLabel && !(ls.getLast?.getD []).all Char.isDigit

/-- A certificate can be issued for the name. -/
def isValid (s : String) : Bool :=
  isDomain s || (IpAddress.ofString? s).isSome

end Courier.HostName
