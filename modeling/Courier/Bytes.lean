/-!
Courier.Bytes — byte strings and the numbers written in them.

A byte string is a list of bytes, so every operation of `List` is one on byte strings. Numbers
travel most significant byte first: `Bytes.ofNat` writes one of a fixed width, `Bytes.toNat`
reads it back. Text travels as UTF-8.
-/

namespace Courier

/-- A string of bytes. -/
abbrev Bytes := List UInt8

namespace Bytes

/-! ## 1. Numbers -/

/-- The number that a byte string spells, most significant byte first. -/
def toNat (bs : Bytes) : Nat :=
  bs.foldl (fun n b => n * 256 + b.toNat) 0

/-- A number in `width` bytes, most significant byte first; what does not fit is dropped. -/
def ofNat : (width n : Nat) → Bytes
  | 0, _ => []
  | width + 1, n => UInt8.ofNat (n / Nat.pow 256 width) :: ofNat width n

@[simp] theorem length_ofNat (width n : Nat) : (ofNat width n).length = width := by
  induction width with
  | zero => rfl
  | succ width ih => simp [ofNat, ih]

/-! ## 2. Text -/

/-- The UTF-8 form of a text. -/
def ofString (s : String) : Bytes :=
  s.toUTF8.data.toList

/-- The text of which a byte string is the UTF-8 form, if there is one. -/
def toString? (bs : Bytes) : Option String :=
  String.fromUTF8? ⟨bs.toArray⟩

/-! ## 3. Searching -/

/-- The least offset, counted from `offset`, at which `needle` occurs. An empty needle occurs at
once, also in the empty string. -/
def findFrom (needle : Bytes) : (offset : Nat) → Bytes → Option Nat
  | offset, [] => if needle.isEmpty then some offset else none
  | offset, b :: rest =>
      if needle.isPrefixOf (b :: rest) then some offset else findFrom needle (offset + 1) rest

/-- The least offset at which `needle` occurs. -/
def find? (needle bs : Bytes) : Option Nat :=
  findFrom needle 0 bs

/-! ## 4. Pieces -/

/-- The pieces between cuts, of a byte string that stands at `start`: one more than there are cuts.
A cut that lies before the one before it is made at the same place. -/
def cutAt : (start : Nat) → (cuts : List Nat) → Bytes → List Bytes
  | _, [], bs => [bs]
  | start, cut :: cuts, bs =>
      bs.take (cut - start) :: cutAt (max start cut) cuts (bs.drop (cut - start))

/-- However a byte string is cut, the pieces make it up. -/
theorem flatten_cutAt (start : Nat) (cuts : List Nat) (bs : Bytes) :
    (cutAt start cuts bs).flatten = bs := by
  induction cuts generalizing start bs with
  | nil => simp [cutAt]
  | cons cut cuts ih => simp [cutAt, ih]

end Bytes

end Courier
