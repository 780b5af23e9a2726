import Courier.Bytes

/-!
Courier.Encoding.Sha1 — the digest that an upgrade is answered with.

The message is filled up to whole blocks of 64 bytes; each block is stretched to eighty words,
which are mixed one after another into a state of five words.
-/

namespace Courier.Sha1

/-- The five words that a digest consists of. -/
structure State where
  a : UInt32 := 0x67452301
  b : UInt32 := 0xefcdab89
  c : UInt32 := 0x98badcfe
  d : UInt32 := 0x10325476
  e : UInt32 := 0xc3d2e1f0

/-- A word turned to the left. -/
def rotate (n : UInt32) (w : UInt32) : UInt32 :=
  (w <<< n) ||| (w >>> (32 - n))

/-- The message with a one bit, zeros and its length in bits, in whole blocks. -/
def fillUp (bs : Bytes) : Bytes :=
  let zeros := (119 - bs.length % 64) % 64
  bs ++ 0x80 :: List.replicate zeros 0 ++ Bytes.ofNat 8 (bs.length * 8)

/-- The words that a row of bytes spells. -/
def words : Bytes → List UInt32
  | a :: b :: c :: d :: rest => UInt32.ofNat (Bytes.toNat [a, b, c, d]) :: words rest
  | _ => []

/-- Stretches a block: the newest word first, each new one made from four before it. -/
def stretch : (more : Nat) → List UInt32 → List UInt32
  | 0, ws => ws
  | more + 1, ws =>
      let word := rotate 1 (ws.getD 2 0 ^^^ ws.getD 7 0 ^^^ ws.getD 13 0 ^^^ ws.getD 15 0)
      stretch more (word :: ws)

/-- One round: the `t`-th word is mixed in. -/
def mix (s : State) (t : Nat) (word : UInt32) : State :=
  let (f, k) : UInt32 × UInt32 :=
    if t < 20 then ((s.b &&& s.c) ||| (~~~s.b &&& s.d), 0x5a827999)
    else if t < 40 then (s.b ^^^ s.c ^^^ s.d, 0x6ed9eba1)
    else if t < 60 then ((s.b &&& s.c) ||| (s.b &&& s.d) ||| (s.c &&& s.d), 0x8f1bbcdc)
    else (s.b ^^^ s.c ^^^ s.d, 0xca62c1d6)
  { a := rotate 5 s.a + f + s.e + k + word, b := s.a, c := rotate 30 s.b, d := s.c, e := s.d }

/-- The state after a block. -/
def absorb (s : State) (block : List UInt32) : State :=
  let mixed := ((stretch 64 block.reverse).reverse.zipIdx).foldl (fun s w => mix s w.2 w.1) s
  { a := s.a + mixed.a, b := s.b + mixed.b, c := s.c + mixed.c, d := s.d + mixed.d,
    e := s.e + mixed.e }

/-- The state after a row of words, taken sixteen at a time; `blocks` bounds their number. -/
def absorbAll : (blocks : Nat) → State → List UInt32 → State
  | 0, s, _ => s
  | _, s, [] => s
  | blocks + 1, s, ws => absorbAll blocks (absorb s (ws.take 16)) (ws.drop 16)

/-- The digest of a byte string: twenty bytes. -/
def digest (bs : Bytes) : Bytes :=
  let ws := words (fillUp bs)
  let s := absorbAll ws.length {} ws
  [s.a, s.b, s.c, s.d, s.e].flatMap fun w => Bytes.ofNat 4 w.toNat

end Courier.Sha1
