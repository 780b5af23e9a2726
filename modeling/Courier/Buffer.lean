import Courier.Bytes
import Courier.Misuse

/-!
Courier.Buffer — bytes that wait to be consumed, in the pieces in which they came.

A buffer keeps its bytes in segments and hands them out from the front. What it holds is its
view `Buffer.toList`; how that is cut into segments shows in `Buffer.chunk` and
`Buffer.segmentLengths` alone. A segment may be a view of a block of pooled memory, whose number
it then carries, so that the block can be given back once nothing refers to it.
-/

namespace Courier

/-- A run of bytes, with the number of the block of memory that it is a view of, if any. -/
structure Segment where
  bytes : Bytes
  block : Option Nat := none
  deriving DecidableEq, Repr, Inhabited

/-- Segments in the order in which they came, and how many bytes they have together. -/
structure Buffer where
  segments : List Segment := []
  size : Nat := 0
  deriving DecidableEq, Repr, Inhabited

namespace Buffer

/-! ## 1. What a buffer holds -/

/-- All bytes of the buffer, in order. -/
def toList (b : Buffer) : Bytes :=
  b.segments.flatMap (·.bytes)

/-- Nothing is left. -/
def isEmpty (b : Buffer) : Bool :=
  b.size == 0

/-- How many bytes each segment has. -/
def segmentLengths (b : Buffer) : List Nat :=
  b.segments.map (·.bytes.length)

/-- The bytes of the first segment; empty only if the buffer is. -/
def chunk (b : Buffer) : Bytes :=
  match b.segments with
  | [] => []
  | s :: _ => s.bytes

/-- The bytes of the first `n` segments. -/
def chunks (n : Nat) (b : Buffer) : List Bytes :=
  (b.segments.take n).map (·.bytes)

/-! ## 2. Adding -/

/-- Adds a segment at the end; an empty one is left out. -/
def push (s : Segment) (b : Buffer) : Buffer :=
  if s.bytes.isEmpty then b else ⟨b.segments ++ [s], b.size + s.bytes.length⟩

/-- Adds bytes of no block. -/
def pushBytes (bs : Bytes) (b : Buffer) : Buffer :=
  b.push { bytes := bs }

/-- Throws everything away. -/
def clear (_ : Buffer) : Buffer := {}

/-- The buffer of one piece. -/
def ofBytes (bs : Bytes) : Buffer :=
  ({} : Buffer).pushBytes bs

/-! ## 3. Looking -/

/-- The first `n` bytes of a row of segments, or all if they are fewer. -/
def peekSegments : Nat → List Segment → Bytes
  | _, [] => []
  | n, s :: rest =>
      if n = 0 then [] else
        let front := s.bytes.take n
        front ++ peekSegments (n - front.length) rest

/-- The first `n` bytes, or all if they are fewer. -/
def peek (n : Nat) (b : Buffer) : Bytes :=
  peekSegments n b.segments

/-- The least offset at which `needle` occurs entirely among the first `limit` bytes. -/
def find (needle : Bytes) (limit : Nat) (b : Buffer) : Except Misuse (Option Nat) :=
  if needle.isEmpty then .error .emptyNeedle else .ok (Bytes.find? needle (b.peek limit))

/-! ## 4. Taking from the front -/

/-- The first `n` bytes of a row of segments, and the segments that are left. A segment that is
used up goes; one that is cut keeps its rest. -/
def splitSegments : Nat → List Segment → Bytes × List Segment
  | _, [] => ([], [])
  | n, s :: rest =>
      if n = 0 then ([], s :: rest) else
        match s.bytes.drop n with
        | [] =>
            let more := splitSegments (n - s.bytes.length) rest
            (s.bytes ++ more.1, more.2)
        | left => (s.bytes.take n, { s with bytes := left } :: rest)

/-- The first `n` bytes, or all if they are fewer, and the buffer without them. -/
def split (n : Nat) (b : Buffer) : Bytes × Buffer :=
  let parts := splitSegments n b.segments
  (parts.1, ⟨parts.2, b.size - n⟩)

/-- A row of segments of `size` bytes without its first `n`: each segment that is used up goes and
is counted off, and the one that is cut keeps its rest. -/
def discard : Nat → List Segment → Nat → Buffer
  | _, [], size => ⟨[], size⟩
  | n, s :: rest, size =>
      if n = 0 then ⟨s :: rest, size⟩
      else if s.bytes.length ≤ n then
        discard (n - s.bytes.length) rest (size - s.bytes.length)
      else ⟨{ s with bytes := s.bytes.drop n } :: rest, size - n⟩

/-- The buffer without its first `n` bytes. -/
def drop (n : Nat) (b : Buffer) : Buffer :=
  discard n b.segments b.size

/-- Copies the first `n` bytes, each time as many as the first segment has, and drops them. -/
def pour (n : Nat) (b : Buffer) : Bytes × Buffer :=
  let front := b.chunk.take n
  if front = [] then ([], b)
  else
    let more := pour (n - front.length) (b.drop front.length)
    (front ++ more.1, more.2)
termination_by n
decreasing_by
  have hpos : 0 < (b.chunk.take n).length := List.length_pos_iff.mpr ‹_›
  have hle : (b.chunk.take n).length ≤ n := List.length_take_le n b.chunk
  omega

/-- Gives back the first `n` bytes, which must be there. -/
def advance (n : Nat) (b : Buffer) : Except Misuse Buffer :=
  if b.size < n then .error .advancedPastBuffer else .ok (b.drop n)

/-- Puts what is left of a segment back in front, if anything is. -/
def putBack (left : Segment) (rest : List Segment) : List Segment :=
  if left.bytes.isEmpty then rest else left :: rest

/-- Takes the first `n` bytes, which must be there, in one piece: it is cut off the first segment
if that is long enough, and else copied together. -/
def copyToBytes (n : Nat) (b : Buffer) : Except Misuse (Bytes × Buffer) :=
  if b.size < n then .error .copiedPastBuffer
  else
    match b.segments with
    | [] => .ok (b.pour n)
    | s :: rest =>
        if n ≤ s.bytes.length then
          .ok (s.bytes.take n, ⟨putBack { s with bytes := s.bytes.drop n } rest, b.size - n⟩)
        else .ok (b.pour n)

/-- Reads the first `n` bytes, which must be there, into memory of the caller. -/
def copyToSlice (n : Nat) (b : Buffer) : Except Misuse (Bytes × Buffer) :=
  if b.size < n then .error .readPastBuffer else .ok (b.pour n)

/-- Reads a number of `width` bytes, which must be there: off the first segment if that is long
enough, and else from a copy. -/
def getNat (width : Nat) (b : Buffer) : Except Misuse (Nat × Buffer) :=
  if b.size < width then .error .readPastBuffer
  else if width ≤ b.chunk.length then .ok (Bytes.toNat (b.chunk.take width), b.drop width)
  else
    let parts := b.pour width
    .ok (Bytes.toNat parts.1, parts.2)

/-- The segments of `before` that `after`, its remainder, has used up. -/
def usedUp (before after : Buffer) : List Segment :=
  before.segments.take (before.segments.length - after.segments.length)

/-! ## 5. The view of each operation -/

@[simp] theorem toList_empty : ({} : Buffer).toList = [] := rfl

@[simp] theorem toList_push (s : Segment) (b : Buffer) :
    (b.push s).toList = b.toList ++ s.bytes := by
  unfold push
  split
  · next h => simp [toList, List.isEmpty_iff.mp h]
  · simp [toList]

theorem peekSegments_eq (n : Nat) (ss : List Segment) :
    peekSegments n ss = (ss.flatMap (·.bytes)).take n := by
  induction ss generalizing n with
  | nil => simp [peekSegments]
  | cons s rest ih =>
      by_cases h : n = 0
      · simp [peekSegments, h]
      · simp only [peekSegments, h, if_false, ih, List.flatMap_cons, List.take_append,
          List.length_take]
        congr 2
        omega

@[simp] theorem peek_eq_take (n : Nat) (b : Buffer) : b.peek n = b.toList.take n :=
  peekSegments_eq n b.segments

theorem splitSegments_eq (n : Nat) (ss : List Segment) :
    (splitSegments n ss).1 = (ss.flatMap (·.bytes)).take n ∧
      (splitSegments n ss).2.flatMap (·.bytes) = (ss.flatMap (·.bytes)).drop n := by
  induction ss generalizing n with
  | nil => simp [splitSegments]
  | cons s rest ih =>
      by_cases h : n = 0
      · simp [splitSegments, h]
      · simp only [splitSegments, h, if_false, List.flatMap_cons]
        cases hd : s.bytes.drop n with
        | nil =>
            have hl : s.bytes.length ≤ n := List.drop_eq_nil_iff.mp hd
            simp [ih, List.take_append, List.drop_append, List.take_of_length_le hl, hd]
        | cons x xs =>
            have hl : n < s.bytes.length := by
              rcases Nat.lt_or_ge n s.bytes.length with h' | h'
              · exact h'
              · rw [List.drop_eq_nil_iff.mpr h'] at hd; cases hd
            have hz : n - s.bytes.length = 0 := by omega
            simp [List.take_append, List.drop_append, hz, hd]

@[simp] theorem split_fst (n : Nat) (b : Buffer) : (b.split n).1 = b.toList.take n :=
  (splitSegments_eq n b.segments).1

@[simp] theorem toList_split_snd (n : Nat) (b : Buffer) :
    (b.split n).2.toList = b.toList.drop n :=
  (splitSegments_eq n b.segments).2

@[simp] theorem size_split_snd (n : Nat) (b : Buffer) : (b.split n).2.size = b.size - n := rfl

theorem discard_segments (n : Nat) (ss : List Segment) (size : Nat) :
    (discard n ss size).segments = (splitSegments n ss).2 := by
  induction ss generalizing n size with
  | nil => rfl
  | cons s rest ih =>
      simp only [discard, splitSegments]
      split
      · rfl
      · split
        · next hle => rw [List.drop_eq_nil_iff.mpr hle, ih]
        · next hlt =>
          cases hdrop : s.bytes.drop n with
          | nil => exact absurd (List.drop_eq_nil_iff.mp hdrop) hlt
          | cons x xs => rfl

/-- As many bytes are counted off as there were to go. -/
theorem discard_size (n : Nat) (ss : List Segment) (size : Nat) :
    (discard n ss size).size = size - ((ss.flatMap (·.bytes)).take n).length := by
  induction ss generalizing n size with
  | nil => simp [discard]
  | cons s rest ih =>
      simp only [discard]
      split
      · next hzero => simp [hzero]
      · split
        · next hle =>
          rw [ih, List.flatMap_cons, List.take_append, List.take_of_length_le hle,
            List.length_append, Nat.sub_sub]
        · next hlt =>
          have hn : n ≤ s.bytes.length := Nat.le_of_not_le hlt
          rw [List.flatMap_cons, List.take_append_of_le_length hn, List.length_take,
            Nat.min_eq_left hn]

theorem segments_drop (n : Nat) (b : Buffer) :
    (b.drop n).segments = (splitSegments n b.segments).2 :=
  discard_segments n b.segments b.size

@[simp] theorem size_drop (n : Nat) (b : Buffer) :
    (b.drop n).size = b.size - (b.toList.take n).length :=
  discard_size n b.segments b.size

@[simp] theorem toList_drop (n : Nat) (b : Buffer) : (b.drop n).toList = b.toList.drop n := by
  rw [toList, segments_drop]
  exact (splitSegments_eq n b.segments).2

end Buffer

end Courier
