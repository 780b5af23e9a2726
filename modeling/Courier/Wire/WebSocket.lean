import Courier.Wire.Plain

/-!
Courier.Wire.WebSocket — frames inside WebSocket frames.

Outgoing frames are wrapped one by one as unmasked binary messages. Incoming binary and
continuation frames are unwrapped to a stream of bytes from which the plain reader reads, so a
frame may span several WebSocket frames and several may share one. Text, ping and pong frames are
skipped; a close frame ends the connection.
-/

namespace Courier.WebSocket

/-! ## 1. Headers -/

/-- The kinds of WebSocket frames. -/
inductive Opcode where
  | continuation
  | text
  | binary
  | close
  | ping
  | pong
  deriving DecidableEq, Repr, Inhabited

namespace Opcode

/-- The number that stands for a kind. -/
def toNat : Opcode → Nat
  | .continuation => 0
  | .text => 1
  | .binary => 2
  | .close => 8
  | .ping => 9
  | .pong => 10

/-- The kind that a number stands for. -/
def ofNat? : Nat → Option Opcode
  | 0 => some .continuation
  | 1 => some .text
  | 2 => some .binary
  | 8 => some .close
  | 9 => some .ping
  | 10 => some .pong
  | _ => none

theorem ofNat?_toNat (o : Opcode) : ofNat? o.toNat = some o := by
  cases o <;> rfl

/-- The name of a kind. -/
def name : Opcode → String
  | .continuation => "Continuation"
  | .text => "Text"
  | .binary => "Binary"
  | .close => "Close"
  | .ping => "Ping"
  | .pong => "Pong"

/-- Control frames may stand between the frames of a message. -/
def isControl : Opcode → Bool
  | .close | .ping | .pong => true
  | _ => false

/-- The frame's payload belongs to the stream of our frames. -/
def carriesData : Opcode → Bool
  | .binary | .continuation => true
  | _ => false

end Opcode

/-- The greatest length that is written in the header's second byte itself. -/
def maxInlineLength : Nat := 125

/-- The header of an unmasked, unfragmented frame, piece by piece: the length follows in the
narrowest of three forms. -/
def header (opcode : Opcode) (length : Nat) : Except Misuse (List Bytes) := do
  let first := Bytes.ofNat 1 (128 + opcode.toNat)
  if length ≤ maxInlineLength then return [first, ← Bytes.narrow 1 length]
  else if length < 65536 then return [first, [126], ← Bytes.narrow 2 length]
  else return [first, [127], ← Bytes.narrow 8 length]

/-- What is handed on for a frame, piece by piece. -/
def write (f : Frame) : Except Misuse (List Bytes) := do
  let head ← header .binary (Plain.size f)
  return head ++ (← Plain.write f)

/-! ## 2. Reading -/

/-- A masking key and the place in it for the next byte. -/
structure Mask where
  key : Bytes
  offset : Nat := 0
  deriving DecidableEq, Repr, Inhabited

/-- Takes the mask off a piece of payload. -/
def Mask.apply (m : Mask) (bs : Bytes) : Bytes :=
  bs.mapIdx fun i b => b ^^^ m.key.getD ((m.offset + i) % 4) 0

/-- What a piece of payload is without the mask, if there is one. -/
def unmask (mask : Option Mask) (bs : Bytes) : Bytes :=
  match mask with
  | none => bs
  | some m => m.apply bs

/-- The mask for what follows a piece of payload. -/
def Mask.advance (m : Mask) (n : Nat) : Mask :=
  { m with offset := (m.offset + n) % 4 }

/-- The part of a WebSocket frame that a reader awaits, with what it knows already. -/
inductive Awaiting where
  | header
  /-- the length, in `width` bytes -/
  | length (opcode : Opcode) (masked : Bool) (width : Nat)
  | maskingKey (opcode : Opcode) (length : Nat)
  /-- `missing` bytes of payload are still to come -/
  | payload (opcode : Opcode) (mask : Option Mask) (missing : Nat)
  deriving DecidableEq, Repr, Inhabited

/-- A reader: the part awaited, what was unwrapped and not read yet, and the reader of that. -/
structure Reader where
  awaiting : Awaiting := .header
  body : Buffer := {}
  inner : Plain.Reader
  deriving DecidableEq, Repr, Inhabited

/-- A reader of frames whose payloads have at most `limit` bytes. -/
def Reader.new (limit : Nat) : Reader :=
  { inner := { limit } }

/-- What comes after the length. -/
def afterLength (opcode : Opcode) (masked : Bool) (length : Nat) : Awaiting :=
  if masked then .maskingKey opcode length else .payload opcode none length

/-- What a look at the next part of a WebSocket frame came to. -/
inductive Unwrapped where
  /-- the part is not there yet -/
  | pending
  /-- the part is out of order -/
  | fault (cause : Fault) (reader : Reader) (rest : Buffer)
  /-- the part was taken in -/
  | next (reader : Reader) (rest : Buffer)

/-- What comes after a frame's first two bytes. -/
def afterHeader (field : Bytes) : Except Violation Awaiting :=
  let first := Bytes.toNat (field.take 1)
  let second := Bytes.toNat (field.drop 1)
  match Opcode.ofNat? (first % 16) with
  | none => .error (.unknownOpcode (first % 16))
  | some opcode =>
      let masked := decide (128 ≤ second)
      let length := second % 128
      if opcode.isControl && decide (maxInlineLength < length) then .error .longControlFrame
      else if length = 126 then .ok (.length opcode masked 2)
      else if length = 127 then .ok (.length opcode masked 8)
      else .ok (afterLength opcode masked length)

/-- Takes in the first two bytes of a frame. -/
def unwrapHeader (r : Reader) (b : Buffer) : Unwrapped :=
  if b.size < 2 then .pending
  else
    let field := b.split 2
    match afterHeader field.1 with
    | .error cause => .fault (.violation cause) r field.2
    | .ok awaiting => .next { r with awaiting } field.2

/-- Takes in as much of a payload as is there. -/
def unwrapPayload (opcode : Opcode) (mask : Option Mask) (missing : Nat) (r : Reader)
    (b : Buffer) : Unwrapped :=
  let available := min b.size missing
  if available = 0 ∧ 0 < missing then .pending
  else
    let piece := b.split available
    let r :=
      if opcode.carriesData then { r with body := r.body.pushBytes (unmask mask piece.1) } else r
    let missing := missing - available
    if missing = 0 then
      if opcode = .close then
        .fault .peerClosed { r with awaiting := .payload opcode mask 0 } piece.2
      else .next { r with awaiting := .header } piece.2
    else
      .next { r with awaiting := .payload opcode (mask.map (·.advance available)) missing } piece.2

/-- Takes in the next part of a WebSocket frame. -/
def Reader.unwrap (r : Reader) (b : Buffer) : Unwrapped :=
  match r.awaiting with
  | .header => unwrapHeader r b
  | .length opcode masked width =>
      if b.size < width then .pending
      else
        let field := b.split width
        .next { r with awaiting := afterLength opcode masked (Bytes.toNat field.1) } field.2
  | .maskingKey opcode length =>
      if b.size < 4 then .pending
      else
        let field := b.split 4
        .next { r with awaiting := .payload opcode (some { key := field.1 }) length } field.2
  | .payload opcode mask missing => unwrapPayload opcode mask missing r b

/-- What is left to do: bytes to take in, and a payload to finish. -/
def Reader.effort (r : Reader) (b : Buffer) : Nat :=
  2 * b.size + (match r.awaiting with
    | .payload _ _ _ => 1
    | _ => 0)

/-- Reads what was unwrapped, if anything was. -/
def Reader.readBody (r : Reader) : Except Fault (Option Frame) × Reader :=
  if r.body.isEmpty then (.ok none, r)
  else
    let read := r.inner.read r.body
    (read.1, { r with inner := read.2.1, body := read.2.2 })

/-- Reads the next frame, if it is there: first from what was unwrapped, then by unwrapping more.
Each part that is taken in leaves less to do, so `effort` of them are enough. -/
def Reader.readWithin : (effort : Nat) → Reader → Buffer →
    Except Fault (Option Frame) × Reader × Buffer
  | 0, r, b => (.ok none, r, b)
  | effort + 1, r, b =>
      match r.readBody with
      | (.error cause, r) => (.error cause, r, b)
      | (.ok (some f), r) => (.ok (some f), r, b)
      | (.ok none, r) =>
          match r.unwrap b with
          | .pending => (.ok none, r, b)
          | .fault cause r b => (.error cause, r, b)
          | .next r b => readWithin effort r b

/-- Reads the next frame, if it is there. -/
def Reader.read (r : Reader) (b : Buffer) : Except Fault (Option Frame) × Reader × Buffer :=
  r.readWithin (r.effort b + 1) b

end Courier.WebSocket
