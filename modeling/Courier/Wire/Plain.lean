import Courier.Buffer
import Courier.Wire.Frame

/-!
Courier.Wire.Plain — frames one after another.

A frame is written as the length of its identifier in four bytes, the identifier, the length of
its payload in four bytes, and the payload. A reader is fed from a buffer and remembers which
part it awaits, so a frame may arrive in pieces of any size. Fields other than the payload stay in
the buffer until they are whole; a payload is taken over as it comes.
-/

namespace Courier

/-- A number in a field of `width` bytes; one that does not fit is a mistake of the caller. -/
def Bytes.narrow (width n : Nat) : Except Misuse Bytes :=
  if n < Nat.pow 256 width then .ok (Bytes.ofNat width n) else .error .outOfRange

namespace Plain

/-! ## 1. Writing -/

/-- How many bytes a frame takes. -/
def size (f : Frame) : Nat :=
  4 + f.identifierBytes.length + 4 + f.payload.length

/-- Frames of at most this size are put together before they are handed on. -/
def scratchSize : Nat := 1024

/-- The parts of a frame, in order. -/
def parts (f : Frame) : Except Misuse (List Bytes) := do
  let identifierLength ← Bytes.narrow 4 f.identifierBytes.length
  let payloadLength ← Bytes.narrow 4 f.payload.length
  return [identifierLength, f.identifierBytes, payloadLength, f.payload]

/-- Puts parts into memory of an exact size. -/
def assemble (size : Nat) (parts : List Bytes) : Except Misuse Bytes :=
  let whole := parts.flatten
  if size < whole.length then .error .wrotePastBlock
  else .ok (whole ++ List.replicate (size - whole.length) 0)

/-- What is handed on for a frame, piece by piece: a small frame in one piece, a large one in its
parts. -/
def write (f : Frame) : Except Misuse (List Bytes) := do
  let parts ← parts f
  if size f ≤ scratchSize then return [← assemble (size f) parts] else return parts

/-! ## 2. Reading -/

/-- The part of a frame that a reader awaits, with what it knows already. -/
inductive Awaiting where
  | identifierLength
  | identifier (length : Nat)
  | payloadLength (identifier : String)
  /-- `missing` bytes of the payload are still to come; `backlog` are those that came, the last
  one first -/
  | payload (identifier : String) (missing : Nat) (backlog : Bytes)
  deriving DecidableEq, Repr, Inhabited

/-- What a call of a reader came to: a frame, or none as yet, or a fault; what it awaits now; and
the bytes it left. -/
structure Progress where
  result : Except Fault (Option Frame)
  awaiting : Awaiting
  rest : Buffer

/-- Reads the payload as far as it is there. -/
def readPayload (identifier : String) (missing : Nat) (backlog : Bytes) (b : Buffer) : Progress :=
  let available := min b.size missing
  let piece := b.split available
  let backlog := piece.1.reverse ++ backlog
  if missing - available = 0 then
    { result := .ok (some (.received identifier backlog.reverse)), awaiting := .identifierLength,
      rest := piece.2 }
  else
    { result := .ok none, awaiting := .payload identifier (missing - available) backlog,
      rest := piece.2 }

/-- Reads the length of the payload and goes on. -/
def readPayloadLength (limit : Nat) (identifier : String) (b : Buffer) : Progress :=
  if b.size < 4 then { result := .ok none, awaiting := .payloadLength identifier, rest := b }
  else
    let field := b.split 4
    let length := Bytes.toNat field.1
    if limit < length then
      { result := .error (.violation (.payloadLength length limit)),
        awaiting := .payloadLength identifier, rest := field.2 }
    else readPayload identifier length [] field.2

/-- Reads the identifier and goes on. -/
def readIdentifier (limit length : Nat) (b : Buffer) : Progress :=
  if b.size < length then { result := .ok none, awaiting := .identifier length, rest := b }
  else
    let field := b.split length
    match Bytes.toString? field.1 with
    | none =>
        { result := .error (.violation .identifierNotText), awaiting := .identifier length,
          rest := field.2 }
    | some identifier => readPayloadLength limit identifier field.2

/-- Reads the length of the identifier and goes on. -/
def readIdentifierLength (limit : Nat) (b : Buffer) : Progress :=
  if b.size < 4 then { result := .ok none, awaiting := .identifierLength, rest := b }
  else
    let field := b.split 4
    let length := Bytes.toNat field.1
    if Frame.maxIdentifierSize < length then
      { result := .error (.violation (.identifierLength length Frame.maxIdentifierSize)),
        awaiting := .identifierLength, rest := field.2 }
    else readIdentifier limit length field.2

/-- A reader of frames whose payloads have at most `limit` bytes. -/
structure Reader where
  limit : Nat
  awaiting : Awaiting := .identifierLength
  deriving DecidableEq, Repr, Inhabited

/-- Reads on from the part that is awaited, up to the end of a frame or of the buffer. -/
def Reader.step (r : Reader) (b : Buffer) : Progress :=
  match r.awaiting with
  | .identifierLength => readIdentifierLength r.limit b
  | .identifier length => readIdentifier r.limit length b
  | .payloadLength identifier => readPayloadLength r.limit identifier b
  | .payload identifier missing backlog => readPayload identifier missing backlog b

/-- Reads the next frame, if it is there. -/
def Reader.read (r : Reader) (b : Buffer) : Except Fault (Option Frame) × Reader × Buffer :=
  let progress := r.step b
  (progress.result, { r with awaiting := progress.awaiting }, progress.rest)

end Plain

end Courier
