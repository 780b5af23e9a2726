import Courier.Wire.WebSocket

/-!
Courier.Wire.Format — the two wire forms behind one face.

`WireFormat.write` gives the pieces of a frame, `FrameReader.read` takes the next frame from a
buffer, and `FrameReader.drain` takes all that are there.
-/

namespace Courier

/-- How frames are put on the wire. -/
inductive WireFormat where
  | plain
  | webSocket
  deriving DecidableEq, Repr, Inhabited

/-- A reader of either form. -/
inductive FrameReader where
  | plain (reader : Plain.Reader)
  | webSocket (reader : WebSocket.Reader)
  deriving DecidableEq, Repr, Inhabited

/-- What is handed on for a frame, piece by piece. -/
def WireFormat.write (format : WireFormat) (f : Frame) : Except Misuse (List Bytes) :=
  match format with
  | .plain => Plain.write f
  | .webSocket => WebSocket.write f

/-- The bytes of a frame. -/
def WireFormat.encode (format : WireFormat) (f : Frame) : Except Misuse Bytes :=
  (format.write f).map List.flatten

/-- A reader of frames whose payloads have at most `limit` bytes. -/
def WireFormat.reader (format : WireFormat) (limit : Nat) : FrameReader :=
  match format with
  | .plain => .plain { limit }
  | .webSocket => .webSocket (.new limit)

namespace FrameReader

/-- Reads the next frame, if it is there. -/
def read (r : FrameReader) (b : Buffer) : Except Fault (Option Frame) × FrameReader × Buffer :=
  match r with
  | .plain r =>
      let read := r.read b
      (read.1, .plain read.2.1, read.2.2)
  | .webSocket r =>
      let read := r.read b
      (read.1, .webSocket read.2.1, read.2.2)

/-- How many bytes a reader has taken from the buffer and can still make frames of. -/
def held : FrameReader → Nat
  | .plain _ => 0
  | .webSocket r => r.body.size

/-- What a reader made of the bytes there were: the frames, each with the number of bytes left
after it; then how it stopped, nothing being the lack of more bytes. -/
structure Drained where
  frames : List (Frame × Nat) := []
  stopped : Option Fault
  reader : FrameReader
  rest : Buffer

/-- Reads frame after frame until bytes are lacking or a fault comes up. A frame takes at least
one byte, so `room` frames are enough if there are fewer bytes. -/
def drainWithin : (room : Nat) → FrameReader → Buffer → Drained
  | 0, r, b => { stopped := none, reader := r, rest := b }
  | room + 1, r, b =>
      match r.read b with
      | (.error cause, r, b) => { stopped := some cause, reader := r, rest := b }
      | (.ok none, r, b) => { stopped := none, reader := r, rest := b }
      | (.ok (some f), r, b) =>
          let more := drainWithin room r b
          { more with frames := (f, b.size) :: more.frames }

/-- Reads all frames that are there. -/
def drain (r : FrameReader) (b : Buffer) : Drained :=
  drainWithin (r.held + b.size + 1) r b

/-- Adds a piece to what is there and reads all frames. -/
def feed (piece : Bytes) (r : FrameReader) (b : Buffer) : Drained :=
  r.drain (b.pushBytes piece)

/-- What each piece of a stream adds, up to the first fault. -/
def feedAll : List Bytes → FrameReader → Buffer → List Drained
  | [], _, _ => []
  | piece :: pieces, r, b =>
      let drained := feed piece r b
      match drained.stopped with
      | some _ => [drained]
      | none => drained :: feedAll pieces drained.reader drained.rest

end FrameReader

end Courier
