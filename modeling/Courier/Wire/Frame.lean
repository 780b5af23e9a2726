import Courier.Bytes
import Courier.Fault

/-!
Courier.Wire.Frame — what connections exchange.

A frame carries a payload under an identifier. A raw frame has no identifier: it is sent as its
bare payload, which is what handshakes do. Identifiers that begin with `Frame.typedMark` are
those of typed values, so that a typed and a raw handler of the same name are kept apart.
-/

namespace Courier

/-- Whether a frame is on its way out or came in. -/
inductive Direction where
  | sending
  | receiving
  deriving DecidableEq, Repr, Inhabited

/-- A payload and the identifier it is sent under; raw frames have none. -/
structure Frame where
  identifier : Option String
  payload : Bytes
  direction : Direction := .sending
  deriving DecidableEq, Repr, Inhabited

namespace Frame

/-- The most bytes an identifier may have. -/
def maxIdentifierSize : Nat := 512

/-- The most bytes a payload may have, unless a connection says otherwise. -/
def maxPayloadSize : Nat := 50 * 1024 * 1024

/-- What the identifiers of typed values begin with. -/
def typedMark : String := "#_#serialize#_#"

/-- A frame to be sent under an identifier. -/
def new (identifier : String) (payload : Bytes) : Frame :=
  { identifier := some identifier, payload }

/-- A frame to be sent as its bare payload. -/
def raw (payload : Bytes) : Frame :=
  { identifier := none, payload }

/-- A frame that came in. -/
def received (identifier : String) (payload : Bytes) : Frame :=
  { identifier := some identifier, payload, direction := .receiving }

/-- The frame has no identifier. -/
def isRaw (f : Frame) : Bool :=
  f.identifier.isNone

/-- The bytes of the identifier; none if there is no identifier. -/
def identifierBytes (f : Frame) : Bytes :=
  match f.identifier with
  | none => []
  | some id => Bytes.ofString id

/-- Whether a frame may be sent: its identifier is looked at first. -/
def validate (maxPayload : Nat) (f : Frame) : Except Refusal Unit :=
  if maxIdentifierSize < f.identifierBytes.length then
    .error (.longIdentifier f.identifierBytes.length maxIdentifierSize)
  else if maxPayload < f.payload.length then
    .error (.longPayload f.payload.length maxPayload)
  else .ok ()

/-- The identifier belongs to a typed value. -/
def isTyped (identifier : String) : Bool :=
  typedMark.toList.isPrefixOf identifier.toList

/-- The identifier under which a typed value travels. -/
def typedIdentifier (identifier : String) : String :=
  typedMark ++ identifier

end Frame

end Courier
