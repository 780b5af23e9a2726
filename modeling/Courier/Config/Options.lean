import Courier.Fault
import Courier.Pipe.Basic
import Courier.Wire.Frame

/-!
Courier.Config.Options — the limits that connections work within, and how their bytes move.
-/

namespace Courier

/-- How bytes are moved between a connection and its socket. -/
inductive TransportKind where
  /-- encrypted if there are credentials, through the socket itself otherwise -/
  | auto
  | stream
  | secureStream
  | socket
  deriving DecidableEq, Repr, Inhabited

namespace TransportKind

/-- The name of a kind. -/
def name : TransportKind → String
  | .auto => "Auto"
  | .stream => "Stream"
  | .secureStream => "SecureStream"
  | .socket => "Socket"

/-- The kind of a name; no other name is one. -/
def ofName? (name : String) : Option TransportKind :=
  [auto, stream, secureStream, socket].find? (·.name == name)

/-- The kind that is used. -/
def effective (secure : Bool) : TransportKind → TransportKind
  | .auto => if secure then .secureStream else .socket
  | kind => kind

/-- Whether a kind and the credentials go together. -/
def check (secure : Bool) (kind : TransportKind) : Except Refusal Unit :=
  match kind, secure with
  | .secureStream, false => .error .credentialsMissing
  | .stream, true | .socket, true => .error (.credentialsUnsupported kind.name)
  | _, _ => .ok ()

end TransportKind

/-- What servers and clients can be told about their connections. -/
structure ConnectionOptions where
  /-- how many queues the connections are spread over -/
  queueCount : Nat := 2
  /-- how much may wait to be read before receiving pauses; zero for no bound -/
  maxReadBuffer : Nat := 1024 * 1024
  /-- how much may wait to be sent before sending pauses; zero for no bound -/
  maxWriteBuffer : Nat := 64 * 1024
  /-- the greatest payload -/
  maxPayload : Nat := Frame.maxPayloadSize
  /-- how much may wait while a handshake is not complete -/
  maxHandshake : Nat := 2 * 1024
  /-- wait for data before memory is set aside for it -/
  waitForData : Bool := true
  deriving DecidableEq, Repr, Inhabited

namespace ConnectionOptions

/-- The greatest length that a frame's length field can hold. -/
def lengthLimit : Nat := Nat.pow 2 32 - 1

/-- Whether connections can work with the options; the first rule that is broken is named. -/
def validate (o : ConnectionOptions) : Except Refusal Unit :=
  if o.queueCount = 0 then .error .noQueues
  else if lengthLimit < o.maxPayload then .error (.wideLimit o.maxPayload)
  else if o.maxHandshake = 0 then .error .noHandshakeRoom
  else .ok ()

/-- When receiving pauses. -/
def input (o : ConnectionOptions) : Thresholds :=
  .ofMaxSize o.maxReadBuffer

/-- When sending pauses. -/
def output (o : ConnectionOptions) : Thresholds :=
  .ofMaxSize o.maxWriteBuffer

/-- Options spelled out. -/
def spelled (o : ConnectionOptions) : String :=
  Text.spellRecord "ConnectionOptions"
    [("io_queue_count", toString o.queueCount), ("max_read_buffer_size", toString o.maxReadBuffer),
      ("max_write_buffer_size", toString o.maxWriteBuffer),
      ("max_payload_size", toString o.maxPayload), ("max_handshake_size", toString o.maxHandshake),
      ("wait_for_data", Text.spellBool o.waitForData)]

end ConnectionOptions

end Courier
