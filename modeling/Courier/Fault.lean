import Courier.Http.Request
import Courier.IoError
import Courier.Text.Quoted

/-!
Courier.Fault — why something did not work, by cause.

A `Violation` is the peer's doing: it sent what the protocol does not allow. A `Refusal` is the
answer to a caller who asked for what cannot be done. A `Fault` is either of them, the end of the
connection, a failure of the system below or of the application, or one of these seen from a
larger undertaking. Wordings are in the three functions `message`.
-/

namespace Courier

/-! ## 1. What the peer did wrong -/

/-- Data that the protocol does not allow. -/
inductive Violation where
  | identifierLength (length : Nat) (limit : Nat)
  | identifierNotText
  | payloadLength (length : Nat) (limit : Nat)
  | unknownOpcode (opcode : Nat)
  | longControlFrame
  | longHandshake (limit : Nat)
  | requestUnfinished
  | requestMalformed (error : Http.HeadError)
  | requestLine (method target : String) (minor : Nat)
  | keyMissing
  /-- found by a handshake of the application -/
  | other (text : String)
  deriving DecidableEq, Repr, Inhabited

/-- The wording of a violation. -/
def Violation.message : Violation → String
  | .identifierLength n limit =>
      s!"identifier length {n} exceeds the maximum of {limit}"
  | .identifierNotText => "identifier is not valid UTF-8"
  | .payloadLength n limit => s!"payload length {n} exceeds the maximum of {limit}"
  | .unknownOpcode n => s!"unsupported WebSocket opcode {n}"
  | .longControlFrame => "WebSocket control frame payload exceeds 125 bytes"
  | .longHandshake limit => s!"handshake exceeds {limit} bytes"
  | .requestUnfinished => "incomplete WebSocket upgrade request"
  | .requestMalformed e => "invalid WebSocket upgrade request: " ++ e.message
  | .requestLine method target minor =>
      "invalid WebSocket upgrade request line: " ++ Text.spellOption Text.quote (some method) ++
        " " ++ Text.spellOption Text.quote (some target) ++ " HTTP/1." ++
        Text.spellOption toString (some minor)
  | .keyMissing => "WebSocket upgrade request without Sec-WebSocket-Key"
  | .other text => text

/-! ## 2. What is refused to a caller -/

/-- A request of the program itself that is not met. -/
inductive Refusal where
  | longIdentifier (length : Nat) (limit : Nat)
  | longPayload (length : Nat) (limit : Nat)
  | reservedIdentifier (identifier : String) (reserved : String)
  | connectionClosed (id : String)
  | handlerExists (key : String)
  | notConnected (address : String)
  | listenAddress (address : String)
  | serverAddress (address : String)
  | zeroPort
  | serverName (name : String)
  | noQueues
  | wideLimit (limit : Nat)
  | noHandshakeRoom
  | credentialsMissing
  | credentialsUnsupported (transport : String)
  deriving DecidableEq, Repr, Inhabited

/-- The wording of a refusal. -/
def Refusal.message : Refusal → String
  | .longIdentifier n limit => s!"identifier has {n} bytes, the maximum is {limit}"
  | .longPayload n limit => s!"payload has {n} bytes, the maximum is {limit}"
  | .reservedIdentifier identifier reserved =>
      "identifier " ++ Text.quote identifier ++ " uses the reserved prefix " ++ Text.quote reserved
  | .connectionClosed id => s!"connection {id} is closed"
  | .handlerExists key => "a handler for " ++ Text.quote key ++ " is registered already"
  | .notConnected address => s!"not connected to {address}"
  | .listenAddress address =>
      "invalid listen address " ++ Text.quote address ++ ": expected an IP address"
  | .serverAddress address =>
      "invalid server address " ++ Text.quote address ++ ": expected an IP address"
  | .zeroPort => "server port must not be 0"
  | .serverName name => Text.quote name ++ " is not a valid TLS server name"
  | .noQueues => "at least one I/O queue is required"
  | .wideLimit limit =>
      s!"maximum payload size {limit} does not fit the wire format's 32 bit length field"
  | .noHandshakeRoom => "maximum handshake size must be positive"
  | .credentialsMissing => "secure stream transport requires a TLS configuration"
  | .credentialsUnsupported transport => s!"transport kind {transport} does not support TLS"

/-! ## 3. All causes -/

/-- Why something did not work. -/
inductive Fault where
  | violation (cause : Violation)
  /-- the peer announced the end of the connection inside the protocol -/
  | peerClosed
  | io (cause : IoError)
  | refused (cause : Refusal)
  /-- a failure of the application -/
  | other (text : String)
  /-- what was attempted when the cause came up -/
  | during (text : String) (cause : Fault)
  deriving DecidableEq, Repr, Inhabited

namespace Fault

/-- The wording of a fault; what was attempted stands for its cause. -/
def message : Fault → String
  | .violation v => "protocol violation: " ++ v.message
  | .peerClosed => "peer closed the connection"
  | .io e => e.text
  | .refused r => r.message
  | .other text => text
  | .during text _ => text

/-- The fault at the bottom of a row of attempts. -/
def root : Fault → Fault
  | .during _ cause => cause.root
  | f => f

end Fault

end Courier
