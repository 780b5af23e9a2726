import Courier.Config.Options
import Courier.Handshake.Upgrade
import Courier.Net.HostName
import Courier.Text.Duration
import Courier.Wire.Format

/-!
Courier.Config.Endpoint — what a server and a client are set up with.

Both check their setup before they begin: first the address, then the limits, then whether the
way of moving bytes goes with the credentials. Where a setup breaks several rules the first one
is named.
-/

namespace Courier

/-! ## 1. Servers -/

/-- The setup of a server. -/
structure ServerConfig where
  /-- a numeric address -/
  address : String
  /-- zero for any free port -/
  port : Nat
  /-- there are credentials for encrypted connections -/
  secure : Bool := false
  /-- how long the exchange of credentials may take -/
  credentialsTimeout : Duration := .ofMilliseconds 60000
  transport : TransportKind := .auto
  options : ConnectionOptions := {}
  handshake : Handshake := .instant
  format : WireFormat := .plain
  /-- cut connections off when they end with an error -/
  cutOnError : Bool := true

namespace ServerConfig

/-- A server of WebSocket connections. -/
def webSocket (address : String) (port : Nat) : ServerConfig :=
  { address, port, handshake := .upgradeServer, format := .webSocket }

/-- Where the server listens. -/
def listenAddress (c : ServerConfig) : Except Refusal SocketAddress :=
  match IpAddress.ofString? c.address with
  | none => .error (.listenAddress c.address)
  | some ip => .ok { ip, port := c.port }

/-- The kind of transport that is used. -/
def effectiveTransport (c : ServerConfig) : TransportKind :=
  c.transport.effective c.secure

/-- Whether a server can work with the setup. -/
def validate (c : ServerConfig) : Except Refusal Unit := do
  let _ ← c.listenAddress
  c.options.validate
  c.transport.check c.secure

/-- A setup spelled out. -/
def spelled (c : ServerConfig) : String :=
  Text.spellRecord "ServerConfig"
    [("address", Text.quote c.address), ("port", toString c.port),
      ("secure", Text.spellBool c.secure), ("transport_kind", c.transport.name),
      ("connection_options", c.options.spelled), ("fin_on_error", Text.spellBool c.cutOnError)]

end ServerConfig

/-! ## 2. Clients -/

/-- The setup of a client. -/
structure ClientConfig where
  /-- the numeric address of the server -/
  address : String
  port : Nat
  /-- the name of the server, if it is not its address -/
  host : Option String := none
  /-- connections are to be encrypted -/
  secure : Bool := false
  /-- how long to wait before the next attempt to connect -/
  reconnectInterval : Duration := .ofMilliseconds 3000
  transport : TransportKind := .auto
  options : ConnectionOptions := {}
  handshake : Handshake := .instant
  format : WireFormat := .plain

namespace ClientConfig

/-- The name of the server. -/
def hostName (c : ClientConfig) : String :=
  c.host.getD c.address

/-- A client of WebSocket connections; `key` goes into its upgrade request. -/
def webSocket (address : String) (port : Nat) (key : String) : ClientConfig :=
  { address, port, handshake := .upgradeClient address "/" key, format := .webSocket }

/-- Where the server is. -/
def serverAddress (c : ClientConfig) : Except Refusal SocketAddress :=
  match IpAddress.ofString? c.address with
  | none => .error (.serverAddress c.address)
  | some ip => .ok { ip, port := c.port }

/-- The kind of transport that is used. -/
def effectiveTransport (c : ClientConfig) : TransportKind :=
  c.transport.effective c.secure

/-- A port that a server can have. -/
def checkPort (c : ClientConfig) : Except Refusal Unit :=
  if c.port = 0 then .error .zeroPort else .ok ()

/-- A name that the server's certificate can be checked against, if it will be. -/
def checkName (c : ClientConfig) : Except Refusal Unit :=
  if c.secure && !HostName.isValid c.hostName then .error (.serverName c.hostName) else .ok ()

/-- Whether a client can work with the setup. -/
def validate (c : ClientConfig) : Except Refusal Unit := do
  let _ ← c.serverAddress
  c.checkPort
  c.checkName
  c.options.validate
  c.transport.check c.secure

/-- A setup spelled out. -/
def spelled (c : ClientConfig) : String :=
  Text.spellRecord "ClientConfig"
    [("address", Text.quote c.address), ("port", toString c.port),
      ("host", Text.spellOption Text.quote c.host), ("secure", Text.spellBool c.secure),
      ("reconnect_interval", c.reconnectInterval.spelled), ("transport_kind", c.transport.name),
      ("connection_options", c.options.spelled)]

end ClientConfig

end Courier
