import Courier.Encoding.Base64
import Courier.Encoding.Sha1
import Courier.Handshake.Basic
import Courier.Text.Blank

/-!
Courier.Handshake.Upgrade — from HTTP to WebSocket.

The client asks for the upgrade with a random key, the server proves in its response that it
understood the request. A head ends with its first empty line, and what follows belongs to the
frames. The server takes any target; the client takes any response.
-/

namespace Courier.Upgrade

/-! ## 1. Texts -/

/-- What a server adds to a client's key before it hashes it. -/
def keySalt : String := "258EAFA5-E914-47DA-95CA-C5AB0DC85B11"

/-- The proof that a client's key was seen. -/
def acceptKey (key : String) : String :=
  Base64.encode Base64.standard (Sha1.digest (Bytes.ofString (key ++ keySalt)))

/-- What a client sends. -/
def request (host path key : String) : String :=
  "GET " ++ path ++ " HTTP/1.1\r\nHost: " ++ host ++
    "\r\nConnection: Upgrade\r\nUpgrade: websocket\r\nSec-WebSocket-Version: 13\r\n" ++
    "Sec-WebSocket-Key: " ++ key ++ "\r\n\r\n"

/-- What a server replies. -/
def response (key : String) : String :=
  "HTTP/1.1 101 Switching Protocols\r\nConnection: Upgrade\r\nUpgrade: websocket\r\n" ++
    "Sec-WebSocket-Accept: " ++ acceptKey key ++ "\r\n\r\n"

/-! ## 2. Heads -/

/-- What ends a head: an empty line after another line. -/
def headEnd : Bytes := Bytes.ofString "\r\n\r\n"

/-- The size of the head at the front of what came in, if it is complete. -/
def headSize? (bs : Bytes) : Option Nat :=
  (Bytes.find? headEnd bs).map (· + headEnd.length)

/-- The most header fields a request may have. -/
def maxFields : Nat := 32

/-- The header field with the client's key. -/
def keyField : String := "Sec-WebSocket-Key"

/-- The key of a request. Only the first field of its name counts, and its value has to be text
that is not blank. -/
def keyOf? (r : Http.Request) : Option String :=
  match r.field? keyField with
  | none => none
  | some field =>
      match Bytes.toString? field.value with
      | none => none
      | some text =>
          let key := Text.trim text
          if key.isEmpty then none else some key

/-- The key of an upgrade request. -/
def readRequest (bs : Bytes) : Except Violation String :=
  match Http.Request.read maxFields bs with
  | .error .unfinished => .error .requestUnfinished
  | .error (.malformed e) => .error (.requestMalformed e)
  | .ok r =>
      if r.method ≠ "GET" ∨ r.minor ≠ 1 then .error (.requestLine r.method r.target r.minor)
      else
        match keyOf? r with
        | none => .error .keyMissing
        | some key => .ok key

/-! ## 3. Both sides -/

/-- What a server makes of what came in. -/
def judgeRequest (bs : Bytes) : Verdict :=
  match headSize? bs with
  | none => .pending
  | some size =>
      match readRequest (bs.take size) with
      | .error v => .rejected (.violation v)
      | .ok key => .accepted (some (Bytes.ofString (response key))) size

/-- What a client makes of what came in. -/
def judgeResponse (bs : Bytes) : Verdict :=
  match headSize? bs with
  | none => .pending
  | some size => .accepted none size

end Courier.Upgrade

namespace Courier

/-- The server's side: it waits for a request. -/
def Handshake.upgradeServer : Handshake where
  opening := .proceed none false
  judge := Upgrade.judgeRequest

/-- The client's side: it sends a request with a key and waits for the response. -/
def Handshake.upgradeClient (host path key : String) : Handshake where
  opening := .proceed (some (Bytes.ofString (Upgrade.request host path key))) false
  judge := Upgrade.judgeResponse

end Courier
