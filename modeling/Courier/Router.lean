import Courier.Connection.Basic
import Courier.Json.Reading
import Courier.Registry

/-!
Courier.Router — which handler gets a frame.

Handlers are registered under identifiers, at most one handler of bare payloads and one of values
under each. A handler of values is registered under the identifier that values travel under, so
the frame's identifier alone decides. A frame without a handler is dropped, and so is one whose
payload is not a value of the shape that its handler takes.
-/

namespace Courier

/-- What a handler is given. -/
inductive Delivery where
  | payload (bytes : Bytes)
  | value (value : Json)
  deriving Inhabited

/-- What is done with a frame. -/
structure Handler where
  name : String
  /-- the shape of the values that it takes; none if it takes bare payloads -/
  shape : Option Json.Shape := none
  /-- it runs in a task of its own -/
  deferred : Bool := false
  /-- what it asks of the connection, in order -/
  react : Delivery → List Command := fun _ => []
  deriving Inhabited

/-- What is left to do of the call of a handler. -/
structure Job where
  handler : String
  delivery : Delivery
  /-- the handler was called -/
  begun : Bool := false
  commands : List Command
  deriving Inhabited

/-- What is told of the calls of handlers. -/
inductive Report where
  | called (handler : String) (delivery : Delivery)
  /-- a handler asked for something that was refused -/
  | refused (cause : Refusal)
  deriving Inhabited

namespace Job

/-- The call of a handler with a delivery. -/
def new (h : Handler) (d : Delivery) : Job :=
  { handler := h.name, delivery := d, commands := h.react d }

/-- The next thing that a handler does: what is left after it, if anything is, and what is told
of it. -/
def step (job : Job) (c : Connection) : Option Job × List Report × Connection :=
  if job.begun then
    match job.commands with
    | [] => (none, [], c)
    | command :: commands =>
        match c.perform command with
        | (.ok (), c) => (some { job with commands }, [], c)
        | (.error r, c) => (some { job with commands }, [.refused r], c)
  else (some { job with begun := true }, [.called job.handler job.delivery], c)

/-- Does what is asked, one command after another. -/
def performAll : List Command → Connection → List Report × Connection
  | [], c => ([], c)
  | command :: commands, c =>
      match c.perform command with
      | (.ok (), c) => performAll commands c
      | (.error r, c) =>
          let rest := performAll commands c
          (.refused r :: rest.1, rest.2)

/-- Everything that is left to do of a call. -/
def finish (job : Job) (c : Connection) : List Report × Connection :=
  let rest := performAll job.commands c
  (if job.begun then rest.1 else .called job.handler job.delivery :: rest.1, rest.2)

end Job

/-- The handlers, under the identifiers of the frames that they get. -/
abbrev Router := Registry Handler

namespace Router

/-- The identifier of the frames that a handler gets. -/
def key (identifier : String) (h : Handler) : String :=
  match h.shape with
  | none => identifier
  | some _ => Frame.typedIdentifier identifier

/-- Registers a handler, unless there is one already. -/
def register (identifier : String) (h : Handler) (r : Router) : Except Refusal Router :=
  match Connection.checkIdentifier identifier with
  | .error refusal => .error refusal
  | .ok () =>
      match r.insertNew (key identifier h) h with
      | (false, _) => .error (.handlerExists (key identifier h))
      | (true, r) => .ok r

/-- Registers handlers, one after another, and says of each whether it was. -/
def registerAll : List (String × Handler) → Router → List (Except Refusal Unit) × Router
  | [], r => ([], r)
  | (identifier, h) :: rest, r =>
      match r.register identifier h with
      | .ok r =>
          let more := registerAll rest r
          (.ok () :: more.1, more.2)
      | .error refusal =>
          let more := registerAll rest r
          (.error refusal :: more.1, more.2)

/-- What a handler is given of a payload, if it takes the payload. -/
def delivery? (h : Handler) (payload : Bytes) : Option Delivery :=
  match h.shape with
  | none => some (.payload payload)
  | some shape => (Json.decode? shape payload).map .value

/-- The handler of a frame and what it is given. -/
def route (f : Frame) (r : Router) : Option (Handler × Delivery) :=
  match f.identifier with
  | none => none
  | some identifier =>
      match r.get? identifier with
      | none => none
      | some h => (delivery? h f.payload).map fun d => (h, d)

end Router

end Courier
