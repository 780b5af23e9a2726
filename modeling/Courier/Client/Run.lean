import Courier.Client.Basic

/-!
Courier.Client.Run — everything that can happen on a client, in any order.

A move is one step of a call, of a loop, of the task of a connection, or of a link. Whatever order
of moves is possible may happen; a move that is not possible in a state has no result.
-/

namespace Courier

/-- What a loop does, or what comes of what it waits for. -/
inductive LoopMove where
  /-- it does the next thing that depends on nobody else -/
  | proceed
  /-- the server was reached -/
  | reach
  /-- the transport was set up on a wire -/
  | setUp (wire : Wire)
  /-- the server was not reached, or the transport was not set up -/
  | fail
  /-- the pause is over -/
  | wake
  /-- it finds that it is asked to end -/
  | stop
  deriving Inhabited

/-- What happens on a client. -/
inductive ClientMove where
  | register (identifier : String) (handler : Handler)
  | connect
  /-- a call that disconnects the client, and its steps after the first -/
  | disconnect
  | goOnParting (call : Nat)
  /-- nobody uses the client any more -/
  | abandon
  | onLoop (loop : Nat) (move : LoopMove)
  /-- the next duty at the milestone of a connection -/
  | attend (attempt : Nat)
  | onLink (attempt : Nat) (move : Move)
  /-- something is asked of the present connection -/
  | perform (command : Command)
  deriving Inhabited

namespace Client

/-- Begins to keep the client connected, unless it is being kept so. -/
def connect (c : Client) : Client :=
  match c.looping with
  | some _ => c
  | none => { c with loops := c.loops ++ [{}], looping := some c.loops.length }

/-- Begins to disconnect the client. There is nothing to do if it is not kept connected. -/
def disconnect (c : Client) : Client :=
  match c.looping with
  | none => { c with partings := c.partings ++ [.returned] }
  | some loop => { c with looping := none, partings := c.partings ++ [.cancelling loop] }

/-- Asks a loop to end, and with it all its connections. -/
def cancelLoop (loop : Nat) (c : Client) : Client :=
  let disconnect (l : Link) : Link := { l with connection := l.connection.disconnect }
  { c with
    loops := c.loops.modify loop fun l => { l with cancelled := true }
    attempts := c.attempts.map fun a => if a.loop = loop then a.mapLink disconnect else a }

/-- The next step of a call that disconnects the client, if it need not wait: the stage after
it. -/
def stepParting? (stage : PartingStage) (c : Client) : Option (PartingStage × Client) :=
  match stage with
  | .cancelling loop => some (.awaitingLoop loop, c.cancelLoop loop)
  | .awaitingLoop loop =>
      match c.loops[loop]? with
      | none => none
      | some l => if l.stage = .finished then some (.returned, c) else none
  | .returned => none

/-- Goes on with a call that disconnects the client. -/
def goOnParting? (call : Nat) (c : Client) : Option Client :=
  match c.partings[call]? with
  | none => none
  | some stage =>
      (c.stepParting? stage).map fun stepped =>
        { stepped.2 with partings := stepped.2.partings.set call stepped.1 }

/-- Nobody uses the client any more: the present loop is asked to end, and nobody waits for it. -/
def abandon (c : Client) : Client :=
  match c.looping with
  | none => c
  | some loop => { c.cancelLoop loop with looping := none }

/-! ## Loops -/

/-- Notes a state for the time without a connection. -/
def note (state : ConnectionState) (c : Client) : Client :=
  { c with noted := state }

/-- A new connection on a wire, and its id; it is asked to end if its loop is. -/
def linkFor (loop : ClientLoop) (queue : Nat) (wire : Wire) (c : Client) :
    Option (Link × RandomSource) :=
  let search := Token.freshId (fun _ => false) 1 c.source
  let queue := (c.queues.queues[queue]?).getD
    { input := c.config.options.input, output := c.config.options.output }
  search.found.map fun id =>
    let l := Link.new (c.config.linkSetup c.router) id c.address.text c.config.options.maxPayload
      queue.input queue.output wire
    ({ l with connection := { l.connection with cancelled := loop.cancelled } }, search.source)

/-- A connection is made on a wire and becomes the present one. -/
def launch? (number : Nat) (loop : ClientLoop) (queue : Nat) (wire : Wire) (c : Client) :
    Option (LoopStage × Client) :=
  (c.linkFor loop queue wire).map fun made =>
    let attempt := c.attempts.length
    (.launching attempt, { c with
      source := made.2, current := some attempt
      attempts := c.attempts ++ [{ loop := number, link := { link := made.1 } }] })

/-- The connection is at its end, in one way or another. -/
def hasEnded (attempt : Nat) (c : Client) : Bool :=
  match c.attempts[attempt]? with
  | none => false
  | some a =>
      match a.link.link.main with
      | .finished | .crashed _ => true
      | _ => false

/-- A step of a loop, if it is possible: the stage after it. -/
def stepLoop? (number : Nat) (loop : ClientLoop) (m : LoopMove) (c : Client) :
    Option (LoopStage × Client) :=
  match loop.stage, m with
  | .beginning, .proceed => some (.reaching, c.note .connecting)
  | .reaching, .reach =>
      let queue := c.queues.next
      some (.settingUp queue.1, { c with queues := queue.2 })
  | .settingUp queue, .setUp wire => c.launch? number loop queue wire
  | .launching attempt, .proceed => some (.serving attempt, c.mapLink attempt Link.start)
  | .serving attempt, .proceed => if c.hasEnded attempt then some (.deciding, c) else none
  | .deciding, .proceed => some (if loop.cancelled then .ending else .pausing, c)
  | .pausing, .proceed => some (.sleeping, c.note .reconnecting)
  | .sleeping, .wake => some (.beginning, c)
  | .ending, .proceed => some (.finished, c.note .closed)
  | .reaching, .fail | .settingUp _, .fail => some (.deciding, c)
  | .reaching, .stop => if loop.cancelled then some (.deciding, c) else none
  | .settingUp _, .stop =>
      if loop.cancelled && c.config.effectiveTransport == .secureStream then some (.deciding, c)
      else none
  | .sleeping, .stop => if loop.cancelled then some (.ending, c) else none
  | _, _ => none

/-- A move of a loop. -/
def moveLoop? (number : Nat) (m : LoopMove) (c : Client) : Option Client :=
  match c.loops[number]? with
  | none => none
  | some loop =>
      (c.stepLoop? number loop m).map fun stepped =>
        { stepped.2 with loops := stepped.2.loops.set number { loop with stage := stepped.1 } }

/-! ## Connections -/

/-- Does the next duty at the milestone of a connection. -/
def attend? (attempt : Nat) (c : Client) : Option Client :=
  match c.attempts[attempt]? with
  | none => none
  | some a =>
      (a.link.duty? ClientDuty.at).map fun duty =>
        let c := c.fulfil duty attempt a.link.link
        let attended := { a with link := a.link.doneWith a.link.link }
        { c with attempts := c.attempts.set attempt attended }

/-- A move of the link of a connection. -/
def moveLink? (attempt : Nat) (m : Move) (c : Client) : Option Client :=
  match c.attempts[attempt]? with
  | none => none
  | some a =>
      (a.link.move? ClientDuty.at m).map fun link =>
        { c with attempts := c.attempts.set attempt { a with link } }

/-- The client after a move, if the move is possible. -/
def move? (m : ClientMove) (c : Client) : Option Client :=
  match m with
  | .register identifier h =>
      match c.register identifier h with
      | .ok c => some c
      | .error _ => some c
  | .connect => some c.connect
  | .disconnect => some c.disconnect
  | .goOnParting call => c.goOnParting? call
  | .abandon => some c.abandon
  | .onLoop loop m => c.moveLoop? loop m
  | .attend attempt => c.attend? attempt
  | .onLink attempt m => c.moveLink? attempt m
  | .perform command => some (c.perform command).2

/-- The client after a row of moves, if all of them are possible. -/
def run? : List ClientMove → Client → Option Client
  | [], c => some c
  | m :: moves, c =>
      match c.move? m with
      | none => none
      | some c => run? moves c

end Client

end Courier
