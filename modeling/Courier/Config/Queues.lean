import Courier.Config.Options
import Courier.Memory.Pool
import Courier.Socket.Sender

/-!
Courier.Config.Queues — connections spread over queues.

Each queue has memory and senders of its own. Connections take the queues in turn.
-/

namespace Courier

/-- What the connections of a queue share. -/
structure Queue where
  memory : BlockPool := {}
  senders : SenderPool := .usual
  input : Thresholds
  output : Thresholds
  deriving DecidableEq, Repr, Inhabited

/-- The queues, and how many connections were assigned to one. -/
structure Queues where
  queues : List Queue
  assigned : Nat := 0
  deriving DecidableEq, Repr, Inhabited

namespace Queues

/-- The queues that the options ask for; at least one. -/
def ofOptions (o : ConnectionOptions) : Queues :=
  { queues := List.replicate (max 1 o.queueCount) { input := o.input, output := o.output } }

/-- The number of the queue for the next connection. -/
def next (q : Queues) : Nat × Queues :=
  (q.assigned % q.queues.length, { q with assigned := q.assigned + 1 })

/-- The numbers of the queues for the next so many connections. -/
def picks : Nat → Queues → List Nat
  | 0, _ => []
  | n + 1, q => q.next.1 :: picks n q.next.2

end Queues

end Courier
