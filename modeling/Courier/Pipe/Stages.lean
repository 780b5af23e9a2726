import Courier.Pipe.Reader
import Courier.Pipe.Writer

/-!
Courier.Pipe.Stages — flushes and reads, one look at the shared state at a time.

Between two stages of a flush or a read the other side may do anything. A stage that waits for the
other side has no step until the other side notifies it.
-/

namespace Courier

/-- What a step comes to: the next stage, or the outcome. -/
inductive Staged (σ ω : Type) where
  | next (stage : σ)
  | done (outcome : ω)
  deriving DecidableEq, Repr, Inhabited

/-- The stages of a flush. -/
inductive FlushStage where
  /-- about to hand over what was written -/
  | publishing
  /-- about to see whether there is too much unread -/
  | checking (waited : Bool)
  /-- about to wait -/
  | parking
  | parked
  deriving DecidableEq, Repr, Inhabited

/-- The stages of a read. -/
inductive ReadStage where
  /-- about to see whether something is new -/
  | looking
  /-- about to wait -/
  | parking
  | parked
  deriving DecidableEq, Repr, Inhabited

/-- The next step of a flush, if it need not wait. -/
def FlushStage.step? (stage : FlushStage) (pool : BlockPool) (p : Pipe) :
    Option (Staged FlushStage FlushOutcome × BlockPool × Pipe) :=
  match stage with
  | .publishing =>
      match p.publish pool with
      | (some outcome, pool, p) => some (.done outcome, pool, p)
      | (none, pool, p) => some (.next (.checking false), pool, p)
  | .checking waited =>
      match p.checkSpace waited with
      | (some outcome, p) => some (.done outcome, pool, p)
      | (none, p) => some (.next .parking, pool, p)
  | .parking =>
      match p.spaceSignal.wait with
      | (true, signal) => some (.next (.checking true), pool, { p with spaceSignal := signal })
      | (false, signal) => some (.next .parked, pool, { p with spaceSignal := signal })
  | .parked =>
      match p.spaceSignal.waiter with
      | .woken =>
          some (.next (.checking true), pool, { p with spaceSignal := p.spaceSignal.resume })
      | _ => none

/-- The next step of a read, if it need not wait. -/
def ReadStage.step? (stage : ReadStage) (p : Pipe) : Option (Staged ReadStage ReadOutcome × Pipe) :=
  match stage with
  | .looking =>
      match p.tryRead with
      | (some outcome, p) => some (.done outcome, p)
      | (none, p) => some (.next .parking, p)
  | .parking =>
      match p.dataSignal.wait with
      | (true, signal) => some (.next .looking, { p with dataSignal := signal })
      | (false, signal) => some (.next .parked, { p with dataSignal := signal })
  | .parked =>
      match p.dataSignal.waiter with
      | .woken => some (.next .looking, { p with dataSignal := p.dataSignal.resume })
      | _ => none

/-- A flush can be given up while it waits, not in the middle of a look. -/
def FlushStage.interruptible : FlushStage → Bool
  | .parked => true
  | _ => false

/-- A read can be given up before it begins and while it waits, not in the middle of a look. -/
def ReadStage.interruptible : ReadStage → Bool
  | .looking | .parked => true
  | .parking => false

end Courier
