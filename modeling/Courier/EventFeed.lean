/-!
Courier.EventFeed — events for whoever listens.

Every subscriber receives the events that were published after it subscribed, in order. Only the
latest events are kept; a subscriber that falls further behind is told how many it missed, and
goes on with the oldest that is left.
-/

namespace Courier

/-- How many events are kept. -/
def EventFeed.capacity : Nat := 1024

/-- How many events were published, the latest of them, and for each subscriber the number of
the event that it receives next. -/
structure EventFeed (ε : Type) where
  published : Nat := 0
  latest : List ε := []
  subscribers : List Nat := []
  deriving Repr, Inhabited

namespace EventFeed

/-- What a subscriber finds. -/
inductive Reception (ε : Type) where
  | empty
  | lagged (missed : Nat)
  | event (event : ε)
  deriving Repr, Inhabited

/-- The number of the oldest event that is left. -/
def oldest (feed : EventFeed ε) : Nat :=
  feed.published - feed.latest.length

/-- Publishes an event. -/
def publish (event : ε) (feed : EventFeed ε) : EventFeed ε :=
  let latest := feed.latest ++ [event]
  { feed with
    published := feed.published + 1,
    latest := latest.drop (latest.length - capacity) }

/-- A new subscriber, and its number. -/
def subscribe (feed : EventFeed ε) : Nat × EventFeed ε :=
  (feed.subscribers.length, { feed with subscribers := feed.subscribers ++ [feed.published] })

/-- What the subscriber of a number finds, if there is such a one. -/
def receive? (subscriber : Nat) (feed : EventFeed ε) : Option (Reception ε × EventFeed ε) :=
  (feed.subscribers[subscriber]?).map fun next =>
    let moveTo (n : Nat) := { feed with subscribers := feed.subscribers.set subscriber n }
    if next < feed.oldest then (.lagged (feed.oldest - next), moveTo feed.oldest)
    else
      match feed.latest[next - feed.oldest]? with
      | none => (.empty, feed)
      | some event => (.event event, moveTo (next + 1))

end EventFeed

end Courier
