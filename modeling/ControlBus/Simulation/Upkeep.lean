-- Letting go: what nobody in the process can reach any more gives up its subscription, and when
-- nobody holds the store any more, its notifications end.
import ControlBus.Simulation.World

namespace ControlBus.Simulation.World

/-- The members of the loop. -/
def members (w : World) : List Member :=
  (w.loop.map fun l => l.multiplexer.registrations.map (·.source)).getD []

/-- The executors in use: those with a name and those in the loop. -/
def workersInUse (w : World) : List Nat :=
  w.workerNames.map (·.2) ++ w.members.filterMap fun
    | .worker id => some id
    | .source _ => none

/-- The sources in use: those with a name, those in the multiplexer or the loop, and the channels
of the executors in use. -/
def sourcesInUse (w : World) : List Nat :=
  w.sourceNames.map (·.2) ++ w.multiplexer.registrations.map (·.source)
    ++ w.members.map w.channelOf
    ++ w.workersInUse.filterMap fun id => (w.worker? id).map (·.channel)

/-- The consumers in use. -/
def consumersInUse (w : World) : List Consumer :=
  w.sourcesInUse.filterMap fun id => (w.source? id).bind Source.consumer?

/-- The subscriptions that somebody still reads. -/
def subscriptionsInUse (w : World) : List Nat :=
  w.consumersInUse.map Consumer.subscription ++ w.subscriptions.map (·.2)
    ++ w.counters.map (·.2.subscription) ++ w.buffers.map (·.2.subscription)

/-- Whether the store is still held. -/
def storeInUse (w : World) : Bool := w.holdsStore || w.consumersInUse.any Consumer.holdsStore

/-- Give up the subscriptions that nobody reads, and end the notifications of a store that nobody
holds. -/
def letGo (w : World) : World :=
  let used := w.subscriptionsInUse
  let b := w.board
  let b := { b with subscriptions := b.subscriptions.map fun s =>
    if s.held && !used.contains s.id then { s with held := false } else s }
  w.withBoard (if w.storeInUse then b else b.close)

end ControlBus.Simulation.World
