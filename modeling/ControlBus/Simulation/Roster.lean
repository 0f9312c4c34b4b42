-- Who takes part in the multiplexer and in the event loop, and how they fare.
import ControlBus.Simulation.Named

namespace ControlBus.Simulation.World

/-! ## The multiplexer -/

def registerSource (name : String) (priority : Int) (w : World) : Answer × World :=
  match Assoc.get? w.sourceNames name with
  | none => (.done, w)
  | some id =>
    let (number, multiplexer) := w.multiplexer.add id priority
    (.text (registrationLabel number), { w with multiplexer })

def multiplexerReport (w : World) : MultiplexerReport where
  stats := w.multiplexer.stats
  ready := w.multiplexer.workingSet.length
  sources := w.multiplexer.registrations.map fun r => (w.titleOf r.source, r.priority, r.dispatches)

/-! ## The event loop -/

def addMember (name : String) (priority : Int) (w : World) : Answer × World :=
  let member := ((Assoc.get? w.workerNames name).map Member.worker).or
    ((Assoc.get? w.sourceNames name).map Member.source)
  match w.loop, member with
  | some l, some member =>
    let (number, l) := l.register member priority
    (.text (registrationLabel number), { w with loop := some l })
  | _, _ => (.done, w)

/-- Look at the handlers after a run. -/
def seenAfter (w : World) : Answer × World :=
  let (seen, w) := w.takeSeen
  (.seen seen, w)

def readMember (id : Nat) (w : World) : Answer × World :=
  match (w.loop.bind fun l => l.multiplexer.registrations[id]?) with
  | none => (.done, w)
  | some r =>
    let channel := w.channelOf r.source
    let (reading, w) := w.pollSource channel
    (.member (w.titleOf channel) (w.status channel) reading.toCount, w)

def loopReport (w : World) : Answer × World :=
  match w.loop with
  | none => (.done, w)
  | some l =>
    (.loop {
      stats := l.stats
      multiplexer := l.multiplexer.stats
      members := l.multiplexer.registrations.map fun r =>
        (w.titleOf (w.channelOf r.source), r.dispatches) }, w)

end ControlBus.Simulation.World
