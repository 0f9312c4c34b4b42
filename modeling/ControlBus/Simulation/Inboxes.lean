-- Reading what has arrived: bare subscriptions, and the counters and buffers that take them over.
import ControlBus.Simulation.Named

namespace ControlBus.Simulation.World

def subscribe (name : String) (channels patterns : List String) (w : World) : Answer × World :=
  match w.useStore (SharedStore.subscribe channels patterns) with
  | (.error e, w) => (.failed e, w)
  | (.ok id, w) =>
    (.subscribed id w.board.capacity, { w with subscriptions := Assoc.put w.subscriptions name id })

/-- Notifications by channel, then by payload. -/
def inChannelOrder (ns : List Notification) : List Notification :=
  ns.mergeSort fun a b => textsLe [a.channel, a.payload] [b.channel, b.payload]

def receive (name : String) (max : Option Nat) (sorted : Bool) (w : World) : Answer × World :=
  match Assoc.get? w.subscriptions name with
  | none => (.done, w)
  | some id =>
    let (got, b) := w.board.read (max.getD (w.board.inbox id).length) id
    (.received (if sorted then inChannelOrder got else got) (b.dropped id), w.withBoard b)

def counterState (c : TokenCounter) (w : World) : CounterState where
  pending := c.pending
  hasData := c.hasData
  hasMore := c.hasMore
  dropped := w.board.dropped c.subscription

def bufferState (c : NotificationBuffer) (w : World) : BufferState where
  size := c.size
  dropped := w.board.dropped c.subscription

/-- A counter takes a subscription over. -/
def openCounter (name subscription : String) (seeded : Nat) (w : World) : Answer × World :=
  match Assoc.get? w.subscriptions subscription with
  | none => (.done, w)
  | some id =>
    let c : TokenCounter := { name, subscription := id, pending := seeded }
    (.counter (w.counterState c),
     { w with
        subscriptions := Assoc.erase w.subscriptions subscription
        counters := Assoc.put w.counters name c })

def changeCounter (name : String) (f : TokenCounter → TokenCounter) (w : World) :
    Answer × World :=
  match Assoc.get? w.counters name with
  | none => (.done, w)
  | some c =>
    (.counterAfter (w.counterState (f c)) none,
     { w with counters := Assoc.put w.counters name (f c) })

def pollCounter (name : String) (w : World) : Answer × World :=
  match Assoc.get? w.counters name with
  | none => (.done, w)
  | some c =>
    let (reading, c, b) := c.poll w.board
    let w := { w with counters := Assoc.put w.counters name c }.withBoard b
    (.counterAfter (w.counterState c) (some reading), w)

/-- A buffer takes a subscription over. -/
def openBuffer (name subscription : String) (w : World) : Answer × World :=
  match Assoc.get? w.subscriptions subscription with
  | none => (.done, w)
  | some id =>
    (.done,
     { w with
        subscriptions := Assoc.erase w.subscriptions subscription
        buffers := Assoc.put w.buffers name { name, subscription := id } })

def pollBuffer (name : String) (w : World) : Answer × World :=
  match Assoc.get? w.buffers name with
  | none => (.done, w)
  | some c =>
    let (reading, c, b) := c.poll w.board
    let w := { w with buffers := Assoc.put w.buffers name c }.withBoard b
    (.polledBuffer (w.bufferState c) reading, w)

/-- The oldest notification of a buffer, which `f` may take. -/
def lookIntoBuffer (name : String) (f : NotificationBuffer → NotificationBuffer) (w : World) :
    Answer × World :=
  match Assoc.get? w.buffers name with
  | none => (.done, w)
  | some c =>
    (.buffered (w.bufferState (f c)) c.front?,
     { w with buffers := Assoc.put w.buffers name (f c) })

end ControlBus.Simulation.World
