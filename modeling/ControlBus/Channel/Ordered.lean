-- The ordered queue: every operation of a producer is replayed by the consumer in exactly the
-- order in which it was queued. The queue entries are the data.
import ControlBus.Channel.Signal
import ControlBus.Store.Shared
import ControlBus.WorkItem

namespace ControlBus

/-! ## Producing -/

namespace OrderedQueue

/-- Queue several operations at once behind one wake-up token; answers the queue's length. -/
def pushBatch [SharedStore σ] (t : TableName) (items : List WorkItem) : StoreOp σ Nat :=
  SharedStore.evalCount
    (.pushAndPublish t.queue (items.map WorkItem.encode) t.channel wakeToken)

/-- Queue one operation; answers the queue's length. -/
def push [SharedStore σ] (t : TableName) (item : WorkItem) : StoreOp σ Nat := pushBatch t [item]

def set [SharedStore σ] (t : TableName) (key : String) (fields : FieldList) : StoreOp σ Nat :=
  push t { key, operation := .set, fields }

def del [SharedStore σ] (t : TableName) (key : String) : StoreOp σ Nat :=
  push t { key, operation := .del }

end OrderedQueue

/-! ## Consuming -/

/-- Pops the operations of a table, oldest first. -/
structure OrderedConsumer where
  table : TableName
  signal : TokenCounter
  stats : ChannelStats := {}
deriving Repr, DecidableEq

/-- Queue entries as work items, and how many of them are none. -/
def decodeEntries (entries : List String) : List WorkItem × Nat :=
  (entries.filterMap WorkItem.decode, entries.countP fun e => (WorkItem.decode e).isNone)

namespace OrderedConsumer

variable {σ : Type} [SharedStore σ]

/-- Count what is already queued, for a consumer that has subscribed. -/
def countBacklog (t : TableName) (id : Nat) : StoreOp σ OrderedConsumer := do
  let backlog ← SharedStore.orAbandon id (SharedStore.listLength t.queue)
  return { table := t, signal := { name := t.name, subscription := id, pending := backlog } }

/-- Subscribe to the table's tokens, then count what is already queued. -/
def attach (t : TableName) : StoreOp σ OrderedConsumer := do
  countBacklog t (← SharedStore.subscribe [t.channel] [])

/-- Pop at most `max` operations. Entries that are no work items are passed over and counted. -/
def pop (max : Nat) (c : OrderedConsumer) (s : σ) :
    Except BusError (List WorkItem) × OrderedConsumer × σ :=
  let c := { c with stats := c.stats.popCalled }
  if max = 0 then (.ok [], c, s)
  else
    match (SharedStore.evalEntries (.popFront c.table.queue max)).run s with
    | (.error e, s) => (.error e, c, s)
    | (.ok entries, s) =>
      let (items, malformed) := decodeEntries entries
      (.ok items,
       { c with signal := c.signal.settle entries.length max,
                stats := c.stats.popReturned items.length malformed }, s)

end OrderedConsumer

end ControlBus
