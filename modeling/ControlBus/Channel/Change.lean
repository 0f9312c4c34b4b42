-- Change notifications: a consumer follows a table through what the store announces of its
-- records. A notification names the key only; unless it tells of a removal, the record is
-- read when it is popped, so it may have changed again by then.
import ControlBus.Channel.Reader
import ControlBus.Channel.Signal
import ControlBus.WorkItem

namespace ControlBus

/-- Whether the word of a notification means that the record is gone. -/
def isRemoval (word : String) : Bool := word = "del" || word = "expired" || word = "evicted"

/-- Follows the records of a table. -/
structure ChangeConsumer where
  table : TableName
  buffer : NotificationBuffer
  /-- Items ahead of every notification: first of all the records found at the start. -/
  ahead : List WorkItem := []
  stats : ChannelStats := {}
deriving Repr, DecidableEq

namespace ChangeConsumer

variable {σ : Type} [SharedStore σ]

/-- Subscribe to the changes of a table, then queue the records it already has. -/
def attach (t : TableName) : StoreOp σ ChangeConsumer := do
  let id ← SharedStore.subscribe [] [t.keyspacePattern]
  let found ← SharedStore.orAbandon id (TableReader.dump t)
  return {
    table := t
    buffer := { name := t.name, subscription := id }
    ahead := found.map fun r => { key := r.1, operation := .set, fields := r.2 } }

/-- How many items and notifications wait to be popped. -/
def pending (c : ChangeConsumer) : Nat := c.ahead.length + c.buffer.size

/-- What a notification tells; `none` if it is not about a record of the table. -/
def resolve (t : TableName) (n : Notification) : StoreOp σ (Option WorkItem) :=
  match afterStem? t.keyspaceStem n.channel with
  | none => pure none
  | some key =>
    if isRemoval n.payload then pure (some { key, operation := .del })
    else do return some { key, operation := .set, fields := ← SharedStore.fields (t.recordKey key) }

/-- Resolve buffered notifications until `room` items are found. Answers the items, how many
notifications told nothing, what is still buffered, and the error that ended it. A notification
whose record could not be read stays. -/
def collect (t : TableName) : Nat → List Notification → σ →
    (List WorkItem × Nat × List Notification × Option BusError) × σ
  | _, [], s => (([], 0, [], none), s)
  | 0, buffered, s => (([], 0, buffered, none), s)
  | room + 1, n :: rest, s =>
    match (resolve t n).run s with
    | (.error e, s) => (([], 0, n :: rest, some e), s)
    | (.ok none, s) =>
      let ((items, foreign, left, failure), s) := collect t (room + 1) rest s
      ((items, foreign + 1, left, failure), s)
    | (.ok (some item), s) =>
      let ((items, foreign, left, failure), s) := collect t room rest s
      ((item :: items, foreign, left, failure), s)

/-- Pop at most `max` items. If a record cannot be read, the items found so far go back in front
of all that waits. -/
def pop (max : Nat) (c : ChangeConsumer) (s : σ) :
    Except BusError (List WorkItem) × ChangeConsumer × σ :=
  let first := c.ahead.take max
  let ahead := c.ahead.drop max
  let ((items, foreign, left, failure), s) :=
    collect c.table (max - first.length) c.buffer.buffered s
  let buffer := { c.buffer with buffered := left }
  let stats := c.stats.popCalled.malformed foreign
  match failure with
  | some e => (.error e, { c with buffer, stats, ahead := first ++ items ++ ahead }, s)
  | none =>
    let found := first ++ items
    (.ok found, { c with buffer, ahead, stats := stats.popReturned found.length 0 }, s)

end ChangeConsumer

end ControlBus
