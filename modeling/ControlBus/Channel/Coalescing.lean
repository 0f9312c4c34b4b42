-- Coalescing state: producers stage fields and deletions under a key, and however often a key
-- changes, the consumer gets it once, with all that was staged since.
import ControlBus.Channel.Signal
import ControlBus.Store.Shared
import ControlBus.WorkItem

namespace ControlBus

/-! ## Producing -/

namespace CoalescingState

variable {σ : Type} [SharedStore σ]

/-- Stage fields of a key; those not named keep what is staged. No fields stage nothing. -/
def set (t : TableName) (key : String) (fields : FieldList) : StoreOp σ Unit :=
  if fields.isEmpty then pure ()
  else do let _ ← SharedStore.evalCount (.stageWrite t.layout key fields wakeToken)

/-- Stage the deletion of a key, and forget its staged fields. -/
def del (t : TableName) (key : String) : StoreOp σ Unit := do
  let _ ← SharedStore.evalCount (.stageDelete t.layout key wakeToken)

/-- Stage several writes; the first failure ends them. -/
def setBatch (t : TableName) : List (String × FieldList) → StoreOp σ Unit
  | [] => pure ()
  | (key, fields) :: rest => do set t key fields; setBatch t rest

/-- Stage several deletions; the first failure ends them. -/
def delBatch (t : TableName) : List String → StoreOp σ Unit
  | [] => pure ()
  | key :: rest => do del t key; delBatch t rest

/-- How many keys are staged and not yet popped. -/
def pendingCount (t : TableName) : StoreOp σ Nat := SharedStore.setSize t.layout.pendingSet

/-- Forget all pending work; answers how many keys were dropped. -/
def clear (t : TableName) : StoreOp σ Nat := SharedStore.evalCount (.coalescedClear t.layout)

end CoalescingState

/-! ## Consuming -/

/-- Moves what is staged into the visible table, key by key. -/
structure CoalescingConsumer where
  table : TableName
  signal : TokenCounter
  stats : ChannelStats := {}
deriving Repr, DecidableEq

/-- A popped key as a work item: without fields it was deleted. -/
def Popped.toItem (p : Popped) : WorkItem :=
  if p.2.isEmpty then { key := p.1, operation := .del }
  else { key := p.1, operation := .set, fields := p.2 }

namespace CoalescingConsumer

variable {σ : Type} [SharedStore σ]

/-- Count the keys already pending, for a consumer that has subscribed. -/
def countBacklog (t : TableName) (id : Nat) : StoreOp σ CoalescingConsumer := do
  let backlog ← SharedStore.orAbandon id (SharedStore.setSize t.layout.pendingSet)
  return { table := t, signal := { name := t.name, subscription := id, pending := backlog } }

/-- Subscribe to the table's tokens, then count the keys already pending. -/
def attach (t : TableName) : StoreOp σ CoalescingConsumer := do
  countBacklog t (← SharedStore.subscribe [t.layout.channel] [])

/-- Pop at most `max` keys. -/
def pop (max : Nat) (c : CoalescingConsumer) (s : σ) :
    Except BusError (List WorkItem) × CoalescingConsumer × σ :=
  let c := { c with stats := c.stats.popCalled }
  if max = 0 then (.ok [], c, s)
  else
    match (SharedStore.evalRecords (.coalescedPop c.table.layout max)).run s with
    | (.error e, s) => (.error e, c, s)
    | (.ok records, s) =>
      (.ok (records.map Popped.toItem),
       { c with signal := c.signal.settle records.length max,
                stats := c.stats.popReturned records.length 0 }, s)

end CoalescingConsumer

end ControlBus
