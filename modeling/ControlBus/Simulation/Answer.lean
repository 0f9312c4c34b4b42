-- What the steps of a simulation answer.
import ControlBus.Scheduler.EventLoop
import ControlBus.Simulation.Handler
import ControlBus.Simulation.Source
import ControlBus.Store.Relational

namespace ControlBus.Simulation

/-- All that a key of a store holds. -/
structure StoredKey where
  key : String
  listLength : Nat
  setSize : Nat
  fields : FieldList
deriving Repr, DecidableEq

/-- A look at a subscription. -/
inductive Glimpse where
  | pending
  | closed
  | timeout
  | arrived (n : Notification)
deriving Repr, DecidableEq

structure CounterState where
  pending : Nat
  hasData : Bool
  hasMore : Bool
  dropped : Nat
deriving Repr, DecidableEq

structure BufferState where
  size : Nat
  dropped : Nat
deriving Repr, DecidableEq

/-- What handlers did since the last time this was asked, by executor. -/
abbrev Seen := List (String × List (WorkItem × Bool))

structure MultiplexerReport where
  stats : MultiplexerStats
  ready : Nat
  /-- Name, priority and dispatches of each source, as they were added. -/
  sources : List (String × Int × Nat)
deriving Repr, DecidableEq

structure QueueReport where
  blocked : Nat
  ready : Nat
  stuck : Nat
deriving Repr, DecidableEq

structure ExecutorReport where
  stats : ExecutorStats
  queue : QueueReport
  channel : String
  channelPops : Nat
deriving Repr, DecidableEq

structure LoopReport where
  stats : LoopStats
  multiplexer : MultiplexerStats
  /-- Name and dispatches of each member, as they were added. -/
  members : List (String × Nat)
deriving Repr, DecidableEq

inductive Answer where
  /-- Done, and nothing to tell. -/
  | done
  | failed (error : BusError)
  | count (n : Nat)
  | truth (b : Bool)
  | text (s : String)
  | texts (list : List String)
  | fields (fields : FieldList)
  | foundFields (fields : Option FieldList)
  | foundText (text : Option String)
  | output (o : Output)
  | contents (keys : List StoredKey)
  | statements (sent : List Sent)
  /-- A new subscription and the size of its inbox. -/
  | subscribed (id capacity : Nat)
  | received (got : List Notification) (dropped : Nat)
  | glimpse (g : Glimpse)
  | counter (state : CounterState)
  /-- A counter after it was polled or told something; a reading only for a poll. -/
  | counterAfter (state : CounterState) (reading : Option Reading)
  | polledBuffer (state : BufferState) (reading : Reading)
  | buffered (state : BufferState) (n : Option Notification)
  | opened (name : String) (status : Status)
  | status (s : Status)
  /-- A source after something was done to it; a count only if it was read. -/
  | looked (s : Status) (read : Option (Except BusError Nat))
  | popped (s : Status) (items : Except BusError (List WorkItem))
  | drained (s : Status) (sizes : List Nat) (items : List WorkItem)
  | peeked (s : Status) (item : Option WorkItem)
  | channelStats (stats : ChannelStats) (dropped : Nat)
  | picks (selections : List Selection) (ready : Nat)
  | multiplexer (report : MultiplexerReport)
  | executed (s : Status) (result : Except BusError Unit) (seen : Seen)
  | executor (report : ExecutorReport)
  | completed (items : List WorkItem) (lost : Nat)
  /-- A retry queue, and the items taken from it if any were asked for. -/
  | queue (report : QueueReport) (taken : Option (List WorkItem))
  | iterations (done : List (Iteration × Seen))
  | seen (seen : Seen)
  /-- A member of the loop that was read. -/
  | member (name : String) (s : Status) (read : Except BusError Nat)
  | loop (report : LoopReport)

end ControlBus.Simulation
