-- The four kinds of consumers behind one set of operations, so that whoever schedules or
-- drains them need not know the kind.
import ControlBus.Channel.Change
import ControlBus.Channel.Coalescing
import ControlBus.Channel.Message
import ControlBus.Channel.Ordered

namespace ControlBus

/-- The receiving end of a channel. -/
inductive Consumer where
  | ordered (c : OrderedConsumer)
  | coalescing (c : CoalescingConsumer)
  | change (c : ChangeConsumer)
  | message (c : MessageConsumer)
deriving Repr, DecidableEq

namespace Consumer

def name : Consumer → String
  | ordered c => c.table.name
  | coalescing c => c.table.name
  | change c => c.table.name
  | message c => c.channel

/-- What a consumer follows: a queue, a set of pending keys, a pattern or a channel. -/
def follows : Consumer → String
  | ordered c => c.table.queue
  | coalescing c => c.table.pendingSet
  | change c => c.table.keyspacePattern
  | message c => c.channel

/-- The subscription that wakes the consumer. -/
def subscription : Consumer → Nat
  | ordered c => c.signal.subscription
  | coalescing c => c.signal.subscription
  | change c => c.buffer.subscription
  | message c => c.buffer.subscription

/-- Whether the consumer keeps hold of the store itself, and not of its subscription only. -/
def holdsStore : Consumer → Bool
  | message _ => false
  | _ => true

def stats : Consumer → ChannelStats
  | ordered c => c.stats
  | coalescing c => c.stats
  | change c => c.stats
  | message c => c.stats

/-- Take in what has arrived. -/
def poll (b : Switchboard) : Consumer → Reading × Consumer × Switchboard
  | ordered c =>
    let (reading, signal, b) := c.signal.poll b
    (reading, ordered { c with signal }, b)
  | coalescing c =>
    let (reading, signal, b) := c.signal.poll b
    (reading, coalescing { c with signal }, b)
  | change c =>
    let (reading, buffer, b) := c.buffer.poll b
    (reading, change { c with buffer }, b)
  | message c =>
    let (reading, buffer, b) := c.buffer.poll b
    (reading, message { c with buffer }, b)

/-- Whether there is work to pop, as far as the consumer knows. -/
def hasData : Consumer → Bool
  | ordered c => c.signal.hasData
  | coalescing c => c.signal.hasData
  | change c => 0 < c.pending
  | message c => 0 < c.buffer.size

/-- Whether there is more than one unit of work. -/
def hasMore : Consumer → Bool
  | ordered c => c.signal.hasMore
  | coalescing c => c.signal.hasMore
  | change c => 1 < c.pending
  | message c => 1 < c.buffer.size

/-- Account for one dispatch. Buffers need none: pops shorten them. -/
def afterRead : Consumer → Consumer
  | ordered c => ordered { c with signal := c.signal.afterRead }
  | coalescing c => coalescing { c with signal := c.signal.afterRead }
  | c => c

/-- Become ready again after a failed pop. Buffers still hold what could not be popped. -/
def rearm : Consumer → Consumer
  | ordered c => ordered { c with signal := c.signal.rearm }
  | coalescing c => coalescing { c with signal := c.signal.rearm }
  | c => c

/-- Pop at most `max` work items. -/
def pop [SharedStore σ] (max : Nat) (s : σ) :
    Consumer → Except BusError (List WorkItem) × Consumer × σ
  | ordered c =>
    let (items, c, s) := c.pop max s
    (items, ordered c, s)
  | coalescing c =>
    let (items, c, s) := c.pop max s
    (items, coalescing c, s)
  | change c =>
    let (items, c, s) := c.pop max s
    (items, change c, s)
  | message c =>
    let (items, c) := c.pop max
    (.ok items, message c, s)

end Consumer

end ControlBus
