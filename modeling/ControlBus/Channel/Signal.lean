-- How a consumer notices work, and what it counts. A token counter counts content-free wake-ups,
-- for channels whose data lies in the store; a notification buffer keeps the notifications
-- themselves.
import ControlBus.Error
import ControlBus.Store.Switchboard

namespace ControlBus

/-- What one look at a source of events brings. -/
inductive Reading where
  /-- Nothing new. -/
  | pending
  /-- So many new units, at least one. -/
  | units (n : Nat)
  /-- The source has failed for good. -/
  | failed (error : BusError)
deriving Repr, DecidableEq

namespace Reading

/-- A reading as a count: nothing new counts as none. -/
def toCount : Reading → Except BusError Nat
  | pending => .ok 0
  | units n => .ok n
  | failed e => .error e

end Reading

/-- Read everything that has arrived at a subscription, at most one inbox at a time. The
reading fails once the subscription is exhausted. -/
def drainSubscription (name : String) (id : Nat) (b : Switchboard) :
    Reading × List Notification × Switchboard :=
  if b.exhausted id then (.failed (.transportClosed name), [], b)
  else
    let (got, b) := b.read b.capacity id
    (if got.isEmpty then .pending else .units got.length, got, b)

/-- Counts wake-up tokens. The count only estimates the work left in the store; every pop
settles it. -/
structure TokenCounter where
  name : String
  subscription : Nat
  pending : Nat
deriving Repr, DecidableEq

namespace TokenCounter

/-- Take in the tokens that have arrived. -/
def poll (c : TokenCounter) (b : Switchboard) : Reading × TokenCounter × Switchboard :=
  let (reading, got, b) := drainSubscription c.name c.subscription b
  (reading, { c with pending := c.pending + got.length }, b)

def hasData (c : TokenCounter) : Bool := 0 < c.pending
def hasMore (c : TokenCounter) : Bool := 1 < c.pending

/-- Account for one dispatch. -/
def afterRead (c : TokenCounter) : TokenCounter := { c with pending := c.pending - 1 }

/-- Become ready again after a failed pop. -/
def rearm (c : TokenCounter) : TokenCounter := { c with pending := c.pending + 1 }

/-- Settle the count after a pop of at most `max` that found `popped`: a short pop proves that
no work is left, a full one that there may be more. -/
def settle (popped max : Nat) (c : TokenCounter) : TokenCounter :=
  { c with pending := if max ≤ popped then Nat.max c.pending 1 else 0 }

end TokenCounter

/-- Notifications taken in but not yet popped. -/
structure NotificationBuffer where
  name : String
  subscription : Nat
  buffered : List Notification := []
deriving Repr, DecidableEq

namespace NotificationBuffer

/-- Take in the notifications that have arrived. -/
def poll (c : NotificationBuffer) (b : Switchboard) :
    Reading × NotificationBuffer × Switchboard :=
  let (reading, got, b) := drainSubscription c.name c.subscription b
  (reading, { c with buffered := c.buffered ++ got }, b)

def size (c : NotificationBuffer) : Nat := c.buffered.length

def front? (c : NotificationBuffer) : Option Notification := c.buffered.head?

/-- Drop the oldest notification. -/
def popFront (c : NotificationBuffer) : NotificationBuffer :=
  { c with buffered := c.buffered.tail }

end NotificationBuffer

/-- The counters of a consumer. -/
structure ChannelStats where
  /-- Calls of pop, the failed ones included. -/
  pops : Nat := 0
  /-- Work items that pops returned. -/
  itemsPopped : Nat := 0
  /-- Entries or payloads that were no work items and were passed over. -/
  parseErrors : Nat := 0
deriving Repr, DecidableEq

namespace ChannelStats

def popCalled (s : ChannelStats) : ChannelStats := { s with pops := s.pops + 1 }

/-- Count what a pop returned and what it passed over. -/
def popReturned (items malformed : Nat) (s : ChannelStats) : ChannelStats :=
  { s with itemsPopped := s.itemsPopped + items, parseErrors := s.parseErrors + malformed }

def malformed (n : Nat) (s : ChannelStats) : ChannelStats :=
  { s with parseErrors := s.parseErrors + n }

end ChannelStats

end ControlBus
