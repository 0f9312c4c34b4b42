-- Self-contained messages: the whole change travels in the notification, so a consumer sees
-- every event with the data it had when it was sent, and reads nothing back.
import ControlBus.Channel.Signal
import ControlBus.Store.Shared
import ControlBus.WorkItem

namespace ControlBus

/-! ## Producing -/

namespace Message

variable {σ : Type} [SharedStore σ]

/-- Publish one change; answers how many subscriptions it reached. A change whose text is too
long for the store is refused. -/
def send (channel : String) (item : WorkItem) : StoreOp σ Nat := do
  let payload := item.encode
  liftM (SharedStore.checkSize payload.utf8ByteSize (SharedStore.maxPayload (← getThe σ)))
  SharedStore.publish channel payload

def set (channel key : String) (fields : FieldList) : StoreOp σ Nat :=
  send channel { key, operation := .set, fields }

def del (channel key : String) : StoreOp σ Nat := send channel { key, operation := .del }

end Message

/-! ## Consuming -/

/-- Buffers and decodes the messages of a channel. -/
structure MessageConsumer where
  channel : String
  buffer : NotificationBuffer
  stats : ChannelStats := {}
deriving Repr, DecidableEq

/-- The first message that can be decoded, how many before it cannot, and what follows it. -/
def nextMessage : List Notification → Option WorkItem × Nat × List Notification
  | [] => (none, 0, [])
  | n :: rest =>
    match WorkItem.decode n.payload with
    | some item => (some item, 0, rest)
    | none =>
      let (item, malformed, rest) := nextMessage rest
      (item, malformed + 1, rest)

/-- Notifications without the leading ones that cannot be decoded, and how many those are. -/
def dropMalformed : List Notification → Nat × List Notification
  | [] => (0, [])
  | n :: rest =>
    match WorkItem.decode n.payload with
    | some _ => (0, n :: rest)
    | none =>
      let (malformed, rest) := dropMalformed rest
      (malformed + 1, rest)

/-- The first `max` messages that can be decoded, how many were passed over, and what is left. -/
def takeMessages : Nat → List Notification → List WorkItem × Nat × List Notification
  | 0, buffered => ([], 0, buffered)
  | max + 1, buffered =>
    match nextMessage buffered with
    | (none, malformed, rest) => ([], malformed, rest)
    | (some item, malformed, rest) =>
      let (items, more, rest) := takeMessages max rest
      (item :: items, malformed + more, rest)

namespace MessageConsumer

variable {σ : Type} [SharedStore σ]

/-- Subscribe to a channel. -/
def attach (channel : String) : StoreOp σ MessageConsumer := do
  let id ← SharedStore.subscribe [channel] []
  return { channel, buffer := { name := channel, subscription := id } }

/-- The next message without taking it. What cannot be decoded before it is discarded. -/
def peek (c : MessageConsumer) : Option WorkItem × MessageConsumer :=
  let (malformed, buffered) := dropMalformed c.buffer.buffered
  (buffered.head?.bind fun n => WorkItem.decode n.payload,
   { c with buffer := { c.buffer with buffered }, stats := c.stats.malformed malformed })

/-- Pop at most `max` messages. -/
def pop (max : Nat) (c : MessageConsumer) : List WorkItem × MessageConsumer :=
  let (items, malformed, left) := takeMessages (min max c.buffer.buffered.length) c.buffer.buffered
  (items, { c with buffer := { c.buffer with buffered := left },
                   stats := c.stats.popCalled.popReturned items.length malformed })

end MessageConsumer

end ControlBus
