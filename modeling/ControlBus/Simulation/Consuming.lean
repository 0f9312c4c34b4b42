-- Using sources by hand: open them, read them, and pop what a consumer holds.
import ControlBus.Simulation.Named

namespace ControlBus.Simulation

/-- A kind of consumer and what it follows. -/
inductive ConsumerKind where
  | ordered (t : TableName)
  | coalescing (t : TableName)
  | change (t : TableName)
  | message (channel : String)
deriving Repr, DecidableEq

namespace World

/-- The consumer of a kind, freshly attached. -/
def attach : ConsumerKind → StoreOp Backend Consumer
  | .ordered t => Consumer.ordered <$> OrderedConsumer.attach t
  | .coalescing t => Consumer.coalescing <$> CoalescingConsumer.attach t
  | .change t => Consumer.change <$> ChangeConsumer.attach t
  | .message channel => Consumer.message <$> MessageConsumer.attach channel

/-- Open a consumer; one of the same name is replaced only if that succeeds. -/
def openConsumer (name : String) (kind : ConsumerKind) (w : World) : Answer × World :=
  match w.useStore (attach kind) with
  | (.error e, w) => (.failed e, w)
  | (.ok c, w) =>
    (.opened c.name (Source.consumer c).status, w.addSource name (.consumer c))

def resetTimer (name : String) (w : World) : Answer × World :=
  match w.sourceNamed? name with
  | some (id, .timer t) =>
    let s := Source.timer (t.reset w.now)
    (.status s.status, w.setSource id s)
  | _ => (.done, w)

def takeCalls (name : String) (w : World) : Answer × World :=
  match w.sourceNamed? name with
  | some (id, .scripted s) =>
    (.texts s.log, w.setSource id (.scripted { s with log := [] }))
  | _ => (.done, w)

def read (name : String) (w : World) : Answer × World :=
  match Assoc.get? w.sourceNames name with
  | none => (.done, w)
  | some id =>
    let (reading, w) := w.pollSource id
    (.looked (w.status id) (some reading.toCount), w)

def pop (name : String) (max : Nat) (w : World) : Answer × World :=
  match Assoc.get? w.sourceNames name with
  | none => (.done, w)
  | some id =>
    let atRandom := w.drawsAtRandom id
    let (items, w) := w.popSource id max
    (.popped (w.status id) (items.map (inKeyOrder atRandom (·.key))), w)

/-- Pop as long as there is data: the sizes of the pops, all items, and the error that ended
it. Every pop but the last takes something, so `bound` only has to be large. -/
def popAll (id max : Nat) : Nat → World → Except BusError (List Nat × List WorkItem) × World
  | 0, w => (.ok ([], []), w)
  | bound + 1, w =>
    if w.sourceIs Source.hasData id then
      match w.popSource id max with
      | (.error e, w) => (.error e, w)
      | (.ok items, w) =>
        match popAll id max bound w with
        | (.error e, w) => (.error e, w)
        | (.ok (sizes, more), w) => (.ok (items.length :: sizes, items ++ more), w)
    else (.ok ([], []), w)

/-- More steps than any run takes. -/
def plenty : Nat := 1000000

def drain (name : String) (max : Nat) (w : World) : Answer × World :=
  match Assoc.get? w.sourceNames name with
  | none => (.done, w)
  | some id =>
    match w.popAll id max plenty with
    | (.error e, w) => (.failed e, w)
    | (.ok (sizes, items), w) =>
      (.drained (w.status id) sizes (inKeyOrder (w.drawsAtRandom id) (·.key) items), w)

def peek (name : String) (w : World) : Answer × World :=
  match w.sourceNamed? name with
  | some (id, .consumer (.message c)) =>
    let (item, c) := c.peek
    let s := Source.consumer (.message c)
    (.peeked s.status item, w.setSource id s)
  | _ => (.done, w)

def channelStats (name : String) (w : World) : Answer × World :=
  match w.sourceNamed? name with
  | some (_, .consumer c) => (.channelStats c.stats (w.board.dropped c.subscription), w)
  | _ => (.done, w)

end World

end ControlBus.Simulation
