-- A simulated process: its store, its clock, and everything that it has opened. Things are
-- called by name, but those who use a thing hold it by number, so a name may pass on.
import ControlBus.Simulation.StoreStep

namespace ControlBus.Simulation

/-- A member of the event loop. -/
inductive Member where
  | worker (id : Nat)
  | source (id : Nat)
deriving Repr, DecidableEq

/-- What is to happen later. -/
inductive Action where
  | store (step : StoreStep)
  | notify (source n : Nat)
  /-- Report a constraint as resolved, then signal an event. -/
  | resolve (desk : Desk) (c : Constraint) (trigger : Option Nat)
deriving Repr, DecidableEq

structure Appointment where
  due : Nat
  action : Action
deriving Repr, DecidableEq

structure World where
  store : Backend
  /-- Whether the process itself still holds the store. -/
  holdsStore : Bool := true
  /-- The time, in milliseconds. -/
  now : Nat := 0
  sources : List Source := []
  sourceNames : Assoc String Nat := []
  multiplexer : Multiplexer Nat := {}
  /-- Subscriptions that are read as they are. -/
  subscriptions : Assoc String Nat := []
  counters : Assoc String TokenCounter := []
  buffers : Assoc String NotificationBuffer := []
  workers : List Worker := []
  workerNames : Assoc String Nat := []
  lots : List Lot := []
  lotNames : Assoc String Nat := []
  /-- Those who follow an executor's completed items, and how many they have seen. -/
  followers : Assoc String (Nat × Nat) := []
  loop : Option (EventLoop Member) := none
  /-- What is to happen later, by time. -/
  agenda : List Appointment := []

namespace World

/-! ## The store -/

def board (w : World) : Switchboard := w.store.board

def withBoard (b : Switchboard) (w : World) : World := { w with store := w.store.withBoard b }

/-- Run an operation on the store. -/
def useStore (op : StoreOp Backend α) (w : World) : Except BusError α × World :=
  let (result, store) := op.run w.store
  (result, { w with store })

/-! ## Sources -/

def source? (w : World) (id : Nat) : Option Source := w.sources[id]?

def setSource (id : Nat) (s : Source) (w : World) : World :=
  { w with sources := w.sources.set id s }

def updateSource (id : Nat) (f : Source → Source) (w : World) : World :=
  { w with sources := w.sources.modify id f }

/-- Whether a property holds of a source; of none it does not. -/
def sourceIs (p : Source → Bool) (id : Nat) (w : World) : Bool := (w.source? id).any p

/-- Take in what has arrived at a source. -/
def pollSource (id : Nat) (w : World) : Reading × World :=
  match w.source? id with
  | none => (.pending, w)
  | some s =>
    let (reading, s, b) := s.poll w.now w.board
    (reading, (w.setSource id s).withBoard b)

/-- Pop items from a source; only consumers have any. -/
def popSource (id max : Nat) (w : World) : Except BusError (List WorkItem) × World :=
  match w.source? id with
  | some (.consumer c) =>
    let (items, c, store) := c.pop max w.store
    (items, { w with store }.setSource id (.consumer c))
  | _ => (.ok [], w)

def status (id : Nat) (w : World) : Status :=
  match w.source? id with
  | some s => s.status
  | none => { hasData := false, hasMore := false }

/-- How the multiplexer uses the sources. -/
def sourceOps : SourceOps Nat World where
  poll := pollSource
  hasData id w := w.sourceIs Source.hasData id
  hasMore id w := w.sourceIs Source.hasMore id
  afterRead id w := w.updateSource id Source.afterRead

/-- Open a source under a name. -/
def addSource (name : String) (s : Source) (w : World) : World :=
  { w with
    sources := w.sources ++ [s]
    sourceNames := Assoc.put w.sourceNames name w.sources.length }

/-- Signal an event. -/
def notify (id n : Nat) (w : World) : World :=
  w.updateSource id fun
    | .event e => .event (e.notify n)
    | s => s

/-! ## Executors -/

def worker? (w : World) (id : Nat) : Option Worker := w.workers[id]?

def updateWorker (id : Nat) (f : Worker → Worker) (w : World) : World :=
  { w with workers := w.workers.modify id f }

/-- Report a constraint as resolved. -/
def resolve (desk : Desk) (c : Constraint) (w : World) : World :=
  match desk with
  | .worker id => w.updateWorker id fun k => { k with inbox := k.inbox ++ [c] }
  | .queue id => { w with lots := w.lots.modify id fun l => { l with inbox := l.inbox ++ [c] } }

/-- Let the handler of an executor handle an item. -/
def handle (id : Nat) (item : WorkItem) (w : World) : Verdict × World :=
  match w.worker? id with
  | none => (.done, w)
  | some k =>
    let (verdict, links, handler) := k.handler.handle item
    (verdict, links.foldl (fun w l => w.resolve l.desk l.constraint)
      (w.updateWorker id ({ · with handler })))

/-- Take the resolutions reported to an executor. -/
def takeInbox (id : Nat) (w : World) : List Constraint × World :=
  (((w.worker? id).map (·.inbox)).getD [], w.updateWorker id ({ · with inbox := [] }))

/-- How an executor works in this process. -/
def workplace (id : Nat) (k : Worker) : Workplace World where
  pop := popSource k.channel
  rearm := updateSource k.channel Source.rearm
  handle := handle id
  resolved := takeInbox id
  now := World.now

/-- Let an executor pop a batch and hand it over. -/
def executeWorker (id : Nat) (w : World) : Except BusError Unit × World :=
  match w.worker? id with
  | none => (.ok (), w)
  | some k =>
    let (result, executor, w) := k.executor.execute (workplace id k) w
    (result, w.updateWorker id ({ · with executor }))

/-- Let an executor hand over again what can be done now. -/
def sweepWorker (id : Nat) (w : World) : Except BusError Unit × World :=
  match w.worker? id with
  | none => (.ok (), w)
  | some k =>
    let (executor, w) := k.executor.sweep (workplace id k) w
    (.ok (), w.updateWorker id ({ · with executor }))

/-! ## Members of the event loop -/

/-- The source that a member waits for. -/
def channelOf (m : Member) (w : World) : Nat :=
  match m with
  | .source id => id
  | .worker id => ((w.worker? id).map (·.channel)).getD w.sources.length

/-- Run a source as a member. -/
def runSource (run : Source → Except BusError Unit × Source) (id : Nat) (w : World) :
    Except BusError Unit × World :=
  match w.source? id with
  | none => (.ok (), w)
  | some s =>
    let (result, s) := run s
    (result, w.setSource id s)

/-- How the event loop uses its members. -/
def memberOps : MemberOps Member World where
  poll m w := w.pollSource (w.channelOf m)
  hasData m w := w.sourceIs Source.hasData (w.channelOf m)
  hasMore m w := w.sourceIs Source.hasMore (w.channelOf m)
  afterRead m w := w.updateSource (w.channelOf m) Source.afterRead
  execute
    | .worker id, w => w.executeWorker id
    | .source id, w => w.runSource Source.execute id
  sweep
    | .worker id, w => w.sweepWorker id
    | .source id, w => w.runSource Source.sweep id
  now := World.now

/-- The items that a handler logged, as they are answered: those of a random draw by key. -/
def inKeyOrder (atRandom : Bool) (key : α → String) (items : List α) : List α :=
  if atRandom then items.mergeSort fun a b => decide (key a ≤ key b) else items

/-- Whether the items of a source come out in random order. -/
def drawsAtRandom (id : Nat) (w : World) : Bool := w.sourceIs Source.drawsAtRandom id

/-- What the handlers of the named executors did, and their logs begun anew. -/
def takeSeen (w : World) : Seen × World :=
  let seen := w.workerNames.filterMap fun (name, id) =>
    match w.worker? id with
    | none => none
    | some k =>
      if k.handler.log.isEmpty then none
      else some (name, inKeyOrder (w.drawsAtRandom k.channel) (·.1.key) k.handler.log)
  let named := w.workerNames.map (·.2)
  (seen, { w with workers := w.workers.mapIdx fun i k =>
    if named.contains i then { k with handler := { k.handler with log := [] } } else k })

end World

end ControlBus.Simulation
