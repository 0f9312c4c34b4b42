-- Executors and retry queues of a simulated process: who handles what, and what came of it.
import ControlBus.Simulation.Named

namespace ControlBus.Simulation.World

/-! ## Executors -/

def openExecutor (name consumer : String) (config : BusConfig) (batch : Option Nat) (w : World) :
    Answer × World :=
  match w.sourceNamed? consumer with
  | some (id, s) =>
    let e := Executor.ofSettings (config.channel s.name).batchSize
      (config.retry.stuckThresholdSecs * 1000)
    let e := match batch with
      | some n => e.withBatchSize n
      | none => e
    (.count e.batchSize,
     { w with
        workers := w.workers ++ [{ channel := id, executor := e }]
        workerNames := Assoc.put w.workerNames name w.workers.length })
  | none => (.done, w)

def changeHandler (name : String) (f : Handler → Handler) (w : World) : Answer × World :=
  match Assoc.get? w.workerNames name with
  | some id => (.done, w.updateWorker id fun k => { k with handler := f k.handler })
  | none => (.done, w)

def unblock (name key : String) (w : World) : Answer × World :=
  match w.workerNamed? name with
  | some (id, k) =>
    (.truth (Assoc.has k.handler.blocks key),
     w.updateWorker id fun k =>
      { k with handler := { k.handler with blocks := Assoc.erase k.handler.blocks key } })
  | none => (.done, w)

/-- Run an executor, and tell what came of it. -/
def runWorker (run : Nat → World → Except BusError Unit × World) (name : String) (w : World) :
    Answer × World :=
  match w.workerNamed? name with
  | none => (.done, w)
  | some (id, k) =>
    let (result, w) := run id w
    let (seen, w) := w.takeSeen
    (.executed (w.status k.channel) result seen, w)

def queueReport (q : RetryQueue) : QueueReport where
  blocked := q.blockedSize
  ready := q.readySize
  stuck := q.stuckCount

def executorReport (name : String) (w : World) : Answer × World :=
  match w.workerNamed? name with
  | none => (.done, w)
  | some (_, k) =>
    (.executor {
      stats := k.executor.stats
      queue := queueReport k.executor.retry
      channel := w.titleOf k.channel
      channelPops := (((w.source? k.channel).bind Source.consumer?).map (·.stats.pops)).getD 0 }, w)

/-- Follow the completed items of an executor from now on. -/
def followCompleted (name executor : String) (w : World) : Answer × World :=
  match w.workerNamed? executor with
  | none => (.done, w)
  | some (id, k) =>
    (.done,
     { w with followers := Assoc.put w.followers name (id, k.executor.completed.sent) })

def takeCompleted (name : String) (w : World) : Answer × World :=
  match Assoc.get? w.followers name with
  | none => (.done, w)
  | some (id, position) =>
    match w.worker? id with
    | none => (.done, w)
    | some k =>
      let (items, lost) := k.executor.completed.receive position
      (.completed (inKeyOrder (w.drawsAtRandom k.channel) (·.key) items) lost,
       { w with followers := Assoc.put w.followers name (id, k.executor.completed.sent) })

/-! ## Retry queues -/

def openQueue (name : String) (stuckMs : Nat) (w : World) : Answer × World :=
  (.done,
   { w with
      lots := w.lots ++ [{ queue := { threshold := stuckMs } }]
      lotNames := Assoc.put w.lotNames name w.lots.length })

/-- Change a retry queue, and tell how it then looks. -/
def changeLot (name : String) (f : Lot → Option (List WorkItem) × Lot) (w : World) :
    Answer × World :=
  match Assoc.get? w.lotNames name with
  | none => (.done, w)
  | some id =>
    match w.lots[id]? with
    | none => (.done, w)
    | some l =>
      let (taken, l) := f l
      (.queue (queueReport l.queue) taken, { w with lots := w.lots.set id l })

/-- Take the items whose constraint is resolved. -/
def takeReady (max now : Nat) (l : Lot) : Option (List WorkItem) × Lot :=
  let (items, queue) := l.queue.takeReady l.inbox now max
  (some items, { queue, inbox := [] })

end ControlBus.Simulation.World
