-- The steps of a simulation: everything that can be done to a simulated process or asked of it.
import ControlBus.Simulation.Consuming
import ControlBus.Simulation.Describe
import ControlBus.Simulation.Inboxes
import ControlBus.Simulation.Roster
import ControlBus.Simulation.Staff
import ControlBus.Simulation.Upkeep

namespace ControlBus.Simulation

/-- What can be shown in one line. -/
inductive Showable where
  | multiplexer
  | executor (name : String)
  | loop
  | store
deriving Repr, DecidableEq

inductive Step where
  | deed (d : Deed)
  | later (ms : Nat) (d : Deed)
  | now
  | advance (ms : Nat)
  -- the store and its subscriptions
  | injectFailures (n : Nat)
  | subscriberCount
  | dropStore
  | takeLog
  /-- The server sends a text on the event channel. -/
  | serverSends (text : String)
  /-- The server breaks the connection on which notifications come in. -/
  | serverHangsUp
  | subscribe (name : String) (channels patterns : List String)
  | receive (name : String) (max : Option Nat) (sorted : Bool)
  | glimpse (name : String)
  | awaitNotification (name : String) (ms : Nat)
  | unsubscribe (name : String)
  -- names and texts
  | names (t : TableName) (channel : String)
  | follows (name : String)
  | describe (what : Showable)
  -- counters and buffers
  | openCounter (name subscription : String) (seeded : Nat)
  | pollCounter (name : String)
  | afterReadCounter (name : String)
  | rearmCounter (name : String)
  | settleCounter (name : String) (popped max : Nat)
  | openBuffer (name subscription : String)
  | pollBuffer (name : String)
  | frontOfBuffer (name : String)
  | popBuffer (name : String)
  -- sources
  | openConsumer (name : String) (kind : ConsumerKind)
  | openEvent (name : String)
  | openTimer (name : String) (period : Nat)
  | resetTimer (name : String)
  | openScripted (name : String) (pending failExecute failSweep : Nat)
  | feed (name : String) (n : Nat)
  | breakSource (name : String)
  | emptySource (name : String)
  | takeCalls (name : String)
  | read (name : String)
  | afterRead (name : String)
  | rearm (name : String)
  | status (name : String)
  | pop (name : String) (max : Nat)
  | drain (name : String) (max : Nat)
  | peek (name : String)
  | stats (name : String)
  | close (name : String)
  -- the multiplexer
  | addSource (name : String) (priority : Int)
  | select (n timeout : Nat)
  | multiplexerState
  -- executors
  | openExecutor (name consumer : String) (config : BusConfig) (batch : Option Nat)
  | block (name key : String) (c : Constraint) (times : Option Nat)
  | unblock (name key : String)
  | link (name key : String) (resolver : String) (c : Constraint)
  | execute (name : String)
  | sweep (name : String)
  | executorState (name : String)
  | followCompleted (name executor : String)
  | takeCompleted (name : String)
  -- retry queues
  | openQueue (name : String) (stuckMs : Nat)
  | park (name : String) (item : WorkItem) (c : Constraint)
  | takeReady (name : String) (max : Nat)
  | queueState (name : String)
  -- the event loop
  | openLoop (settings : WaitConfig)
  | addMember (name : String) (priority : Int)
  | runOnce (n : Nat)
  /-- Run until a shutdown request that is looked at after every iteration is seen for the
  `polls`-th time. -/
  | runUntil (polls : Nat)
  | runFor (ms : Nat)
  | readMember (id : Nat)
  | loopState

namespace World

/-! ## Texts and statements -/

def describe (what : Showable) (w : World) : String :=
  match what with
  | .multiplexer => Describe.multiplexer w.multiplexer
  | .executor name =>
    ((w.workerNamed? name).map fun (_, k) =>
      Describe.executor (w.titleOf k.channel) k.executor).getD ""
  | .loop => (w.loop.map Describe.eventLoop).getD ""
  | .store => Describe.store w.store

/-- Change a store in a database; one in memory stays as it is. -/
def onServer (f : RelationalStore → RelationalStore) (w : World) : World :=
  match w.store with
  | .relational s => { w with store := .relational (f s) }
  | .memory _ => w

/-- The statements sent since the last time this was asked. -/
def takeLog (w : World) : Answer × World :=
  match w.store with
  | .relational s => (.statements s.log.reverse, w.onServer ({ · with log := [] }))
  | .memory _ => (.statements [], w)

/-! ## Steps -/

/-- Take a step, without letting go of anything yet. -/
def take (s : Step) (w : World) : Answer × World :=
  match s with
  | .deed d => w.doNow d
  | .later ms d =>
    (.done, ((w.action? d).map fun action => w.postpone ms action).getD w)
  | .now => (.count w.now, w)
  | .advance ms => (.done, w.advance ms)
  | .injectFailures n => (.done, { w with store := w.store.injectFailures n })
  | .subscriberCount => (.count w.board.subscriptions.length, w)
  | .dropStore => (.done, { w with holdsStore := false })
  | .takeLog => w.takeLog
  | .serverSends text => (.done, w.onServer (·.route text))
  | .serverHangsUp => (.done, w.onServer (·.stopListening))
  | .subscribe name channels patterns => w.subscribe name channels patterns
  | .receive name max sorted => w.receive name max sorted
  | .glimpse name =>
    match Assoc.get? w.subscriptions name with
    | none => (.done, w)
    | some id =>
      let (g, w) := World.glimpse id w
      (.glimpse g, w)
  | .awaitNotification name ms =>
    match Assoc.get? w.subscriptions name with
    | none => (.done, w)
    | some id =>
      let (g, w) := w.waitNotification id ms
      (.glimpse g, w)
  | .unsubscribe name =>
    (.truth (Assoc.has w.subscriptions name),
     { w with subscriptions := Assoc.erase w.subscriptions name })
  | .names t channel => (.texts [t.name, t.recordStem, t.name, channel], w)
  | .follows name => w.askSource name fun _ s => .text ((s.consumer?.map Consumer.follows).getD "")
  | .describe what => (.text (w.describe what), w)
  | .openCounter name subscription seeded => w.openCounter name subscription seeded
  | .pollCounter name => w.pollCounter name
  | .afterReadCounter name => w.changeCounter name TokenCounter.afterRead
  | .rearmCounter name => w.changeCounter name TokenCounter.rearm
  | .settleCounter name popped max => w.changeCounter name (TokenCounter.settle popped max)
  | .openBuffer name subscription => w.openBuffer name subscription
  | .pollBuffer name => w.pollBuffer name
  | .frontOfBuffer name => w.lookIntoBuffer name id
  | .popBuffer name => w.lookIntoBuffer name NotificationBuffer.popFront
  | .openConsumer name kind => w.openConsumer name kind
  | .openEvent name => (.done, w.addSource name (.event { name }))
  | .openTimer name period =>
    (.count period, w.addSource name (.timer (Timer.start name period w.now)))
  | .resetTimer name => w.resetTimer name
  | .openScripted name pending failExecute failSweep =>
    (.done, w.addSource name (.scripted { name, pending, failExecute, failSweep }))
  | .feed name n => w.script name fun s => { s with incoming := s.incoming + n }
  | .breakSource name => w.script name ({ · with broken := true })
  | .emptySource name => w.script name ({ · with pending := 0 })
  | .takeCalls name => w.takeCalls name
  | .read name => w.read name
  | .afterRead name => w.changeSource name Source.afterRead
  | .rearm name => w.changeSource name Source.rearm
  | .status name => w.changeSource name id
  | .pop name max => w.pop name max
  | .drain name max => w.drain name max
  | .peek name => w.peek name
  | .stats name => w.channelStats name
  | .close name =>
    (.truth (Assoc.has w.sourceNames name),
     { w with sourceNames := Assoc.erase w.sourceNames name })
  | .addSource name priority => w.registerSource name priority
  | .select n timeout =>
    let (selections, w) := w.selectMany timeout n
    (.picks selections w.multiplexer.workingSet.length, w)
  | .multiplexerState => (.multiplexer w.multiplexerReport, w)
  | .openExecutor name consumer config batch => w.openExecutor name consumer config batch
  | .block name key constraint left => w.changeHandler name fun h =>
      { h with blocks := Assoc.put h.blocks key { constraint, left } }
  | .unblock name key => w.unblock name key
  | .link name key resolver constraint =>
    match w.desk? resolver with
    | none => (.done, w)
    | some desk => w.changeHandler name fun h =>
        { h with links := h.links ++ [{ key, desk, constraint }] }
  | .execute name => w.runWorker executeWorker name
  | .sweep name => w.runWorker sweepWorker name
  | .executorState name => w.executorReport name
  | .followCompleted name executor => w.followCompleted name executor
  | .takeCompleted name => w.takeCompleted name
  | .openQueue name stuckMs => w.openQueue name stuckMs
  | .park name item c => w.changeLot name fun l =>
      (none, { l with queue := l.queue.park item c w.now })
  | .takeReady name max => w.changeLot name (World.takeReady max w.now)
  | .queueState name => w.changeLot name fun l => (none, l)
  | .openLoop settings => (.done, { w with loop := some { waitTimeout := settings.waitTimeoutMs } })
  | .addMember name priority => w.addMember name priority
  | .runOnce n =>
    let (done, w) := w.runMany n
    (.iterations done, w)
  | .runUntil polls => (w.runTimes (max polls 1)).seenAfter
  | .runFor ms => (w.runUntilTime (w.now + ms) plenty).seenAfter
  | .readMember id => w.readMember id
  | .loopState => w.loopReport

/-- Take a step, then let go of what nobody can reach any more. -/
def step (s : Step) (w : World) : Answer × World :=
  let (answer, w) := w.take s
  (answer, w.letGo)

/-- Take steps one after the other. -/
def run : List Step → World → List Answer × World
  | [], w => ([], w)
  | s :: rest, w =>
    let (answer, w) := w.step s
    let (answers, w) := run rest w
    (answer :: answers, w)

end World

end ControlBus.Simulation
