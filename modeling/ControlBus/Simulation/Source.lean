-- The sources of a simulated process: consumers, events and timers, and scripted sources that
-- are fed by hand and fail on demand.
import ControlBus.Channel.Consumer
import ControlBus.Scheduler.Event
import ControlBus.Scheduler.Timer

namespace ControlBus.Simulation

/-- A source that is fed by hand. -/
structure ScriptedSource where
  name : String
  /-- Units taken in and not yet dispatched. -/
  pending : Nat
  /-- Units fed and not yet taken in. -/
  incoming : Nat := 0
  broken : Bool := false
  /-- How many executions are still to fail. -/
  failExecute : Nat
  /-- How many sweeps are still to fail. -/
  failSweep : Nat
  /-- What was called, oldest first. -/
  log : List String := []
deriving Repr, DecidableEq

namespace ScriptedSource

def poll (s : ScriptedSource) : Reading × ScriptedSource :=
  if s.broken then (.failed (.transportClosed s.name), s)
  else if s.incoming = 0 then (.pending, s)
  else (.units s.incoming, { s with pending := s.pending + s.incoming, incoming := 0 })

/-- Note a call, which fails if `due` failures are left. -/
def called (call : String) (due : Nat) (s : ScriptedSource) :
    Except BusError Unit × ScriptedSource :=
  (if due = 0 then .ok () else .error (.store call "scripted"),
   { s with log := s.log ++ [call] })

def execute (s : ScriptedSource) : Except BusError Unit × ScriptedSource :=
  { s with failExecute := s.failExecute - 1 }.called "execute" s.failExecute

def sweep (s : ScriptedSource) : Except BusError Unit × ScriptedSource :=
  { s with failSweep := s.failSweep - 1 }.called "sweep" s.failSweep

end ScriptedSource

/-- Anything that the scheduler can wait for. -/
inductive Source where
  | consumer (c : Consumer)
  | event (e : Event)
  | timer (t : Timer)
  | scripted (s : ScriptedSource)
deriving Repr, DecidableEq

/-- What a look at a source shows without changing it. -/
structure Status where
  hasData : Bool
  hasMore : Bool
  /-- The signals that an event has seen and not yet dispatched. -/
  buffered : Option Nat := none
deriving Repr, DecidableEq

namespace Source

def name : Source → String
  | consumer c => c.name
  | event e => e.name
  | timer t => t.name
  | scripted s => s.name

/-- Take in what has arrived. -/
def poll (now : Nat) (b : Switchboard) : Source → Reading × Source × Switchboard
  | consumer c =>
    let (reading, c, b) := c.poll b
    (reading, consumer c, b)
  | event e =>
    let (reading, e) := e.poll
    (reading, event e, b)
  | timer t =>
    let (reading, t) := t.poll now
    (reading, timer t, b)
  | scripted s =>
    let (reading, s) := s.poll
    (reading, scripted s, b)

def hasData : Source → Bool
  | consumer c => c.hasData
  | event e => e.hasData
  | timer t => t.hasData
  | scripted s => 0 < s.pending

/-- Whether more than one unit of work is left. One dispatch takes all of an event or a timer. -/
def hasMore : Source → Bool
  | consumer c => c.hasMore
  | scripted s => 1 < s.pending
  | _ => false

/-- Account for one dispatch. -/
def afterRead : Source → Source
  | consumer c => consumer c.afterRead
  | event e => event e.afterRead
  | timer t => timer t.afterRead
  | scripted s => scripted { s with pending := s.pending - 1 }

/-- Become ready again after a failed pop. -/
def rearm : Source → Source
  | consumer c => consumer c.rearm
  | s => s

/-- Run the source as a member of an event loop; only a scripted one does anything. -/
def execute : Source → Except BusError Unit × Source
  | scripted s =>
    let (result, s) := s.execute
    (result, scripted s)
  | s => (.ok (), s)

def sweep : Source → Except BusError Unit × Source
  | scripted s =>
    let (result, s) := s.sweep
    (result, scripted s)
  | s => (.ok (), s)

def consumer? : Source → Option Consumer
  | consumer c => some c
  | _ => none

/-- Whether items come out in random order. -/
def drawsAtRandom : Source → Bool
  | consumer (.coalescing _) => true
  | _ => false

/-- When a timer ticks next. -/
def nextTick? : Source → Option Nat
  | timer t => some t.due
  | _ => none

def status (s : Source) : Status where
  hasData := s.hasData
  hasMore := s.hasMore
  buffered := match s with
    | event e => some e.buffered
    | _ => none

end Source

end ControlBus.Simulation
