-- Time in a simulated process. The clock moves only when the process waits or lets time pass;
-- on the way, what was put off until then happens at its hour.
import ControlBus.Simulation.World

namespace ControlBus.Simulation.World

/-- Let the clock show `t`, unless it is past that. -/
def moveTo (t : Nat) (w : World) : World := { w with now := max w.now t }

/-! ## Appointments -/

/-- An appointment among others, which are sorted by time. -/
def insertAppointment (a : Appointment) : List Appointment → List Appointment
  | [] => [a]
  | b :: rest => if a.due < b.due then a :: b :: rest else b :: insertAppointment a rest

/-- Put something off for `ms` milliseconds. -/
def postpone (ms : Nat) (action : Action) (w : World) : World :=
  { w with agenda := insertAppointment { due := w.now + ms, action } w.agenda }

def act (action : Action) (w : World) : World :=
  match action with
  | .store step => (w.useStore step.run).2
  | .notify source n => w.notify source n
  | .resolve desk c trigger =>
    let w := w.resolve desk c
    match trigger with
    | some event => w.notify event 1
    | none => w

/-- Keep the next appointment: the clock moves to its hour. -/
def keepNext (w : World) : World :=
  match w.agenda with
  | [] => w
  | a :: rest => ({ w with agenda := rest }.moveTo a.due).act a.action

/-- Keep every appointment whose hour has come. -/
def keepDue (w : World) : World :=
  let due := w.agenda.takeWhile fun a => a.due ≤ w.now
  due.foldl (fun w a => w.act a.action)
    { w with agenda := w.agenda.dropWhile fun a => a.due ≤ w.now }

/-- Let time pass. -/
def advance (ms : Nat) (w : World) : World := (w.moveTo (w.now + ms)).keepDue

/-! ## Waiting -/

/-- The sources of a multiplexer that can still wake it. -/
def openSources (m : Multiplexer ι) : List ι :=
  (m.registrations.filter (!·.closed)).map (·.source)

/-- When a wait up to `deadline` for some sources ends at the latest: a timer may end it
before. -/
def horizon (deadline : Nat) (ids : List Nat) (w : World) : Nat :=
  (ids.filterMap fun id => (w.source? id).bind Source.nextTick?).foldl min deadline

/-- What happens during a wait: each appointment before its end, and then the end. An
appointment for that very time is kept after the wait. -/
def eventsUntil (deadline : Nat) (ids : List Nat) (w : World) : List (World → World) :=
  let until_ := w.horizon deadline ids
  (w.agenda.filter (·.due < until_)).map (fun _ => keepNext) ++ [moveTo until_]

/-! ## The multiplexer -/

/-- Select once, waiting for `timeout` milliseconds at most. -/
def select (timeout : Nat) (w : World) : Selection × World :=
  let (selection, multiplexer, w) := w.multiplexer.select sourceOps
    (fun m w => w.eventsUntil (w.now + timeout) (openSources m)) w
  (selection, { w with multiplexer }.keepDue)

/-- Select `n` times. -/
def selectMany (timeout : Nat) : Nat → World → List Selection × World
  | 0, w => ([], w)
  | n + 1, w =>
    let (selection, w) := w.select timeout
    let (more, w) := selectMany timeout n w
    (selection :: more, w)

/-! ## The event loop -/

/-- What happens while the loop waits for up to `ms` milliseconds. -/
def loopEvents (ms : Nat) (m : Multiplexer Member) (w : World) : List (World → World) :=
  w.eventsUntil (w.now + ms) ((openSources m).map w.channelOf)

/-- One iteration of a loop. -/
def runLoopOnce (l : EventLoop Member) (w : World) : Iteration × World :=
  let (iteration, l, w) := l.runOnce memberOps (loopEvents l.waitTimeout) w
  (iteration, { w with loop := some l }.keepDue)

/-- One iteration of the loop, if there is one. -/
def runOnce (w : World) : Option Iteration × World :=
  match w.loop with
  | none => (none, w)
  | some l =>
    let (iteration, w) := runLoopOnce l w
    (some iteration, w)

/-- Run `n` iterations, and look at the handlers after each. -/
def runMany : Nat → World → List (Iteration × Seen) × World
  | 0, w => ([], w)
  | n + 1, w =>
    match w.runOnce with
    | (none, w) => ([], w)
    | (some iteration, w) =>
      let (seen, w) := w.takeSeen
      let (more, w) := runMany n w
      ((iteration, seen) :: more, w)

/-- Run `n` iterations. -/
def runTimes : Nat → World → World
  | 0, w => w
  | n + 1, w => runTimes n w.runOnce.2

/-- One iteration that must not wait beyond `stop`; answers whether it came to its end. -/
def runOnceBefore (stop : Nat) (w : World) : Bool × World :=
  match w.loop with
  | none => (false, w.moveTo stop)
  | some l =>
    if w.now + l.waitTimeout ≤ stop then (true, (runLoopOnce l w).2)
    else
      let (iteration, l, w) := l.runOnceUnlessCut memberOps
        (fun m w => loopEvents (stop - w.now) m w) w
      (iteration.isSome, { w with loop := some l }.keepDue)

/-- Run iterations until the clock shows `stop`; the last one is cut off in its wait. An
iteration without a wait takes work away, so `bound` only has to be large. -/
def runUntilTime (stop : Nat) : Nat → World → World
  | 0, w => w
  | bound + 1, w =>
    match w.runOnceBefore stop with
    | (true, w) => runUntilTime stop bound w
    | (false, w) => w

/-! ## Subscriptions -/

/-- Look at a subscription; one notification is taken if there is any. -/
def glimpse (id : Nat) (w : World) : Glimpse × World :=
  match w.board.read 1 id with
  | (n :: _, b) => (.arrived n, w.withBoard b)
  | ([], _) => (if w.board.exhausted id then .closed else .pending, w)

/-- Wait for a notification through the events of a wait. -/
def awaitNotification (id : Nat) : List (World → World) → World → Glimpse × World
  | events, w =>
    match w.glimpse id, events with
    | (.pending, w), event :: rest => awaitNotification id rest (event w)
    | (.pending, w), [] => (.timeout, w)
    | result, _ => result

/-- Wait for a notification, for up to `ms` milliseconds. -/
def waitNotification (id ms : Nat) (w : World) : Glimpse × World :=
  let (g, w) := awaitNotification id (w.eventsUntil (w.now + ms) []) w
  (g, w.keepDue)

end ControlBus.Simulation.World
