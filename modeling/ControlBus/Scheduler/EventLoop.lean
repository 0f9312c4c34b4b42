-- The event loop: select one ready member, execute it, then sweep every member. No failure
-- ends the loop; failures are counted.
import ControlBus.Scheduler.Multiplexer

namespace ControlBus

/-- What the loop does with its members. -/
structure MemberOps (ι σ : Type) extends SourceOps ι σ where
  execute : ι → σ → Except BusError Unit × σ
  sweep : ι → σ → Except BusError Unit × σ
  now : σ → Nat

/-- What one iteration did first. -/
inductive Iteration where
  /-- This member was executed, with success or not. -/
  | dispatched (id : Nat)
  | timeout
  /-- The source of this member failed. -/
  | sourceFailed (id : Nat)
deriving Repr, DecidableEq

/-- What the loop counts. -/
structure LoopStats where
  iterations : Nat := 0
  executions : Nat := 0
  timeouts : Nat := 0
  executeErrors : Nat := 0
  sweepErrors : Nat := 0
  sourceFailures : Nat := 0
  /-- When a failure was last seen. -/
  lastErrorAt : Option Nat := none
deriving Repr, DecidableEq

structure EventLoop (ι : Type) where
  multiplexer : Multiplexer ι := {}
  /-- How long one iteration waits at most, in milliseconds. -/
  waitTimeout : Nat
  stats : LoopStats := {}
deriving Repr, DecidableEq

namespace EventLoop

variable {ι σ : Type}

/-- Register a member; answers its number. -/
def register (member : ι) (priority : Int) (l : EventLoop ι) : Nat × EventLoop ι :=
  let (id, multiplexer) := l.multiplexer.add member priority
  (id, { l with multiplexer })

/-- Execute the selected member. -/
def execute (ops : MemberOps ι σ) (id : Nat) (l : EventLoop ι) (w : σ) : EventLoop ι × σ :=
  match l.multiplexer.registrations[id]? with
  | none => (l, w)
  | some r =>
    match ops.execute r.source w with
    | (.ok (), w) =>
      ({ l with stats := { l.stats with executions := l.stats.executions + 1 } }, w)
    | (.error _, w) =>
      ({ l with stats := { l.stats with
          executions := l.stats.executions + 1
          executeErrors := l.stats.executeErrors + 1
          lastErrorAt := some (ops.now w) } }, w)

/-- Sweep members in order; answers how many failed. -/
def sweepAll (ops : MemberOps ι σ) : List (Registration ι) → σ → Nat × σ
  | [], w => (0, w)
  | r :: rest, w =>
    let (result, w) := ops.sweep r.source w
    let (failures, w) := sweepAll ops rest w
    (failures + (if result.isOk then 0 else 1), w)

/-- Sweep every member, whatever came of the selection. -/
def sweep (ops : MemberOps ι σ) (l : EventLoop ι) (w : σ) : EventLoop ι × σ :=
  let (failures, w) := sweepAll ops l.multiplexer.registrations w
  if failures = 0 then (l, w)
  else
    ({ l with stats := { l.stats with
        sweepErrors := l.stats.sweepErrors + failures
        lastErrorAt := some (ops.now w) } }, w)

/-- Do what the selection calls for. -/
def settle (ops : MemberOps ι σ) (s : Selection) (l : EventLoop ι) (w : σ) :
    Iteration × EventLoop ι × σ :=
  match s with
  | .ready id =>
    let (l, w) := l.execute ops id w
    (.dispatched id, l, w)
  | .timeout =>
    (.timeout, { l with stats := { l.stats with timeouts := l.stats.timeouts + 1 } }, w)
  | .failed id _ =>
    (.sourceFailed id,
     { l with stats := { l.stats with
        sourceFailures := l.stats.sourceFailures + 1
        lastErrorAt := some (ops.now w) } }, w)

/-- Finish an iteration whose selection is known. -/
def finish (ops : MemberOps ι σ) (s : Selection) (l : EventLoop ι) (w : σ) :
    Iteration × EventLoop ι × σ :=
  let (iteration, l, w) := l.settle ops s w
  let (l, w) := l.sweep ops w
  (iteration, l, w)

/-- Count a new iteration. -/
def begin (l : EventLoop ι) : EventLoop ι :=
  { l with stats := { l.stats with iterations := l.stats.iterations + 1 } }

/-- One iteration: select, execute what was selected, sweep. -/
def runOnce (ops : MemberOps ι σ) (events : Multiplexer ι → σ → List (σ → σ))
    (l : EventLoop ι) (w : σ) : Iteration × EventLoop ι × σ :=
  let l := l.begin
  let (selection, multiplexer, w) := l.multiplexer.select ops.toSourceOps events w
  finish ops selection { l with multiplexer } w

/-- One iteration that is given up if nothing happens before its wait is cut short: then only
what its selection has counted so far is kept. -/
def runOnceUnlessCut (ops : MemberOps ι σ) (events : Multiplexer ι → σ → List (σ → σ))
    (l : EventLoop ι) (w : σ) : Option Iteration × EventLoop ι × σ :=
  let l := l.begin
  match l.multiplexer.attempt ops.toSourceOps events w with
  | (none, multiplexer, w) => (none, { l with multiplexer }, w)
  | (some selection, multiplexer, w) =>
    let (iteration, l, w) := finish ops selection { l with multiplexer } w
    (some iteration, l, w)

end EventLoop

end ControlBus
