-- The executor of a channel: it pops a bounded batch, hands the items to a handler one by one,
-- parks those the handler cannot do yet, and hands them over again once they can be.
import ControlBus.Error
import ControlBus.Work.RetryQueue

namespace ControlBus

/-! ## The stream of completed items

A stream that many receivers read at their own pace. Only its last values are kept, so a receiver
that falls too far behind loses the oldest ones. -/

/-- The values sent last, newest first, and how many were sent in all. -/
structure Broadcast (α : Type) where
  capacity : Nat
  sent : Nat := 0
  recent : List α := []
deriving Repr, DecidableEq

namespace Broadcast

variable {α : Type}

def send (a : α) (b : Broadcast α) : Broadcast α :=
  { b with sent := b.sent + 1, recent := (a :: b.recent).take b.capacity }

/-- What a receiver that has seen the first `position` values gets now: the values still kept,
oldest first, and how many it has lost. -/
def receive (position : Nat) (b : Broadcast α) : List α × Nat :=
  let missing := b.sent - position
  ((b.recent.take missing).reverse, missing - b.recent.length)

end Broadcast

/-! ## The executor -/

/-- What a handler did with an item. -/
inductive Verdict where
  | done
  /-- The item has to wait for a constraint. -/
  | retry (c : Constraint)
deriving Repr, DecidableEq

/-- What an executor works with, in a world `ω`: its channel, its handler, the resolutions
reported to it, and a clock. -/
structure Workplace (ω : Type) where
  /-- Pop at most so many items from the channel. -/
  pop : Nat → ω → Except BusError (List WorkItem) × ω
  /-- Make the channel ready again after a failed pop. -/
  rearm : ω → ω
  handle : WorkItem → ω → Verdict × ω
  /-- Take the constraints resolved since the last call, oldest first. -/
  resolved : ω → List Constraint × ω
  now : ω → Nat

/-- What an executor counts. -/
structure ExecutorStats where
  executions : Nat := 0
  sweeps : Nat := 0
  /-- Items that came from the channel. -/
  popped : Nat := 0
  /-- Items that the handler has done. -/
  handled : Nat := 0
  /-- Items that the handler put off. -/
  retried : Nat := 0
  /-- Items handed over again after they were put off. -/
  resurfaced : Nat := 0
  popFailures : Nat := 0
deriving Repr, DecidableEq

/-- How many completed items are kept for those who follow them. -/
def completedCapacity : Nat := 1024

structure Executor where
  batchSize : Nat
  /-- Items on their way to the handler. -/
  pending : List WorkItem := []
  retry : RetryQueue
  completed : Broadcast WorkItem := { capacity := completedCapacity }
  stats : ExecutorStats := {}
deriving Repr, DecidableEq

namespace Executor

variable {ω : Type}

/-- An executor with a batch size of at least one. -/
def ofSettings (batchSize stuckThreshold : Nat) : Executor where
  batchSize := max batchSize 1
  retry := { threshold := stuckThreshold }

def withBatchSize (n : Nat) (e : Executor) : Executor := { e with batchSize := max n 1 }

/-- Hand one item to the handler. -/
def handleOne (p : Workplace ω) (item : WorkItem) (e : Executor) (w : ω) : Executor × ω :=
  match p.handle item w with
  | (.done, w) =>
    ({ e with
        completed := e.completed.send item
        stats := { e.stats with handled := e.stats.handled + 1 } }, w)
  | (.retry c, w) =>
    ({ e with
        retry := e.retry.park item c (p.now w)
        stats := { e.stats with retried := e.stats.retried + 1 } }, w)

/-- Hand over items in order. -/
def drainItems (p : Workplace ω) : List WorkItem → Executor → ω → Executor × ω
  | [], e, w => ({ e with pending := [] }, w)
  | item :: rest, e, w =>
    let (e, w) := e.handleOne p item w
    drainItems p rest { e with pending := rest } w

/-- Hand over everything on its way to the handler. -/
def drain (p : Workplace ω) (e : Executor) (w : ω) : Executor × ω := drainItems p e.pending e w

/-- Pop a batch and hand it over. A failed pop makes the channel ready again. -/
def execute (p : Workplace ω) (e : Executor) (w : ω) : Except BusError Unit × Executor × ω :=
  let e := { e with stats := { e.stats with executions := e.stats.executions + 1 } }
  match p.pop e.batchSize w with
  | (.error err, w) =>
    (.error err, { e with stats := { e.stats with popFailures := e.stats.popFailures + 1 } },
     p.rearm w)
  | (.ok items, w) =>
    let (e, w) := drain p
      { e with
        pending := e.pending ++ items
        stats := { e.stats with popped := e.stats.popped + items.length } } w
    (.ok (), e, w)

/-- Hand over again at most a batch of the items whose constraint is resolved. -/
def sweep (p : Workplace ω) (e : Executor) (w : ω) : Executor × ω :=
  let (resolved, w) := p.resolved w
  let (items, retry) := e.retry.takeReady resolved (p.now w) e.batchSize
  drain p
    { e with
      retry
      pending := e.pending ++ items
      stats := { e.stats with
        sweeps := e.stats.sweeps + 1
        resurfaced := e.stats.resurfaced + items.length } } w

end Executor

end ControlBus
