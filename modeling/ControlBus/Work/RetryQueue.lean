-- Work that has to wait: items are parked under the constraint they wait for, and come out
-- again in the order in which constraints were resolved.
import ControlBus.WorkItem

namespace ControlBus

/-- A precondition that a work item waits for. The bus only compares constraints. -/
structure Constraint where
  kind : String
  target : String
deriving Repr, DecidableEq

/-- The text of a constraint. -/
def Constraint.text (c : Constraint) : String := s!"{c.kind}({c.target})"

/-- A parked item. -/
structure Parked where
  item : WorkItem
  /-- When it was parked. -/
  since : Nat
  /-- Whether it was reported as waiting too long. -/
  stuck : Bool := false
deriving Repr, DecidableEq

/-- Items that wait for a constraint, and items whose constraint is resolved. -/
structure RetryQueue where
  blocked : Assoc Constraint (List Parked) := []
  ready : List Parked := []
  /-- How long an item may wait before it is reported, in milliseconds. -/
  threshold : Nat
deriving Repr, DecidableEq

namespace RetryQueue

/-- Park an item at time `now`. -/
def park (item : WorkItem) (c : Constraint) (now : Nat) (q : RetryQueue) : RetryQueue :=
  { q with blocked :=
      Assoc.put q.blocked c ((Assoc.get? q.blocked c).getD [] ++ [{ item, since := now }]) }

/-- Release what waits for a constraint. -/
def release (q : RetryQueue) (c : Constraint) : RetryQueue :=
  match Assoc.get? q.blocked c with
  | some items => { q with blocked := Assoc.erase q.blocked c, ready := q.ready ++ items }
  | none => q

/-- Report the items that have waited for the threshold or longer. -/
def reportStuck (now : Nat) (q : RetryQueue) : RetryQueue :=
  { q with blocked := q.blocked.map fun (c, items) =>
      (c, items.map fun p => { p with stuck := p.stuck || q.threshold ≤ now - p.since }) }

/-- Release what waits for the constraints resolved since the last call, in the order of their
resolution, then take up to `max` released items, oldest release first. -/
def takeReady (resolved : List Constraint) (now max : Nat) (q : RetryQueue) :
    List WorkItem × RetryQueue :=
  let q := (resolved.foldl release q).reportStuck now
  ((q.ready.take max).map (·.item), { q with ready := q.ready.drop max })

/-- All items that wait for a constraint. -/
def allBlocked (q : RetryQueue) : List Parked := q.blocked.flatMap (·.2)

def blockedSize (q : RetryQueue) : Nat := q.allBlocked.length
def readySize (q : RetryQueue) : Nat := q.ready.length
def size (q : RetryQueue) : Nat := q.blockedSize + q.readySize

/-- How many waiting items were reported. -/
def stuckCount (q : RetryQueue) : Nat := q.allBlocked.countP (·.stuck)

end RetryQueue

end ControlBus
