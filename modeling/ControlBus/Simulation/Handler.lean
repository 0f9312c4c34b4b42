-- Handlers of simulated executors: a handler puts off the items of blocked keys, does all
-- others, and reports constraints as resolved when it has done the keys they are linked to.
import ControlBus.Work.Executor

namespace ControlBus.Simulation

/-- Whose parked items a resolution is for. -/
inductive Desk where
  | worker (id : Nat)
  | queue (id : Nat)
deriving Repr, DecidableEq

/-- A blocked key. -/
structure Block where
  constraint : Constraint
  /-- How often the block still works; none for always. -/
  left : Option Nat
deriving Repr, DecidableEq

/-- What to resolve once an item of a key is done. -/
structure Link where
  key : String
  desk : Desk
  constraint : Constraint
deriving Repr, DecidableEq

structure Handler where
  blocks : Assoc String Block := []
  links : List Link := []
  /-- Every item handled, and whether it was done, oldest first. -/
  log : List (WorkItem × Bool) := []
deriving Repr, DecidableEq

namespace Handler

/-- The block of a key, if it still works. -/
def activeBlock? (h : Handler) (key : String) : Option Block :=
  (Assoc.get? h.blocks key).filter fun b => b.left ≠ some 0

def record (item : WorkItem) (done : Bool) (h : Handler) : Handler :=
  { h with log := h.log ++ [(item, done)] }

/-- Handle an item; answers what became of it and the links that it sets off. -/
def handle (item : WorkItem) (h : Handler) : Verdict × List Link × Handler :=
  match h.activeBlock? item.key with
  | some b =>
    let used := { b with left := b.left.map (· - 1) }
    (.retry b.constraint, [],
     { h with blocks := Assoc.put h.blocks item.key used }.record item false)
  | none => (.done, h.links.filter (·.key = item.key), h.record item true)

end Handler

/-- An executor with its channel, its handler and the resolutions reported to it. -/
structure Worker where
  /-- The source that it pops from. -/
  channel : Nat
  executor : Executor
  handler : Handler := {}
  /-- Resolutions that it has not looked at, oldest first. -/
  inbox : List Constraint := []
deriving Repr, DecidableEq

/-- A retry queue of its own, with the resolutions reported to it. -/
structure Lot where
  queue : RetryQueue
  inbox : List Constraint := []
deriving Repr, DecidableEq

end ControlBus.Simulation
