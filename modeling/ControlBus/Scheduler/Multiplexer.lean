-- The multiplexer: it waits on many sources at once and hands back one that has data. Among
-- sources with data the highest priority goes first, and among equals the one whose last
-- dispatch lies farthest back, so none of them starves the others.
import ControlBus.Channel.Signal

namespace ControlBus

/-- What the multiplexer does with a source: sources are named by `ι` and live in a world `σ`. -/
structure SourceOps (ι σ : Type) where
  /-- Take in what has arrived. -/
  poll : ι → σ → Reading × σ
  hasData : ι → σ → Bool
  /-- Whether more than one unit of work is left. -/
  hasMore : ι → σ → Bool
  /-- Account for one dispatch. -/
  afterRead : ι → σ → σ

/-- A source known to the multiplexer. -/
structure Registration (ι : Type) where
  source : ι
  priority : Int
  /-- The time of the last dispatch on the multiplexer's own clock; zero for never. -/
  stamp : Nat := 0
  dispatches : Nat := 0
  /-- Whether the source stands in the working set. -/
  ready : Bool := false
  /-- Whether the source has failed for good. -/
  closed : Bool := false
deriving Repr, DecidableEq

/-- The place of a source in the working set. -/
structure ReadyKey where
  priority : Int
  stamp : Nat
  id : Nat
deriving Repr, DecidableEq

namespace ReadyKey

/-- Higher priority first, then the older dispatch, then the earlier registration. -/
def before (a b : ReadyKey) : Bool :=
  if a.priority ≠ b.priority then b.priority < a.priority
  else if a.stamp ≠ b.stamp then a.stamp < b.stamp
  else a.id < b.id

/-- Add a key to a sorted list of keys. -/
def insert (k : ReadyKey) : List ReadyKey → List ReadyKey
  | [] => [k]
  | j :: rest => if k = j then j :: rest else if k.before j then k :: j :: rest else j :: insert k rest

end ReadyKey

def Registration.key (r : Registration ι) (id : Nat) : ReadyKey := ⟨r.priority, r.stamp, id⟩

/-- What the multiplexer counts. -/
structure MultiplexerStats where
  selects : Nat := 0
  dispatches : Nat := 0
  timeouts : Nat := 0
  /-- Entries of the working set that had no data left when their turn came. -/
  emptySkips : Nat := 0
  errors : Nat := 0
deriving Repr, DecidableEq

/-- The result of one selection. -/
inductive Selection where
  /-- This source has data, and its dispatch is accounted for. -/
  | ready (id : Nat)
  /-- This source failed and is left out from now on. -/
  | failed (id : Nat) (error : BusError)
  | timeout
deriving Repr, DecidableEq

structure Multiplexer (ι : Type) where
  registrations : List (Registration ι) := []
  /-- The sources that had data when last seen, best first. -/
  workingSet : List ReadyKey := []
  /-- Counts dispatches. -/
  clock : Nat := 0
  stats : MultiplexerStats := {}
deriving Repr, DecidableEq

namespace Multiplexer

variable {ι σ : Type}

/-- Register a source; answers its number. -/
def add (source : ι) (priority : Int) (m : Multiplexer ι) : Nat × Multiplexer ι :=
  (m.registrations.length,
   { m with registrations := m.registrations ++ [{ source, priority }] })

/-- The outcome of one pass over the sources. -/
structure Pass (ι σ : Type) where
  registrations : List (Registration ι)
  workingSet : List ReadyKey
  world : σ
  /-- The source that failed and ended the pass. -/
  failure : Option (Nat × BusError)

/-- Poll the open sources of `todo` in order, their numbers counted from `id`. A source with
data joins the working set. The first that fails is closed, leaves the working set and ends the
pass. -/
def passOver (ops : SourceOps ι σ) : Nat → List (Registration ι) → List ReadyKey → σ → Pass ι σ
  | _, [], set, w => ⟨[], set, w, none⟩
  | id, r :: rest, set, w =>
    if r.closed then
      let p := passOver ops (id + 1) rest set w
      { p with registrations := r :: p.registrations }
    else
      match ops.poll r.source w with
      | (.failed e, w) =>
        ⟨{ r with closed := true, ready := false } :: rest,
         if r.ready then set.erase (r.key id) else set, w, some (id, e)⟩
      | (_, w) =>
        if !r.ready && ops.hasData r.source w then
          let p := passOver ops (id + 1) rest ((r.key id).insert set) w
          { p with registrations := { r with ready := true } :: p.registrations }
        else
          let p := passOver ops (id + 1) rest set w
          { p with registrations := r :: p.registrations }

/-- Poll every open source once; answers the source that failed, if one did. -/
def poll (ops : SourceOps ι σ) (m : Multiplexer ι) (w : σ) :
    Option (Nat × BusError) × Multiplexer ι × σ :=
  let p := passOver ops 0 m.registrations m.workingSet w
  (p.failure, { m with registrations := p.registrations, workingSet := p.workingSet }, p.world)

/-- Account for the dispatch of a source that has data: it gets the next stamp, and goes back
into the working set if it has more. -/
def dispatch (ops : SourceOps ι σ) (m : Multiplexer ι) (id : Nat) (r : Registration ι) (w : σ) :
    Multiplexer ι × σ :=
  let stamp := m.clock + 1
  let more := ops.hasMore r.source w
  let r := { r with stamp, dispatches := r.dispatches + 1, ready := more }
  ({ m with
      registrations := m.registrations.set id r
      workingSet := if more then (r.key id).insert m.workingSet else m.workingSet
      clock := stamp
      stats := { m.stats with dispatches := m.stats.dispatches + 1 } },
   ops.afterRead r.source w)

/-- Go through a working set, best first, passing over sources without data, and dispatch the
first source that has some. -/
def dispatchFrom (ops : SourceOps ι σ) :
    List ReadyKey → Multiplexer ι → σ → Option Nat × Multiplexer ι × σ
  | [], m, w => (none, { m with workingSet := [] }, w)
  | k :: rest, m, w =>
    match m.registrations[k.id]? with
    | none => dispatchFrom ops rest m w
    | some r =>
      if ops.hasData r.source w then
        let (m, w) := dispatch ops { m with workingSet := rest } k.id r w
        (some k.id, m, w)
      else
        dispatchFrom ops rest
          { m with
            registrations := m.registrations.set k.id { r with ready := false }
            stats := { m.stats with emptySkips := m.stats.emptySkips + 1 } } w

/-- Dispatch the best source of the working set that has data. -/
def dispatchNext (ops : SourceOps ι σ) (m : Multiplexer ι) (w : σ) :
    Option Nat × Multiplexer ι × σ :=
  dispatchFrom ops m.workingSet m w

/-- Report a failed source. -/
def report (m : Multiplexer ι) (failure : Nat × BusError) : Option Selection × Multiplexer ι :=
  (some (.failed failure.1 failure.2),
   { m with stats := { m.stats with errors := m.stats.errors + 1 } })

/-- Wait: look at the sources now, and again after each of the coming events of the world, until
one has data or fails. Without an outcome the wait has run to its end. -/
def await (ops : SourceOps ι σ) :
    List (σ → σ) → Multiplexer ι → σ → Option Selection × Multiplexer ι × σ
  | events, m, w =>
    match poll ops m w with
    | (some failure, m, w) =>
      let (outcome, m) := m.report failure
      (outcome, m, w)
    | (none, m, w) =>
      match dispatchNext ops m w, events with
      | (some id, m, w), _ => (some (.ready id), m, w)
      | (none, m, w), event :: rest => await ops rest m (event w)
      | (none, m, w), [] => (none, m, w)

/-- Begin a selection: one look at the sources, and only then the wait. `events` tells what the
world has in store from then on to the end of the wait. -/
def attempt (ops : SourceOps ι σ) (events : Multiplexer ι → σ → List (σ → σ))
    (m : Multiplexer ι) (w : σ) : Option Selection × Multiplexer ι × σ :=
  let m := { m with stats := { m.stats with selects := m.stats.selects + 1 } }
  match poll ops m w with
  | (some failure, m, w) =>
    let (outcome, m) := m.report failure
    (outcome, m, w)
  | (none, m, w) =>
    match dispatchNext ops m w with
    | (some id, m, w) => (some (.ready id), m, w)
    | (none, m, w) => await ops (events m w) m w

/-- Select one source that has data, or find that none has up to the end of the wait. -/
def select (ops : SourceOps ι σ) (events : Multiplexer ι → σ → List (σ → σ))
    (m : Multiplexer ι) (w : σ) : Selection × Multiplexer ι × σ :=
  match attempt ops events m w with
  | (some outcome, m, w) => (outcome, m, w)
  | (none, m, w) =>
    (.timeout, { m with stats := { m.stats with timeouts := m.stats.timeouts + 1 } }, w)

end Multiplexer

end ControlBus
