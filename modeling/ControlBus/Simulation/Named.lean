-- The names of a simulated process: what they stand for, and deeds that call things by name.
import ControlBus.Simulation.Agenda

namespace ControlBus.Simulation

/-- What may also be put off until later. -/
inductive Deed where
  | store (step : StoreStep)
  | notify (event : String) (n : Nat)
  /-- Report a constraint as resolved to the retry queue of this name, or else to the executor. -/
  | resolve (name : String) (c : Constraint) (trigger : Option String)
deriving Repr, DecidableEq

namespace World

/-! ## What names stand for -/

/-- The name under which a source reports itself. -/
def titleOf (id : Nat) (w : World) : String := ((w.source? id).map Source.name).getD ""

/-- The text of a registration's number. -/
def registrationLabel (id : Nat) : String := s!"selectable-{id}"

/-- Who takes resolutions under a name: a retry queue, or else an executor. -/
def desk? (name : String) (w : World) : Option Desk :=
  ((Assoc.get? w.lotNames name).map Desk.queue).or ((Assoc.get? w.workerNames name).map Desk.worker)

def sourceNamed? (name : String) (w : World) : Option (Nat × Source) := do
  let id ← Assoc.get? w.sourceNames name
  return (id, ← w.source? id)

def workerNamed? (name : String) (w : World) : Option (Nat × Worker) := do
  let id ← Assoc.get? w.workerNames name
  return (id, ← w.worker? id)

/-- Ask the source of a name. -/
def askSource (name : String) (ask : Nat → Source → Answer) (w : World) : Answer × World :=
  match w.sourceNamed? name with
  | some (id, s) => (ask id s, w)
  | none => (.done, w)

/-- Change the source of a name, and tell how it then looks. -/
def changeSource (name : String) (f : Source → Source) (w : World) : Answer × World :=
  match w.sourceNamed? name with
  | some (id, s) => (.looked (f s).status none, w.setSource id (f s))
  | none => (.done, w)

/-- Change a scripted source. -/
def script (name : String) (f : ScriptedSource → ScriptedSource) (w : World) : Answer × World :=
  match w.sourceNamed? name with
  | some (id, .scripted s) => (.done, w.setSource id (.scripted (f s)))
  | _ => (.done, w)

/-- The action that a deed means now. -/
def action? (d : Deed) (w : World) : Option Action :=
  match d with
  | .store step => some (.store step)
  | .notify event n => (Assoc.get? w.sourceNames event).map fun id => .notify id n
  | .resolve name c trigger =>
    (w.desk? name).map fun desk =>
      .resolve desk c (trigger.bind fun event => Assoc.get? w.sourceNames event)

/-- Do a deed at once. -/
def doNow (d : Deed) (w : World) : Answer × World :=
  match w.action? d with
  | none => (.done, w)
  | some (.store step) =>
    match w.useStore step.run with
    | (.ok answer, w) => (answer, w)
    | (.error e, w) => (.failed e, w)
  | some action => (.done, w.act action)

end World

end ControlBus.Simulation
