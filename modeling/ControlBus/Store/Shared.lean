-- What the channels need of a store. They are written against this interface alone, so they
-- run on every store that offers it.
import ControlBus.Store.Script
import ControlBus.Store.Switchboard

namespace ControlBus

/-- An operation on a store of type `σ`: it may fail, and it may change the store either way. -/
abbrev StoreOp (σ α : Type) := ExceptT BusError (StateM σ) α

/-- An operation that always succeeds. -/
def StoreOp.ofStep {σ α : Type} (step : σ → α × σ) : StoreOp σ α := fun s =>
  let (a, s) := step s
  (.ok a, s)

/-- The operations of a shared store. -/
class SharedStore (σ : Type) where
  /-- Append to a list; answers its length. -/
  pushBack : String → List String → StoreOp σ Nat
  listLength : String → StoreOp σ Nat
  /-- Add members to a set; answers how many were new. -/
  addMembers : String → List String → StoreOp σ Nat
  setSize : String → StoreOp σ Nat
  /-- The fields under a key; a missing key has none. -/
  fields : String → StoreOp σ FieldList
  /-- Merge fields into the record of a key. -/
  mergeFields : String → FieldList → StoreOp σ Unit
  /-- Remove a key of any kind; answers whether it was there. -/
  delete : String → StoreOp σ Bool
  /-- The keys that a glob pattern takes, in rising order. -/
  keys : String → StoreOp σ (List String)
  /-- Publish a payload; answers how many subscriptions it reached. -/
  publish : String → String → StoreOp σ Nat
  /-- Subscribe to channels and to patterns of channels; answers the subscription's number. -/
  subscribe : List String → List String → StoreOp σ Nat
  /-- Run a script as a whole. -/
  eval : Script → StoreOp σ Output
  /-- The largest payload that `publish` takes, in bytes. -/
  maxPayload : σ → Nat
  /-- The subscriptions of the store. -/
  board : σ → Switchboard
  withBoard : σ → Switchboard → σ

namespace SharedStore

variable {σ : Type} [SharedStore σ]

/-- Let go of a subscription. -/
def abandon (id : Nat) (s : σ) : σ := withBoard s ((board s).abandon id)

/-- Run an operation for a subscription just made: if it fails, nobody keeps the subscription. -/
def orAbandon {α : Type} (id : Nat) (op : StoreOp σ α) : StoreOp σ α := fun s =>
  match op.run s with
  | (.error e, s) => (.error e, abandon id s)
  | r => r

/-- Refuse a payload whose text is longer than a limit in bytes. -/
def checkSize (size limit : Nat) : Except BusError Unit :=
  if limit < size then .error (.payloadTooLarge size limit) else .ok ()

/-- Run a script that gives a count. -/
def evalCount (script : Script) : StoreOp σ Nat := do
  liftM ((← eval script).toCount script.name)

/-- Run a script that gives list entries. -/
def evalEntries (script : Script) : StoreOp σ (List String) := do
  liftM ((← eval script).toEntries script.name)

/-- Run a script that gives records. -/
def evalRecords (script : Script) : StoreOp σ (List Popped) := do
  liftM ((← eval script).toRecords script.name)

end SharedStore

end ControlBus
