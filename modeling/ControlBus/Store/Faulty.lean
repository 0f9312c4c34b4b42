-- A store whose operations fail at chosen calls, to see what the channels do then.
import ControlBus.Store.Shared

namespace ControlBus

/-- The operations whose calls are counted. -/
inductive StoreCall where
  | listPush | listLen | setAdd | setCard | hashGetAll | hashSet | del | keys | publish
  | subscribe | eval
deriving Repr, DecidableEq

/-- The name of an operation in errors. -/
def StoreCall.name : StoreCall → String
  | listPush => "list_push"
  | listLen => "list_len"
  | setAdd => "set_add"
  | setCard => "set_card"
  | hashGetAll => "hash_get_all"
  | hashSet => "hash_set"
  | del => "del"
  | keys => "keys"
  | publish => "publish"
  | subscribe => "subscribe"
  | eval => "eval"

/-- A store with the calls that are to fail, each operation counting its own calls from one. -/
structure FaultyStore (σ : Type) where
  inner : σ
  /-- The calls that fail. -/
  faults : List (String × Nat) := []
  /-- The script calls that give this output without running. -/
  outputs : List (Nat × Output) := []
  calls : Assoc StoreCall Nat := []

namespace FaultyStore

variable {σ α : Type}

/-- Count a call, and fail if it is to fail; `use` gets the number of the call. -/
def counted (call : StoreCall) (use : Nat → StoreOp σ α) : StoreOp (FaultyStore σ) α := fun s =>
  let n := (Assoc.get? s.calls call).getD 0 + 1
  let s := { s with calls := Assoc.put s.calls call n }
  if s.faults.contains (call.name, n) then (.error (.store call.name "transient"), s)
  else
    let (result, inner) := (use n).run s.inner
    (result, { s with inner })

/-- Run a script, or answer for it. -/
def eval [SharedStore σ] (script : Script) : StoreOp (FaultyStore σ) Output := do
  let s ← get
  counted .eval fun n =>
    match s.outputs.find? (·.1 = n) with
    | some (_, output) => pure output
    | none => SharedStore.eval script

end FaultyStore

instance [SharedStore σ] : SharedStore (FaultyStore σ) where
  pushBack key entries := FaultyStore.counted .listPush fun _ => SharedStore.pushBack key entries
  listLength key := FaultyStore.counted .listLen fun _ => SharedStore.listLength key
  addMembers key members := FaultyStore.counted .setAdd fun _ => SharedStore.addMembers key members
  setSize key := FaultyStore.counted .setCard fun _ => SharedStore.setSize key
  fields key := FaultyStore.counted .hashGetAll fun _ => SharedStore.fields key
  mergeFields key fields :=
    FaultyStore.counted .hashSet fun _ => SharedStore.mergeFields key fields
  delete key := FaultyStore.counted .del fun _ => SharedStore.delete key
  keys pattern := FaultyStore.counted .keys fun _ => SharedStore.keys pattern
  publish channel payload :=
    FaultyStore.counted .publish fun _ => SharedStore.publish channel payload
  subscribe channels patterns :=
    FaultyStore.counted .subscribe fun _ => SharedStore.subscribe channels patterns
  eval := FaultyStore.eval
  maxPayload s := SharedStore.maxPayload s.inner
  board s := SharedStore.board s.inner
  withBoard s b := { s with inner := SharedStore.withBoard s.inner b }

end ControlBus
