-- Reading the visible records of a table.
import ControlBus.Store.Shared

namespace ControlBus.TableReader

variable {σ : Type} [SharedStore σ]

/-- The fields of a record, if it exists. -/
def get (t : TableName) (key : String) : StoreOp σ (Option FieldList) := do
  let fields ← SharedStore.fields (t.recordKey key)
  return if fields.isEmpty then none else some fields

/-- One field of a record. -/
def getField (t : TableName) (key field : String) : StoreOp σ (Option String) := do
  return (← get t key).bind (Record.value? · field)

/-- The keys of all visible records, in rising order. -/
def keys (t : TableName) : StoreOp σ (List String) := do
  return (← SharedStore.keys (t.recordStem ++ "*")).filterMap t.keyOfRecord?

/-- The records of some keys as they are read one after the other; a missing one is passed
over. -/
def getAll (t : TableName) : List String → StoreOp σ (List (String × FieldList))
  | [] => pure []
  | key :: rest => do
    let here := (← get t key).toList.map (key, ·)
    return here ++ (← getAll t rest)

/-- All visible records, each read after the keys were listed. -/
def dump (t : TableName) : StoreOp σ (List (String × FieldList)) := do getAll t (← keys t)

end ControlBus.TableReader
