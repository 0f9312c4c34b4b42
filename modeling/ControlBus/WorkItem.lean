-- Work items: what a channel hands to a handler. Their text carries them over queues and
-- messages.
import ControlBus.Assoc
import ControlBus.Json.Reader

namespace ControlBus

/-- The kind of change that a work item carries. -/
inductive Operation where
  | set
  | del
deriving Repr, DecidableEq

/-- The word for an operation. -/
def Operation.word : Operation → String
  | set => "SET"
  | del => "DEL"

/-- The operation that a word names. -/
def Operation.ofWord? (word : String) : Option Operation :=
  if word = "SET" then some .set else if word = "DEL" then some .del else none

/-- One change of one key. -/
structure WorkItem where
  key : String
  operation : Operation
  fields : FieldList := []
deriving Repr, DecidableEq

namespace WorkItem

def isDelete (item : WorkItem) : Bool := item.operation = .del

/-- The first value of a field. -/
def field? (item : WorkItem) (name : String) : Option String := Record.value? item.fields name

/-! ## The text of a work item -/

/-- A field and its value. -/
def writtenField (f : String × String) : List Char :=
  '[' :: Json.written f.1 ++ ',' :: Json.written f.2 ++ [']']

/-- Key, operation and fields, in this order and without blanks. -/
def encodeChars (item : WorkItem) : List Char :=
  '\x7b' :: Json.written "key" ++ ':' :: Json.written item.key
    ++ ',' :: Json.written "operation" ++ ':' :: Json.written item.operation.word
    ++ ',' :: Json.written "fields" ++ ':' :: '[' :: Json.separated (item.fields.map writtenField)
    ++ [']', '\x7d']

/-- The text of a work item. -/
def encode (item : WorkItem) : String := String.ofList item.encodeChars

/-- The work item that a value describes. -/
def ofJson? (v : Json) : Option WorkItem := do
  let parts ← v.parts? ["key", "operation", "fields"]
  let key ← Json.part parts "key" Json.text?
  let operation ← Json.part parts "operation" (Json.choice? Operation.ofWord?)
  let fields ← Json.partOr parts "fields" [] fun v => do (← v.array?).mapM Json.textPair?
  return { key, operation, fields }

/-- The work item that a text describes. -/
def decode (text : String) : Option WorkItem := Json.ofString? text >>= ofJson?

end WorkItem

end ControlBus
