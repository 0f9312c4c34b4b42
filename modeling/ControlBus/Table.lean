-- Tables and the store keys derived from their names. Producers and consumers meet only
-- through these names.
namespace ControlBus

/-- A table: its name and the character between the name and a key. -/
structure TableName where
  name : String
  separator : Char := ':'
deriving Repr, DecidableEq

/-- The store keys over which a coalescing table is spread. -/
structure Layout where
  /-- Set of the keys that wait to be popped. -/
  pendingSet : String
  /-- Set of the keys whose record is to be dropped first. -/
  deleteSet : String
  /-- What stands before a key in the name of its staged fields. -/
  stagingStem : String
  /-- What stands before a key in the name of its visible record. -/
  recordStem : String
  /-- Channel of the wake-up tokens. -/
  channel : String
deriving Repr, DecidableEq

namespace Layout

def stagingKey (l : Layout) (key : String) : String := l.stagingStem ++ key
def recordKey (l : Layout) (key : String) : String := l.recordStem ++ key

end Layout

/-- What stands before a key in the channel of its change notifications. -/
def keyspaceStem : String := "__keyspace__:"

/-- The content-free wake-up token. -/
def wakeToken : String := "G"

namespace TableName

/-- What stands before a key in the name of its visible record. -/
def recordStem (t : TableName) : String := t.name.push t.separator

def recordKey (t : TableName) (key : String) : String := t.recordStem ++ key
def stagingKey (t : TableName) (key : String) : String := "_" ++ t.recordKey key
def pendingSet (t : TableName) : String := t.name ++ "_KEY_SET"
def deleteSet (t : TableName) : String := t.name ++ "_DEL_SET"
def channel (t : TableName) : String := t.name ++ "_CHANNEL"
def queue (t : TableName) : String := t.name ++ "_KEY_VALUE_OP_QUEUE"

/-- What stands before a key in the channel of its change notifications. -/
def keyspaceStem (t : TableName) : String := ControlBus.keyspaceStem ++ t.recordStem

/-- The pattern of all channels of change notifications of the table. -/
def keyspacePattern (t : TableName) : String := t.keyspaceStem ++ "*"

end TableName

/-- What follows `stem` in a text that starts with it. -/
def afterStem? (stem text : String) : Option String :=
  if stem.toList.isPrefixOf text.toList then
    some (String.ofList (text.toList.drop stem.toList.length))
  else none

namespace TableName

/-- The key whose visible record has this name. -/
def keyOfRecord? (t : TableName) (recordKey : String) : Option String :=
  afterStem? t.recordStem recordKey

/-- Where the coalescing channel of the table keeps its parts. -/
def layout (t : TableName) : Layout where
  pendingSet := t.pendingSet
  deleteSet := t.deleteSet
  stagingStem := "_" ++ t.recordStem
  recordStem := t.recordStem
  channel := t.channel

end TableName

end ControlBus
