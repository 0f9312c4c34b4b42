-- The contents of a store held in memory: lists, sets and records under keys, and the
-- notifications that a change owes. A container that runs empty is gone.
import ControlBus.Store.RandomSet
import ControlBus.Store.Script
import ControlBus.Text.Glob

namespace ControlBus

/-- The word that tells followers of a key what happened to it. -/
inductive ChangeTag where
  | hset | del | sadd | srem | spop | rpush | lpop
deriving Repr, DecidableEq

def ChangeTag.word : ChangeTag → String
  | hset => "hset"
  | del => "del"
  | sadd => "sadd"
  | srem => "srem"
  | spop => "spop"
  | rpush => "rpush"
  | lpop => "lpop"

/-- The channel on which changes of a key are announced. -/
def keyspaceChannel (key : String) : String := keyspaceStem ++ key

/-- A payload to be published on a channel. -/
structure Announcement where
  channel : String
  payload : String
deriving Repr, DecidableEq

/-- The contents of a store. -/
structure Keyspace where
  lists : Assoc String (List String) := []
  sets : Assoc String RandomSet := []
  records : Assoc String Record := []
  /-- Whether changes of keys are announced. -/
  announcing : Bool := true
  /-- What the current operation has to publish, oldest first. -/
  outbox : List Announcement := []
  /-- The random numbers that the coming draws use. -/
  draws : List Nat := []
deriving Repr, DecidableEq

namespace Keyspace

/-! ## Reading -/

def list (s : Keyspace) (key : String) : List String := (Assoc.get? s.lists key).getD []
def listLength (s : Keyspace) (key : String) : Nat := (s.list key).length
def set (s : Keyspace) (key : String) : RandomSet := (Assoc.get? s.sets key).getD {}
def setSize (s : Keyspace) (key : String) : Nat := (s.set key).size
def record (s : Keyspace) (key : String) : Record := (Assoc.get? s.records key).getD []

/-- Texts in rising order, each once. -/
def sorted (texts : List String) : List String :=
  (texts.mergeSort fun a b => decide (a ≤ b)).eraseReps

/-- The keys that a pattern takes, in rising order. -/
def keysMatching (s : Keyspace) (pattern : String) : List String :=
  sorted ((Assoc.keys s.lists ++ Assoc.keys s.sets ++ Assoc.keys s.records).filter
    (Text.Glob.accepts pattern))

/-! ## Notifications -/

/-- Note a payload to be published. -/
def announce (channel payload : String) (s : Keyspace) : Keyspace :=
  { s with outbox := s.outbox ++ [⟨channel, payload⟩] }

/-- Note a change of a key, if changes are announced. -/
def touch (key : String) (tag : ChangeTag) (s : Keyspace) : Keyspace :=
  if s.announcing then s.announce (keyspaceChannel key) tag.word else s

/-! ## Storing containers -/

/-- Put a list under a key; an empty one is not kept. -/
def withList (key : String) (entries : List String) (s : Keyspace) : Keyspace :=
  { s with lists := if entries.isEmpty then Assoc.erase s.lists key
                    else Assoc.put s.lists key entries }

/-- Put a set under a key; an empty one is not kept. -/
def withSet (key : String) (members : RandomSet) (s : Keyspace) : Keyspace :=
  { s with sets := if members.isEmpty then Assoc.erase s.sets key
                   else Assoc.put s.sets key members }

/-! ## Changes -/

/-- Append to a list; answers its length. -/
def pushBack (key : String) (entries : List String) (s : Keyspace) : Nat × Keyspace :=
  if entries.isEmpty then (s.listLength key, s)
  else
    let whole := s.list key ++ entries
    (whole.length, (s.withList key whole).touch key .rpush)

/-- Take up to `max` entries from the front of a list. -/
def popFront (key : String) (max : Nat) (s : Keyspace) : List String × Keyspace :=
  let popped := (s.list key).take max
  if popped.isEmpty then ([], s)
  else (popped, (s.withList key ((s.list key).drop max)).touch key .lpop)

/-- Add a member to a set; answers whether it was new. -/
def addMember (key member : String) (s : Keyspace) : Bool × Keyspace :=
  match (s.set key).insert member with
  | (true, members) => (true, (s.withSet key members).touch key .sadd)
  | (false, _) => (false, s)

/-- Add members one by one; answers how many were new. -/
def addMembers (key : String) : List String → Keyspace → Nat × Keyspace
  | [], s => (0, s)
  | member :: rest, s =>
    let (added, s) := s.addMember key member
    let (n, s) := addMembers key rest s
    (n + added.toNat, s)

/-- Remove a member of a set; answers whether it was there. -/
def removeMember (key member : String) (s : Keyspace) : Bool × Keyspace :=
  match (s.set key).remove member with
  | (true, members) => (true, (s.withSet key members).touch key .srem)
  | (false, _) => (false, s)

/-- Draw up to `max` members of a set at random. -/
def popMembers (key : String) (max : Nat) (s : Keyspace) : List String × Keyspace :=
  let (popped, draws, members) := (s.set key).drawMany (min max (s.setSize key)) s.draws
  if popped.isEmpty then ([], s)
  else (popped, ({ s with draws }.withSet key members).touch key .spop)

/-- Merge fields into a record; no fields change nothing. -/
def mergeFields (key : String) (fields : FieldList) (s : Keyspace) : Keyspace :=
  if fields.isEmpty then s
  else { s with records := Assoc.put s.records key ((s.record key).merge fields) }.touch key .hset

/-- Take a record out; a missing record has no fields. -/
def takeRecord (key : String) (s : Keyspace) : Record × Keyspace :=
  match Assoc.get? s.records key with
  | some fields => (fields, { s with records := Assoc.erase s.records key }.touch key .del)
  | none => ([], s)

/-- Whether anything is stored under a key. -/
def holds (s : Keyspace) (key : String) : Bool :=
  Assoc.has s.lists key || Assoc.has s.sets key || Assoc.has s.records key

/-- Remove whatever is under a key; answers whether there was anything. -/
def delete (key : String) (s : Keyspace) : Bool × Keyspace :=
  if s.holds key then
    (true, { s with lists := Assoc.erase s.lists key,
                    sets := Assoc.erase s.sets key,
                    records := Assoc.erase s.records key }.touch key .del)
  else (false, s)

/-! ## Scripts -/

/-- Drop the visible record of a key that is marked for deletion, and the mark. -/
def honourDelete (l : Layout) (key : String) (s : Keyspace) : Keyspace :=
  match s.removeMember l.deleteSet key with
  | (true, s) => (s.takeRecord (l.recordKey key)).2
  | (false, s) => s

/-- Move what is staged for a popped key into its visible record. -/
def materialize (l : Layout) (key : String) (s : Keyspace) : Popped × Keyspace :=
  let (staged, s) := (s.honourDelete l key).takeRecord (l.stagingKey key)
  ((key, staged), s.mergeFields (l.recordKey key) staged)

/-- Materialize keys one after the other. -/
def materializeAll (l : Layout) : List String → Keyspace → List Popped × Keyspace
  | [], s => ([], s)
  | key :: rest, s =>
    let (popped, s) := s.materialize l key
    let (more, s) := materializeAll l rest s
    (popped :: more, s)

/-- Mark a key pending; a key that was not pending before sends the token. -/
def markPending (l : Layout) (key token : String) (s : Keyspace) : Output × Keyspace :=
  match s.addMember l.pendingSet key with
  | (true, s) => (.count 1, s.announce l.channel token)
  | (false, s) => (.count 0, s)

/-- Drop the staged fields of keys. -/
def dropStaged (l : Layout) (keys : List String) (s : Keyspace) : Keyspace :=
  keys.foldl (fun s key => (s.takeRecord (l.stagingKey key)).2) s

/-- Run a script. -/
def run : Script → Keyspace → Output × Keyspace
  | .pushAndPublish list entries channel payload, s =>
    let (n, s) := s.pushBack list entries
    (.count n, s.announce channel payload)
  | .popFront list max, s =>
    let (entries, s) := s.popFront list max
    (.entries entries, s)
  | .stageWrite l key fields token, s =>
    (s.mergeFields (l.stagingKey key) fields).markPending l key token
  | .stageDelete l key token, s =>
    let s := (s.takeRecord (l.stagingKey key)).2
    let s := (s.addMember l.deleteSet key).2
    s.markPending l key token
  | .coalescedPop l max, s =>
    let (keys, s) := s.popMembers l.pendingSet max
    let (records, s) := s.materializeAll l keys
    (.records records, s)
  | .coalescedClear l, s =>
    let (keys, s) := s.popMembers l.pendingSet (s.setSize l.pendingSet)
    let s := ((s.dropStaged l keys).delete l.deleteSet).2
    (.count keys.length, s)

end Keyspace

end ControlBus
