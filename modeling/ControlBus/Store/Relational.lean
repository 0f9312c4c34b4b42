-- The store kept in a database. Every operation is a transaction of statements on three
-- tables; its notifications take effect with the commit. A statement that fails undoes the
-- whole operation.
import ControlBus.Store.Envelope
import ControlBus.Store.Relation
import ControlBus.Store.Shared

namespace ControlBus

/-- A statement as it was sent: its text and the values bound to it. -/
structure Sent where
  sql : String
  bound : List String
deriving Repr, DecidableEq

/-- A database, the transaction that is open on it, and the store that talks to it. -/
structure RelationalStore where
  /-- What is committed. -/
  committed : Rows := {}
  /-- What the open transaction has made of it. -/
  working : Rows := {}
  /-- Envelopes that the open transaction will send, oldest first. -/
  notices : List String := []
  order : RowOrder
  /-- Every statement sent so far, newest first. -/
  log : List Sent := []
  sentCount : Nat := 0
  /-- The numbers of the statements that the database will refuse. -/
  faults : List Nat := []
  board : Switchboard
  maxPayload : Nat
  announcing : Bool
  /-- Whether the connection on which notifications come in still works. -/
  listening : Bool := true

namespace RelationalStore

abbrev Op := StoreOp RelationalStore

/-! ## Statements -/

/-- Send a statement that works on some rows; answers what it gives and the rows it leaves. -/
def sendOn (st : Statement α) (rows : Rows) : Op (α × Rows) := fun s =>
  let n := s.sentCount + 1
  let s := { s with log := ⟨st.sql, st.bound⟩ :: s.log, sentCount := n }
  if s.faults.contains n then (.error (DatabaseFault.rejected "injected").toError, s)
  else (.ok (Rows.answer s.order n st rows), s)

/-- Send a statement within the open transaction. -/
def send (st : Statement α) : Op α := do
  let s ← getThe RelationalStore
  let (a, working) ← sendOn st s.working
  modifyThe RelationalStore ({ · with working })
  return a

/-- Send a statement on its own. -/
def sendAlone (st : Statement α) : Op α := do
  let s ← getThe RelationalStore
  let (a, committed) ← sendOn st s.committed
  modifyThe RelationalStore ({ · with committed })
  return a

/-! ## Notifications -/

/-- Hand a text that arrived on the event channel to the subscriptions; one that is no envelope
goes to nobody. -/
def route (text : String) (s : RelationalStore) : RelationalStore :=
  if s.listening then
    match Envelope.decode text with
    | some e => { s with board := (s.board.publish e.channel e.payload).2 }
    | none => s
  else s

/-- Make the open transaction final. Of equal notifications one is sent. -/
def install (s : RelationalStore) : RelationalStore :=
  s.notices.eraseDups.foldl (fun s text => s.route text)
    { s with committed := s.working, notices := [] }

/-- Forget the open transaction. -/
def rollBack (s : RelationalStore) : RelationalStore :=
  { s with working := s.committed, notices := [] }

/-- The end of the notifications. -/
def stopListening (s : RelationalStore) : RelationalStore := { s with listening := false }

/-! ## Transactions -/

/-- Run `op`; if it fails, forget the open transaction. -/
def orRollBack (op : Op α) : Op α := fun s =>
  match op.run s with
  | (.error e, s) => (.error e, s.rollBack)
  | r => r

/-- Begin a transaction. -/
def begin : Op Unit := do
  modifyThe RelationalStore rollBack
  sendAlone .begin

/-- Make what the open transaction has done final. -/
def commit : Op Unit := do
  send .commit
  modifyThe RelationalStore install

/-- Run `body` as one transaction. -/
def transact (body : Op α) : Op α := do
  begin
  orRollBack do
    let a ← body
    commit
    return a

/-- Send a notification with the open transaction. -/
def notify (channel payload : String) : Op Unit := do
  let envelope ← liftM (Envelope.encode channel payload)
  send (.notify envelope)
  modifyThe RelationalStore fun s => { s with notices := s.notices ++ [envelope] }

/-- Announce a change of a key, if changes are announced. -/
def touch (key : String) (tag : ChangeTag) : Op Unit := do
  if (← getThe RelationalStore).announcing then notify (keyspaceChannel key) tag.word

/-! ## The steps of operations -/

/-- A limit as the database takes it. -/
def limitOf (max : Nat) : Nat := min max Text.maxSigned64

def appendAll (key : String) : List String → Op Unit
  | [] => pure ()
  | entry :: rest => do send (.appendEntry key entry); appendAll key rest

/-- Append to a list; answers its length. -/
def pushBack (key : String) (entries : List String) : Op Nat := do
  if !entries.isEmpty then
    appendAll key entries
    touch key .rpush
  send (.countEntries key)

/-- Take entries from the front of a list. -/
def popFront (key : String) (max : Nat) : Op (List String) := do
  let rows ← send (.popEntries key (limitOf max))
  if !rows.isEmpty then touch key .lpop
  return (Rows.entriesBySeq rows).map (·.value)

/-- Add a member to a set; answers whether it was new. -/
def addMember (key member : String) : Op Bool := do
  let added := 0 < (← send (.addMember key member))
  if added then touch key .sadd
  return added

/-- Add members one by one; answers how many were new. -/
def addMembers (key : String) : List String → Op Nat
  | [] => pure 0
  | member :: rest => do
    let added ← addMember key member
    return added.toNat + (← addMembers key rest)

/-- Remove a member of a set; answers whether it was there. -/
def removeMember (key member : String) : Op Bool := do
  let removed := 0 < (← send (.removeMember key member))
  if removed then touch key .srem
  return removed

/-- Draw members of a set. -/
def popMembers (key : String) (max : Nat) : Op (List String) := do
  let members ← send (.popMembers key (limitOf max))
  if !members.isEmpty then touch key .spop
  return members

def writeFields (key : String) : FieldList → Op Unit
  | [] => pure ()
  | (field, value) :: rest => do send (.writeField key field value); writeFields key rest

/-- Merge fields into a record; no fields change nothing. -/
def mergeFields (key : String) (fields : FieldList) : Op Unit := do
  if !fields.isEmpty then
    writeFields key fields
    touch key .hset

/-- Take a record out, its fields in the order in which they were first written. -/
def takeRecord (key : String) : Op FieldList := do
  let rows ← send (.takeFields key)
  if !rows.isEmpty then touch key .del
  return (Rows.fieldsBySeq rows).map fun f => (f.field, f.value)

/-- Remove whatever is under a key; answers whether there was anything. -/
def delete (key : String) : Op Bool := do
  let entries ← send (.deleteKey .lists key)
  let members ← send (.deleteKey .sets key)
  let fields ← send (.deleteKey .fields key)
  let existed := 0 < entries + members + fields
  if existed then touch key .del
  return existed

/-- Move what is staged for a popped key into its visible record; if the key is marked for
deletion, its visible record goes first. -/
def materialize (l : Layout) (key : String) : Op Popped := do
  if ← removeMember l.deleteSet key then let _ ← takeRecord (l.recordKey key)
  let staged ← takeRecord (l.stagingKey key)
  mergeFields (l.recordKey key) staged
  return (key, staged)

def materializeAll (l : Layout) : List String → Op (List Popped)
  | [] => pure []
  | key :: rest => do
    let popped ← materialize l key
    return popped :: (← materializeAll l rest)

/-- Mark a key pending; a key that was not pending before sends the token. -/
def markPending (l : Layout) (key token : String) : Op Output := do
  let added ← addMember l.pendingSet key
  if added then notify l.channel token
  return .count added.toNat

def dropStaged (l : Layout) : List String → Op Unit
  | [] => pure ()
  | key :: rest => do let _ ← takeRecord (l.stagingKey key); dropStaged l rest

/-- The steps of a script. A lock keeps other scripts of the same table away. -/
def steps : Script → Op Output
  | .pushAndPublish list entries channel payload => do
    send (.lock list)
    let n ← pushBack list entries
    notify channel payload
    return .count n
  | .popFront list max => do
    send (.lock list)
    return .entries (← popFront list max)
  | .stageWrite l key fields token => do
    send (.lock l.pendingSet)
    mergeFields (l.stagingKey key) fields
    markPending l key token
  | .stageDelete l key token => do
    send (.lock l.pendingSet)
    let _ ← takeRecord (l.stagingKey key)
    let _ ← addMember l.deleteSet key
    markPending l key token
  | .coalescedPop l max => do
    send (.lock l.pendingSet)
    return .records (← materializeAll l (← popMembers l.pendingSet max))
  | .coalescedClear l => do
    send (.lock l.pendingSet)
    let keys ← popMembers l.pendingSet Text.maxUnsigned64
    dropStaged l keys
    let _ ← delete l.deleteSet
    return .count keys.length

/-- A failure as the failure of a whole script. -/
def asScriptFailure (script : Script) (op : Op α) : Op α := fun s =>
  match op.run s with
  | (.error e, s) => (.error (.scriptFailed script.name e.message), s)
  | r => r

/-- Run a script as one transaction. -/
def eval (script : Script) : Op Output := do
  begin
  asScriptFailure script (orRollBack do
    let output ← steps script
    commit
    return output)

/-- The keys that a pattern takes. The search narrows them down by the text before the first
wildcard. -/
def keys (pattern : String) : Op (List String) := do
  let found ← sendAlone (.findKeys (Text.Glob.literalPrefix pattern ++ "%"))
  return found.filter (Text.Glob.accepts pattern)

/-- Publish a payload; answers how many subscriptions there are. -/
def publish (channel payload : String) : Op Nat := do
  let s ← getThe RelationalStore
  liftM (SharedStore.checkSize payload.utf8ByteSize s.maxPayload)
  transact (notify channel payload)
  return s.board.subscriptions.length

/-! ## Connecting -/

/-- Create the tables and listen for notifications. -/
def setUp : Op Unit := do
  sendAlone (.createTable .lists)
  sendAlone (.createTable .sets)
  sendAlone (.createTable .fields)
  sendAlone .listen

end RelationalStore

instance : SharedStore RelationalStore where
  pushBack key entries := RelationalStore.transact (RelationalStore.pushBack key entries)
  listLength key := RelationalStore.transact (RelationalStore.send (.countEntries key))
  addMembers key members := RelationalStore.transact (RelationalStore.addMembers key members)
  setSize key := RelationalStore.sendAlone (.countMembers key)
  fields key := RelationalStore.sendAlone (.readFields key)
  mergeFields key fields := RelationalStore.transact (RelationalStore.mergeFields key fields)
  delete key := RelationalStore.transact (RelationalStore.delete key)
  keys := RelationalStore.keys
  publish := RelationalStore.publish
  subscribe channels patterns := .ofStep fun s =>
    let (id, board) := s.board.subscribe channels patterns
    (id, { s with board })
  eval := RelationalStore.eval
  maxPayload s := s.maxPayload
  board s := s.board
  withBoard s board := { s with board }

end ControlBus
