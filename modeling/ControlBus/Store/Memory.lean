-- The store held in memory. Each operation is one step: it changes the contents, then sends
-- out what the change announced, in order.
import ControlBus.Store.Keyspace
import ControlBus.Store.Shared

namespace ControlBus

/-- A store in memory with its subscriptions. -/
structure MemoryStore where
  contents : Keyspace := {}
  board : Switchboard
  maxPayload : Nat
  /-- How many of the next scripts are to fail before they touch anything. -/
  failuresDue : Nat := 0

namespace MemoryStore

/-- An empty store. -/
def empty (bufferSize maxPayload : Nat) (announcing : Bool) : MemoryStore where
  contents := { announcing }
  board := .ofBufferSize bufferSize
  maxPayload

/-- Send out what the contents owe. -/
def flush (s : MemoryStore) : MemoryStore :=
  { s with
    contents := { s.contents with outbox := [] },
    board := s.board.publishAll (s.contents.outbox.map fun a => (a.channel, a.payload)) }

/-- Change the contents in one step. -/
def apply (change : Keyspace → α × Keyspace) (s : MemoryStore) : α × MemoryStore :=
  let (a, contents) := change s.contents
  (a, { s with contents }.flush)

/-- Publish a payload that is not too long. -/
def publish (channel payload : String) (s : MemoryStore) : Except BusError Nat × MemoryStore :=
  match SharedStore.checkSize payload.utf8ByteSize s.maxPayload with
  | .error e => (.error e, s)
  | .ok () =>
    let (n, board) := s.board.publish channel payload
    (.ok n, { s with board })

/-- Run a script, unless a failure is due. -/
def eval (script : Script) (s : MemoryStore) : Except BusError Output × MemoryStore :=
  match s.failuresDue with
  | n + 1 =>
    (.error (.scriptFailed script.name "injected failure"), { s with failuresDue := n })
  | 0 =>
    let (output, s) := s.apply (Keyspace.run script)
    (.ok output, s)

/-- Let the next `n` scripts fail. -/
def injectFailures (n : Nat) (s : MemoryStore) : MemoryStore := { s with failuresDue := n }

end MemoryStore

instance : SharedStore MemoryStore where
  pushBack key entries := .ofStep (·.apply (Keyspace.pushBack key entries))
  listLength key := .ofStep fun s => (s.contents.listLength key, s)
  addMembers key members := .ofStep (·.apply (Keyspace.addMembers key members))
  setSize key := .ofStep fun s => (s.contents.setSize key, s)
  fields key := .ofStep fun s => (s.contents.record key, s)
  mergeFields key fields := .ofStep (·.apply fun c => ((), c.mergeFields key fields))
  delete key := .ofStep (·.apply (Keyspace.delete key))
  keys pattern := .ofStep fun s => (s.contents.keysMatching pattern, s)
  publish channel payload := fun s => s.publish channel payload
  subscribe channels patterns := .ofStep fun s =>
    let (id, board) := s.board.subscribe channels patterns
    (id, { s with board })
  eval script := fun s => s.eval script
  maxPayload s := s.maxPayload
  board s := s.board
  withBoard s board := { s with board }

end ControlBus
