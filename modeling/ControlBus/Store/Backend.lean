-- The stores that the settings can ask for, behind one set of operations.
import ControlBus.Config.Basic
import ControlBus.Store.Faulty
import ControlBus.Store.Memory
import ControlBus.Store.Relational

namespace ControlBus

/-- A store of either kind. -/
inductive Backend where
  | memory (s : FaultyStore MemoryStore)
  | relational (s : RelationalStore)

namespace Backend

/-- An operation that every store offers, on a store of either kind. -/
def lift (op : {σ : Type} → [SharedStore σ] → StoreOp σ α) : StoreOp Backend α
  | memory s =>
    let (result, s) := op.run s
    (result, memory s)
  | relational s =>
    let (result, s) := op.run s
    (result, relational s)

def maxPayload : Backend → Nat
  | memory s => SharedStore.maxPayload s
  | relational s => SharedStore.maxPayload s

/-- The subscriptions of the store. -/
def board : Backend → Switchboard
  | memory s => SharedStore.board s
  | relational s => SharedStore.board s

def withBoard (b : Switchboard) : Backend → Backend
  | memory s => memory (SharedStore.withBoard s b)
  | relational s => relational (SharedStore.withBoard s b)

/-- Let the next `n` scripts fail, if the store is one in memory. -/
def injectFailures (n : Nat) : Backend → Backend
  | memory s => memory { s with inner := s.inner.injectFailures n }
  | relational s => relational s

/-- Let some calls fail and some scripts give other outputs, if the store is one in memory. -/
def withFaults (faults : List (String × Nat)) (outputs : List (Nat × Output)) : Backend → Backend
  | memory s => memory { s with faults, outputs }
  | relational s => relational s

end Backend

instance : SharedStore Backend where
  pushBack key entries := Backend.lift (SharedStore.pushBack key entries)
  listLength key := Backend.lift (SharedStore.listLength key)
  addMembers key members := Backend.lift (SharedStore.addMembers key members)
  setSize key := Backend.lift (SharedStore.setSize key)
  fields key := Backend.lift (SharedStore.fields key)
  mergeFields key fields := Backend.lift (SharedStore.mergeFields key fields)
  delete key := Backend.lift (SharedStore.delete key)
  keys pattern := Backend.lift (SharedStore.keys pattern)
  publish channel payload := Backend.lift (SharedStore.publish channel payload)
  subscribe channels patterns := Backend.lift (SharedStore.subscribe channels patterns)
  eval script := Backend.lift (SharedStore.eval script)
  maxPayload := Backend.maxPayload
  board := Backend.board
  withBoard s b := s.withBoard b

/-! ## Connecting -/

/-- A database server: the statements that it refuses while a store connects, and those that it
refuses afterwards, each by number. -/
structure DatabaseServer where
  refusedAtFirst : List Nat := []
  refusedLater : List Nat := []
deriving Repr, DecidableEq

/-- An empty store in memory. -/
def StoreConfig.memoryStore (c : StoreConfig) : MemoryStore :=
  .empty c.notificationBufferSize c.maxPayloadSize c.keyspaceNotifications

/-- A store on an empty database that refuses some statements. -/
def StoreConfig.relationalStore (c : StoreConfig) (refused : List Nat) : RelationalStore where
  order := .newestFirst
  faults := refused
  board := .ofBufferSize c.notificationBufferSize
  maxPayload := c.maxPayloadSize
  announcing := c.keyspaceNotifications

/-- Set up a store on a server; from then on its statements count anew. -/
def DatabaseServer.host (server : DatabaseServer) (c : StoreConfig) :
    Except BusError RelationalStore :=
  match RelationalStore.setUp.run (c.relationalStore server.refusedAtFirst) with
  | (.error e, _) => .error e
  | (.ok (), s) => .ok { s with sentCount := 0, faults := server.refusedLater }

/-- Connect the store that the settings ask for; `dial` finds the server of an address. -/
def StoreConfig.connect (dial : String → Except DatabaseFault DatabaseServer) (c : StoreConfig) :
    Except BusError Backend :=
  match c.backend with
  | .inMemory => .ok (.memory { inner := c.memoryStore })
  | .postgres =>
    match c.databaseUrl with
    | none => .error (.configuration "store.database_url is required for the postgres backend")
    | some address =>
      match dial address with
      | .error fault => .error fault.toError
      | .ok server => (server.host c).map Backend.relational

end ControlBus
