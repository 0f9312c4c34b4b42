-- The steps of a simulation that only use the store: producers, readers and the plain
-- operations of the store.
import ControlBus.Channel.Change
import ControlBus.Channel.Coalescing
import ControlBus.Channel.Message
import ControlBus.Channel.Ordered
import ControlBus.Simulation.Answer
import ControlBus.Store.Backend

namespace ControlBus.Simulation

inductive StoreStep where
  | pushBack (list : String) (entries : List String)
  | listLength (list : String)
  | addMembers (set : String) (members : List String)
  | setSize (set : String)
  | readFields (key : String)
  | mergeFields (key : String) (fields : FieldList)
  | delete (key : String)
  | keys (pattern : String)
  | publish (channel payload : String)
  | maxPayload
  | eval (script : Script)
  | dump (pattern : String)
  | queueSet (t : TableName) (key : String) (fields : FieldList)
  | queueDel (t : TableName) (key : String)
  | queuePush (t : TableName) (item : WorkItem)
  | queuePushBatch (t : TableName) (items : List WorkItem)
  | stageSet (t : TableName) (key : String) (fields : FieldList)
  | stageDel (t : TableName) (key : String)
  | stageSetBatch (t : TableName) (entries : List (String × FieldList))
  | stageDelBatch (t : TableName) (keys : List String)
  | stagePending (t : TableName)
  | stageClear (t : TableName)
  | sendSet (channel key : String) (fields : FieldList)
  | sendDel (channel key : String)
  | send (channel : String) (item : WorkItem)
  | get (t : TableName) (key : String)
  | getField (t : TableName) (key field : String)
  | tableKeys (t : TableName)
deriving Repr, DecidableEq

/-- Texts compared one by one, then by length. -/
def textsLe : List String → List String → Bool
  | [], _ => true
  | _ :: _, [] => false
  | a :: as, b :: bs => if a = b then textsLe as bs else decide (a < b)

/-- A record as one row of texts. -/
def Popped.texts (p : Popped) : List String := p.1 :: p.2.flatMap fun f => [f.1, f.2]

/-- Records by key, then by fields: the keys were drawn at random, so their order tells
nothing. -/
def inRecordOrder : Output → Output
  | .records rs => .records (rs.mergeSort fun a b => textsLe (Popped.texts a) (Popped.texts b))
  | o => o

namespace StoreStep

/-- All that is stored under some keys. -/
def readAll [SharedStore σ] : List String → StoreOp σ (List StoredKey)
  | [] => pure []
  | key :: rest => do
    let listLength ← SharedStore.listLength key
    let setSize ← SharedStore.setSize key
    let fields ← SharedStore.fields key
    return { key, listLength, setSize, fields } :: (← readAll rest)

/-- Take a step on a store. -/
def run : StoreStep → StoreOp Backend Answer
  | pushBack list entries => Answer.count <$> SharedStore.pushBack list entries
  | listLength list => Answer.count <$> SharedStore.listLength list
  | addMembers set members => Answer.count <$> SharedStore.addMembers set members
  | setSize set => Answer.count <$> SharedStore.setSize set
  | readFields key => Answer.fields <$> SharedStore.fields key
  | mergeFields key fields => (fun _ => Answer.done) <$> SharedStore.mergeFields key fields
  | delete key => Answer.truth <$> SharedStore.delete key
  | keys pattern => Answer.texts <$> SharedStore.keys pattern
  | publish channel payload => Answer.count <$> SharedStore.publish channel payload
  | maxPayload => (fun s => Answer.count s.maxPayload) <$> getThe Backend
  | eval script => (fun o => Answer.output (inRecordOrder o)) <$> SharedStore.eval script
  | dump pattern => do return .contents (← readAll (← SharedStore.keys pattern))
  | queueSet t key fields => Answer.count <$> OrderedQueue.set t key fields
  | queueDel t key => Answer.count <$> OrderedQueue.del t key
  | queuePush t item => Answer.count <$> OrderedQueue.push t item
  | queuePushBatch t items => Answer.count <$> OrderedQueue.pushBatch t items
  | stageSet t key fields => (fun _ => Answer.done) <$> CoalescingState.set t key fields
  | stageDel t key => (fun _ => Answer.done) <$> CoalescingState.del t key
  | stageSetBatch t entries => (fun _ => Answer.done) <$> CoalescingState.setBatch t entries
  | stageDelBatch t ks => (fun _ => Answer.done) <$> CoalescingState.delBatch t ks
  | stagePending t => Answer.count <$> CoalescingState.pendingCount t
  | stageClear t => Answer.count <$> CoalescingState.clear t
  | sendSet channel key fields => Answer.count <$> Message.set channel key fields
  | sendDel channel key => Answer.count <$> Message.del channel key
  | send channel item => Answer.count <$> Message.send channel item
  | get t key => Answer.foundFields <$> TableReader.get t key
  | getField t key field => Answer.foundText <$> TableReader.getField t key field
  | tableKeys t => Answer.texts <$> TableReader.keys t

end StoreStep

end ControlBus.Simulation
