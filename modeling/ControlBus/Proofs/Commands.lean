-- The operations on stored data as commands that every store can carry out, one after the other,
-- and what they do to a store in memory.
import ControlBus.Proofs.MemoryLaws

namespace ControlBus

/-- An operation on stored data. -/
inductive Command where
  | pushBack (list : String) (entries : List String)
  | listLength (list : String)
  | addMembers (set : String) (members : List String)
  | setSize (set : String)
  | record (key : String)
  | mergeFields (key : String) (fields : FieldList)
  | delete (key : String)
  | eval (script : Script)

/-- What a command gives. -/
inductive Reply where
  | done
  | count (n : Nat)
  | truth (b : Bool)
  | fields (fields : FieldList)
  | output (o : Output)
deriving Repr, DecidableEq

namespace Command

variable {σ : Type} [SharedStore σ]

/-- Carry out a command. -/
def perform : Command → StoreOp σ Reply
  | .pushBack list entries => do return .count (← SharedStore.pushBack list entries)
  | .listLength list => do return .count (← SharedStore.listLength list)
  | .addMembers set members => do return .count (← SharedStore.addMembers set members)
  | .setSize set => do return .count (← SharedStore.setSize set)
  | .record key => do return .fields (← SharedStore.fields key)
  | .mergeFields key fields => do
    SharedStore.mergeFields key fields
    return .done
  | .delete key => do return .truth (← SharedStore.delete key)
  | .eval script => do return .output (← SharedStore.eval script)

/-- Carry out commands one after the other, also after failures. -/
def performAll : List Command → σ → List (Except BusError Reply) × σ
  | [], s => ([], s)
  | c :: rest, s =>
    let (reply, s) := c.perform.run s
    let (replies, s) := performAll rest s
    (reply :: replies, s)

omit [SharedStore σ] in
theorem run_reply {α : Type} {op : StoreOp σ α} {s s' : σ} {a : α} (h : op.run s = (.ok a, s'))
    (reply : α → Reply) :
    (do return reply (← op) : StoreOp σ Reply).run s = (.ok (reply a), s') := by
  rw [StoreOp.run_bind, h]
  rfl

/-! ## Commands on a store in memory -/

/-- What a command makes of contents in memory. -/
def change : Command → Keyspace → Reply × Keyspace
  | .pushBack list entries, k => (.count (k.pushBack list entries).1, (k.pushBack list entries).2)
  | .listLength list, k => (.count (k.listLength list), k)
  | .addMembers set members, k =>
    (.count (k.addMembers set members).1, (k.addMembers set members).2)
  | .setSize set, k => (.count (k.setSize set), k)
  | .record key, k => (.fields (k.record key), k)
  | .mergeFields key fields, k => (.done, k.mergeFields key fields)
  | .delete key, k => (.truth (k.delete key).1, (k.delete key).2)
  | .eval script, k => (.output (k.run script).1, (k.run script).2)

end Command

/-- A store in memory after a change of its contents. -/
def MemoryStore.settle (m : MemoryStore) (contents : Keyspace) : MemoryStore :=
  { m with contents }.flush

variable {m : MemoryStore}

theorem MemoryStore.settle_contents (h : m.contents.outbox = []) : m.settle m.contents = m := by
  obtain ⟨⟨lists, sets, records, announcing, outbox, draws⟩, board, maxPayload, failuresDue⟩ := m
  dsimp only at h
  subst h
  rfl

/-- A store that owes nothing and is not due to fail carries out every command. -/
theorem Command.run_perform (c : Command) (hready : m.failuresDue = 0)
    (hquiet : m.contents.outbox = []) :
    c.perform.run m = (.ok (c.change m.contents).1, m.settle (c.change m.contents).2) := by
  have hsame := MemoryStore.settle_contents hquiet
  cases c with
  | pushBack list entries => rfl
  | addMembers set members => rfl
  | mergeFields key fields => rfl
  | delete key => rfl
  | listLength list =>
    rw [change, hsame]
    rfl
  | setSize set =>
    rw [change, hsame]
    rfl
  | record key =>
    rw [change, hsame]
    rfl
  | eval script =>
    have heval : (SharedStore.eval script : StoreOp MemoryStore Output).run m =
        (.ok (Keyspace.run script m.contents).1, m.afterScript script) := by
      refine (MemoryStore.eval_eq script m).trans ?_
      rw [hready]
    exact run_reply heval .output

end ControlBus
