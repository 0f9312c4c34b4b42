-- Scripts on the store held in memory. A script that is due to fail touches nothing; any other
-- one changes the contents as a whole and then sends out what the change announced. So a pop
-- takes either nothing or all that it may.
import ControlBus.Channel.Coalescing
import ControlBus.Channel.Ordered
import ControlBus.Proofs.KeyspaceLaws
import ControlBus.Store.Memory

namespace ControlBus

/-! ## Operations in sequence -/

namespace StoreOp

variable {σ α β : Type}

theorem run_bind (op : StoreOp σ α) (next : α → StoreOp σ β) (s : σ) :
    (op >>= next).run s =
      match op.run s with
      | (.ok a, s) => (next a).run s
      | (.error e, s) => (.error e, s) := by
  simp only [ExceptT.run, bind, ExceptT.bind, ExceptT.mk, ExceptT.bindCont, StateT.bind]
  cases op s with
  | mk result s' => cases result <;> rfl

theorem run_pure (a : α) (s : σ) : (pure a : StoreOp σ α).run s = (.ok a, s) := rfl

end StoreOp

theorem SharedStore.run_orAbandon {σ α : Type} [SharedStore σ] (id : Nat) (op : StoreOp σ α)
    (s : σ) :
    (orAbandon id op).run s =
      match op.run s with
      | (.ok a, s) => (.ok a, s)
      | (.error e, s) => (.error e, abandon id s) := by
  change orAbandon id op s = _
  unfold orAbandon
  cases op.run s with
  | mk result s' => cases result <;> rfl

namespace MemoryStore

variable {s : MemoryStore}

/-! ## One script -/

/-- The store after a script that was not due to fail. -/
def afterScript (script : Script) (s : MemoryStore) : MemoryStore :=
  { s with contents := (Keyspace.run script s.contents).2 }.flush

@[simp] theorem list_afterScript (script : Script) (key : String) :
    (s.afterScript script).contents.list key = (Keyspace.run script s.contents).2.list key := rfl

@[simp] theorem set_afterScript (script : Script) (key : String) :
    (s.afterScript script).contents.set key = (Keyspace.run script s.contents).2.set key := rfl

@[simp] theorem record_afterScript (script : Script) (key : String) :
    (s.afterScript script).contents.record key = (Keyspace.run script s.contents).2.record key :=
  rfl

@[simp] theorem failuresDue_afterScript (script : Script) :
    (s.afterScript script).failuresDue = s.failuresDue := rfl

theorem eval_eq (script : Script) (s : MemoryStore) :
    s.eval script =
      match s.failuresDue with
      | n + 1 =>
        (.error (.scriptFailed script.name "injected failure"), { s with failuresDue := n })
      | 0 => (.ok (Keyspace.run script s.contents).1, s.afterScript script) := by
  unfold eval apply afterScript
  cases s.failuresDue <;> rfl

/-- A script whose output is read by `read`: a failure that is due leaves the contents alone. -/
theorem run_reading {α : Type} (script : Script) (read : Output → Except BusError α)
    (s : MemoryStore) :
    (do liftM (read (← SharedStore.eval script)) : StoreOp MemoryStore α).run s =
      match s.failuresDue with
      | n + 1 =>
        (.error (.scriptFailed script.name "injected failure"), { s with failuresDue := n })
      | 0 => (read (Keyspace.run script s.contents).1, s.afterScript script) := by
  have heval : (SharedStore.eval script : StoreOp MemoryStore Output).run s = s.eval script := rfl
  rw [StoreOp.run_bind, heval, eval_eq]
  cases s.failuresDue with
  | succ n => rfl
  | zero =>
    dsimp only
    cases read (Keyspace.run script s.contents).1 <;> rfl

/-- A script that counts, in a store that is ready for it. -/
theorem run_evalCount {script : Script} {n : Nat} (hr : s.failuresDue = 0)
    (ho : (Keyspace.run script s.contents).1 = .count n) :
    (SharedStore.evalCount script : StoreOp MemoryStore Nat).run s =
      (.ok n, s.afterScript script) := by
  have h := run_reading script (Output.toCount script.name) s
  rw [hr, ho] at h
  exact h

end MemoryStore

/-! ## Pops -/

namespace OrderedConsumer

variable {s : MemoryStore} {max : Nat}

/-- A pop from a store that is due to fail takes nothing. -/
theorem pop_due (c : OrderedConsumer) (hmax : max ≠ 0) {n : Nat} (hd : s.failuresDue = n + 1) :
    c.pop max s =
      (.error (.scriptFailed "list_pop_front" "injected failure"),
        { c with stats := c.stats.popCalled }, { s with failuresDue := n }) := by
  have hrun := MemoryStore.run_reading (.popFront c.table.queue max)
    (Output.toEntries "list_pop_front") s
  change (SharedStore.evalEntries (.popFront c.table.queue max)).run s = _ at hrun
  rw [hd] at hrun
  simp only [OrderedConsumer.pop, hmax, if_false, hrun, Script.name]

/-- Any other pop takes entries from the front of the queue. -/
theorem pop_ready (c : OrderedConsumer) (hmax : max ≠ 0) (hd : s.failuresDue = 0)
    {entries : List String} (he : (s.contents.list c.table.queue).take max = entries) :
    c.pop max s =
      (.ok (decodeEntries entries).1,
        { c with
          signal := c.signal.settle entries.length max
          stats := c.stats.popCalled.popReturned (decodeEntries entries).1.length
            (decodeEntries entries).2 },
        s.afterScript (.popFront c.table.queue max)) := by
  have hrun := MemoryStore.run_reading (.popFront c.table.queue max)
    (Output.toEntries "list_pop_front") s
  change (SharedStore.evalEntries (.popFront c.table.queue max)).run s = _ at hrun
  have hout : Output.toEntries "list_pop_front"
      (Keyspace.run (.popFront c.table.queue max) s.contents).1 = .ok entries := by
    simp [Keyspace.run, Output.toEntries, Keyspace.popFront_fst, he]
  rw [hd, hout] at hrun
  simp only [OrderedConsumer.pop, hmax, if_false, hrun]

end OrderedConsumer

namespace CoalescingConsumer

variable {s : MemoryStore} {max : Nat}

theorem pop_due (c : CoalescingConsumer) (hmax : max ≠ 0) {n : Nat}
    (hd : s.failuresDue = n + 1) :
    c.pop max s =
      (.error (.scriptFailed "coalesced_pop" "injected failure"),
        { c with stats := c.stats.popCalled }, { s with failuresDue := n }) := by
  have hrun := MemoryStore.run_reading (.coalescedPop c.table.layout max)
    (Output.toRecords "coalesced_pop") s
  change (SharedStore.evalRecords (.coalescedPop c.table.layout max)).run s = _ at hrun
  rw [hd] at hrun
  simp only [CoalescingConsumer.pop, hmax, if_false, hrun, Script.name]

theorem pop_ready (c : CoalescingConsumer) (hmax : max ≠ 0) (hd : s.failuresDue = 0)
    {records : List Popped}
    (ho : (Keyspace.run (.coalescedPop c.table.layout max) s.contents).1 = .records records) :
    c.pop max s =
      (.ok (records.map Popped.toItem),
        { c with
          signal := c.signal.settle records.length max
          stats := c.stats.popCalled.popReturned records.length 0 },
        s.afterScript (.coalescedPop c.table.layout max)) := by
  have hrun := MemoryStore.run_reading (.coalescedPop c.table.layout max)
    (Output.toRecords "coalesced_pop") s
  change (SharedStore.evalRecords (.coalescedPop c.table.layout max)).run s = _ at hrun
  rw [hd, ho] at hrun
  simp only [CoalescingConsumer.pop, hmax, if_false, hrun, Output.toRecords]

end CoalescingConsumer

end ControlBus
