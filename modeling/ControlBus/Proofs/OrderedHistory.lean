-- The ordered queue against the sequence of what was appended to it: pops hand out a prefix of
-- that sequence, in its order and each entry once, and what follows the prefix is the queue.
-- Failed operations, foreign entries and new consumers change nothing about that.
import ControlBus.Channel.Ordered
import ControlBus.Proofs.KeyspaceLaws
import ControlBus.Proofs.MemoryLaws
import ControlBus.Proofs.WorkItemText

namespace ControlBus

/-! ## Entries -/

/-- What somebody appends to a queue. -/
inductive QueueEntry where
  /-- The text of an item, from a producer of the table. -/
  | item (x : WorkItem)
  /-- Any text, written to the list itself. -/
  | raw (text : String)
deriving DecidableEq

namespace QueueEntry

def text : QueueEntry → String
  | item x => x.encode
  | raw text => text

/-- What a consumer is to make of an entry: the very item that was pushed, or whatever a foreign
text happens to say. -/
def work : QueueEntry → Option WorkItem
  | item x => some x
  | raw text => WorkItem.decode text

theorem decode_text (e : QueueEntry) : WorkItem.decode e.text = e.work := by
  cases e with
  | item x => exact x.decode_encode
  | raw text => rfl

end QueueEntry

/-- The items among some entries. -/
def works (entries : List QueueEntry) : List WorkItem := entries.filterMap QueueEntry.work

/-- How many entries are no items. -/
def unreadable (entries : List QueueEntry) : Nat := entries.countP fun e => e.work.isNone

theorem decodeEntries_text (entries : List QueueEntry) :
    decodeEntries (entries.map QueueEntry.text) = (works entries, unreadable entries) := by
  simp only [decodeEntries, works, unreadable, List.filterMap_map, List.countP_map,
    Function.comp_def, QueueEntry.decode_text]

/-! ## Single operations -/

namespace OrderedQueue

/-- Items are queued behind all that is there, unless a failure is due: then nothing is. -/
theorem run_pushBatch (t : TableName) (items : List WorkItem) (s : MemoryStore) :
    ((pushBatch t items).run s).1 =
        (if s.failuresDue = 0 then .ok ((s.contents.list t.queue).length + items.length)
         else .error (.scriptFailed "list_push_and_publish" "injected failure")) ∧
      ((pushBatch t items).run s).2.contents.list t.queue =
        if s.failuresDue = 0 then s.contents.list t.queue ++ items.map WorkItem.encode
        else s.contents.list t.queue := by
  have hrun := MemoryStore.run_reading
    (.pushAndPublish t.queue (items.map WorkItem.encode) t.channel wakeToken)
    (Output.toCount "list_push_and_publish") s
  change (pushBatch t items).run s = _ at hrun
  rw [hrun]
  cases hd : s.failuresDue with
  | succ n => exact ⟨rfl, rfl⟩
  | zero =>
    refine ⟨?_, ?_⟩
    · simp [Keyspace.run, Output.toCount, Keyspace.pushBack_fst]
    · simp [Keyspace.run, Keyspace.list_pushBack]

end OrderedQueue

namespace OrderedConsumer

/-- A pop that is not due to fail takes entries from the front of the queue, hands out the items
among them and counts the others. One that fails takes nothing. -/
theorem pop_entries (c : OrderedConsumer) (s : MemoryStore) (max : Nat) {waiting : List QueueEntry}
    (hw : s.contents.list c.table.queue = waiting.map QueueEntry.text) :
    (max = 0 ∨ s.failuresDue = 0 →
      ∃ c' s', c.pop max s = (.ok (works (waiting.take max)), c', s') ∧ c'.table = c.table ∧
        c'.stats.parseErrors = c.stats.parseErrors + unreadable (waiting.take max) ∧
        s'.contents.list c.table.queue = (waiting.drop max).map QueueEntry.text) ∧
    (¬ (max = 0 ∨ s.failuresDue = 0) →
      ∃ e c' s', c.pop max s = (.error e, c', s') ∧ c'.table = c.table ∧
        c'.stats.parseErrors = c.stats.parseErrors ∧
        s'.contents.list c.table.queue = s.contents.list c.table.queue) := by
  by_cases hmax : max = 0
  · subst hmax
    refine ⟨fun _ => ⟨{ c with stats := c.stats.popCalled }, s, ?_, rfl, ?_, ?_⟩, ?_⟩
    · simp [OrderedConsumer.pop, works]
    · simp [unreadable, ChannelStats.popCalled]
    · simpa using hw
    · intro h
      exact absurd (Or.inl rfl) h
  cases hd : s.failuresDue with
  | succ n =>
    constructor
    · intro h
      simp [hmax] at h
    · intro _
      exact ⟨_, _, _, c.pop_due hmax hd, rfl, rfl, rfl⟩
  | zero =>
    have hentries : (s.contents.list c.table.queue).take max =
        (waiting.take max).map QueueEntry.text := by rw [hw, List.map_take]
    have hpop := c.pop_ready hmax hd hentries
    rw [decodeEntries_text] at hpop
    constructor
    · intro _
      refine ⟨_, _, hpop, rfl, rfl, ?_⟩
      simp [Keyspace.run, Keyspace.list_popFront, hw, List.map_drop]
    · intro h
      exact absurd (Or.inr rfl) h

/-- A new consumer leaves the contents of the store alone. -/
theorem run_attach (t : TableName) (s : MemoryStore) :
    (attach t).run s =
      (.ok { table := t, signal := {
              name := t.name, subscription := s.board.nextId,
              pending := (s.contents.list t.queue).length } },
       { s with board := (s.board.subscribe [t.channel] []).2 }) := rfl

end OrderedConsumer

/-! ## Runs of a queue -/

/-- What producers, foreign writers and the consumer of a queue do. -/
inductive QueueAct where
  | set (key : String) (fields : FieldList)
  | del (key : String)
  | push (item : WorkItem)
  | pushBatch (items : List WorkItem)
  /-- Somebody writes texts to the list itself. -/
  | pushRaw (texts : List String)
  /-- The next `n` scripts of the store are to fail. -/
  | failNext (n : Nat)
  /-- A consumer is made; one that is there is dropped before. -/
  | attach
  | drop
  | pop (max : Nat)

/-- A queue at work: its store, its consumer if there is one, what was appended since the
beginning, and what all pops have returned. -/
structure QueueRun where
  store : MemoryStore
  consumer : Option OrderedConsumer := none
  appended : List QueueEntry
  returned : List WorkItem := []

namespace QueueRun

/-- A run on any store; what lies in the queue counts as appended by somebody. -/
def start (t : TableName) (s : MemoryStore) : QueueRun where
  store := s
  appended := (s.contents.list t.queue).map .raw

/-- A producer queues items with an operation that may fail. -/
def produce (op : StoreOp MemoryStore Nat) (items : List WorkItem) (r : QueueRun) : QueueRun :=
  match op.run r.store with
  | (.ok _, store) => { r with store, appended := r.appended ++ items.map .item }
  | (.error _, store) => { r with store }

/-- The consumer is gone, and its subscription with it. -/
def drop (r : QueueRun) : QueueRun :=
  match r.consumer with
  | some c =>
    { r with store := SharedStore.abandon c.signal.subscription r.store, consumer := none }
  | none => r

def attach (t : TableName) (r : QueueRun) : QueueRun :=
  match (OrderedConsumer.attach t).run r.store with
  | (.ok c, store) => { r with store, consumer := some c }
  | (.error _, store) => { r with store }

def pop (max : Nat) (r : QueueRun) : QueueRun :=
  match r.consumer with
  | none => r
  | some c =>
    match c.pop max r.store with
    | (.ok items, c, store) =>
      { r with store, consumer := some c, returned := r.returned ++ items }
    | (.error _, c, store) => { r with store, consumer := some c }

def act (t : TableName) (r : QueueRun) : QueueAct → QueueRun
  | .set key fields =>
    r.produce (OrderedQueue.set t key fields) [{ key, operation := .set, fields }]
  | .del key => r.produce (OrderedQueue.del t key) [{ key, operation := .del }]
  | .push item => r.produce (OrderedQueue.push t item) [item]
  | .pushBatch items => r.produce (OrderedQueue.pushBatch t items) items
  | .pushRaw texts =>
    { r with store := ((SharedStore.pushBack t.queue texts : StoreOp MemoryStore Nat).run r.store).2
             appended := r.appended ++ texts.map .raw }
  | .failNext n => { r with store := r.store.injectFailures n }
  | .attach => r.drop.attach t
  | .drop => r.drop
  | .pop max => r.pop max

def run (t : TableName) (r : QueueRun) (acts : List QueueAct) : QueueRun := acts.foldl (act t) r

/-- Of the entries appended, `taken` are consumed, and `waiting` lie in the queue. -/
structure Split (t : TableName) (r : QueueRun) (taken waiting : List QueueEntry) : Prop where
  table : ∀ c, r.consumer = some c → c.table = t
  appended : r.appended = taken ++ waiting
  returned : r.returned = works taken
  queue : r.store.contents.list t.queue = waiting.map QueueEntry.text

variable {t : TableName} {r : QueueRun} {taken waiting : List QueueEntry}

theorem split_start (t : TableName) (s : MemoryStore) :
    (start t s).Split t [] ((s.contents.list t.queue).map .raw) where
  table := by simp [start]
  appended := rfl
  returned := rfl
  queue := by simp [start, Function.comp_def, QueueEntry.text]

theorem Split.pushBatch (h : r.Split t taken waiting) (items : List WorkItem) :
    ∃ waiting', (r.produce (OrderedQueue.pushBatch t items) items).Split t taken waiting' := by
  obtain ⟨hfst, hsnd⟩ := OrderedQueue.run_pushBatch t items r.store
  unfold produce
  split
  · rename_i n s' hop
    rw [hop] at hfst hsnd
    by_cases hd : r.store.failuresDue = 0
    · rw [if_pos hd] at hsnd
      refine ⟨waiting ++ items.map .item, h.table, ?_, h.returned, ?_⟩
      · rw [h.appended, List.append_assoc]
      · rw [hsnd, h.queue]
        simp [Function.comp_def, QueueEntry.text]
    · simp [hd] at hfst
  · rename_i e s' hop
    rw [hop] at hfst hsnd
    by_cases hd : r.store.failuresDue = 0
    · simp [hd] at hfst
    · rw [if_neg hd] at hsnd
      exact ⟨waiting, h.table, h.appended, h.returned, hsnd.trans h.queue⟩

theorem Split.pushRaw (h : r.Split t taken waiting) (texts : List String) :
    (r.act t (.pushRaw texts)).Split t taken (waiting ++ texts.map .raw) where
  table := h.table
  appended := by simp [act, h.appended]
  returned := h.returned
  queue := by
    have hlist := Keyspace.list_pushBack (s := r.store.contents) t.queue texts t.queue
    rw [if_pos rfl, h.queue] at hlist
    refine hlist.trans ?_
    simp [Function.comp_def, QueueEntry.text]

theorem Split.drop (h : r.Split t taken waiting) : r.drop.Split t taken waiting := by
  unfold QueueRun.drop
  split
  · exact ⟨by simp, h.appended, h.returned, h.queue⟩
  · exact h

theorem Split.attach (h : r.Split t taken waiting) : (r.attach t).Split t taken waiting := by
  simp only [QueueRun.attach, OrderedConsumer.run_attach]
  refine ⟨?_, h.appended, h.returned, h.queue⟩
  intro c hc
  cases hc
  rfl

theorem Split.pop (h : r.Split t taken waiting) (max : Nat) :
    ∃ taken' waiting', (r.pop max).Split t taken' waiting' := by
  unfold QueueRun.pop
  split
  · exact ⟨taken, waiting, h⟩
  · rename_i c hc
    have hct := h.table c hc
    obtain ⟨hok, hfail⟩ := c.pop_entries r.store max (hct ▸ h.queue)
    by_cases hready : max = 0 ∨ r.store.failuresDue = 0
    · obtain ⟨c', s', hpop, hc', -, hq⟩ := hok hready
      rw [hpop]
      refine ⟨taken ++ waiting.take max, waiting.drop max, ?_, ?_, ?_, hct ▸ hq⟩
      · intro c'' hc''
        cases hc''
        exact hc'.trans hct
      · rw [List.append_assoc, List.take_append_drop, h.appended]
      · simp [h.returned, works]
    · obtain ⟨e, c', s', hpop, hc', -, hq⟩ := hfail hready
      rw [hpop]
      refine ⟨taken, waiting, ?_, h.appended, h.returned, ?_⟩
      · intro c'' hc''
        cases hc''
        exact hc'.trans hct
      · exact (hct ▸ hq).trans h.queue

theorem Split.act (h : r.Split t taken waiting) (a : QueueAct) :
    ∃ taken' waiting', (r.act t a).Split t taken' waiting' := by
  cases a with
  | set key fields => exact ⟨taken, h.pushBatch [_]⟩
  | del key => exact ⟨taken, h.pushBatch [_]⟩
  | push item => exact ⟨taken, h.pushBatch [item]⟩
  | pushBatch items => exact ⟨taken, h.pushBatch items⟩
  | pushRaw texts => exact ⟨taken, _, h.pushRaw texts⟩
  | failNext n => exact ⟨taken, waiting, h.table, h.appended, h.returned, h.queue⟩
  | attach => exact ⟨taken, waiting, h.drop.attach⟩
  | drop => exact ⟨taken, waiting, h.drop⟩
  | pop max => exact h.pop max

theorem Split.run (h : r.Split t taken waiting) (acts : List QueueAct) :
    ∃ taken' waiting', (r.run t acts).Split t taken' waiting' := by
  induction acts generalizing r taken waiting with
  | nil => exact ⟨taken, waiting, h⟩
  | cons a rest ih =>
    obtain ⟨taken', waiting', h'⟩ := h.act a
    exact ih h'

/-- Whatever producers, foreign writers, failures and consumers do: what all pops returned are
the items of a prefix of what was appended, and the queue is what follows it. From there a pop
takes as many entries as it may, and a push adds its items behind all others; one that fails
changes nothing. -/
theorem pops_hand_out_a_prefix (t : TableName) (s : MemoryStore) (acts : List QueueAct) :
    let r := (start t s).run t acts
    ∃ taken waiting, r.appended = taken ++ waiting ∧ r.returned = works taken ∧
      r.store.contents.list t.queue = waiting.map QueueEntry.text ∧
      (∀ c max, r.consumer = some c →
        (max = 0 ∨ r.store.failuresDue = 0 →
          ∃ now later c' s', c.pop max r.store = (.ok (works now), c', s') ∧
            waiting = now ++ later ∧ now.length = min max waiting.length ∧
            (works now).length ≤ max ∧
            c'.stats.parseErrors = c.stats.parseErrors + unreadable now ∧
            s'.contents.list t.queue = later.map QueueEntry.text) ∧
        (¬ (max = 0 ∨ r.store.failuresDue = 0) →
          ∃ e c' s', c.pop max r.store = (.error e, c', s') ∧
            c'.stats.parseErrors = c.stats.parseErrors ∧
            s'.contents.list t.queue = waiting.map QueueEntry.text)) ∧
      ∀ items,
        (r.store.failuresDue = 0 →
          ∃ n s', (OrderedQueue.pushBatch t items).run r.store = (.ok n, s') ∧
            s'.contents.list t.queue = (waiting ++ items.map QueueEntry.item).map QueueEntry.text) ∧
        (r.store.failuresDue ≠ 0 →
          ∃ e s', (OrderedQueue.pushBatch t items).run r.store = (.error e, s') ∧
            s'.contents.list t.queue = waiting.map QueueEntry.text) := by
  intro r
  obtain ⟨taken, waiting, h⟩ := (split_start t s).run acts
  refine ⟨taken, waiting, h.appended, h.returned, h.queue, fun c max hc => ?_, fun items => ?_⟩
  · have hct := h.table c hc
    have hqueue : r.store.contents.list c.table.queue = waiting.map QueueEntry.text := by
      rw [hct]
      exact h.queue
    obtain ⟨hok, hfail⟩ := c.pop_entries r.store max hqueue
    rw [hct] at hok hfail
    constructor
    · intro hready
      obtain ⟨c', s', hpop, -, herrors, hq⟩ := hok hready
      refine ⟨waiting.take max, waiting.drop max, c', s', hpop, (List.take_append_drop ..).symm,
        List.length_take, ?_, herrors, hq⟩
      calc (works (waiting.take max)).length ≤ (waiting.take max).length :=
            List.length_filterMap_le ..
        _ ≤ max := List.length_take_le ..
    · intro hdue
      obtain ⟨e, c', s', hpop, -, herrors, hq⟩ := hfail hdue
      exact ⟨e, c', s', hpop, herrors, hq.trans h.queue⟩
  · obtain ⟨hfst, hsnd⟩ := OrderedQueue.run_pushBatch t items r.store
    constructor
    · intro hready
      rw [if_pos hready] at hfst hsnd
      refine ⟨_, _, Prod.ext hfst rfl, hsnd.trans ?_⟩
      rw [h.queue]
      simp [Function.comp_def, QueueEntry.text]
    · intro hdue
      rw [if_neg hdue] at hfst hsnd
      exact ⟨_, _, Prod.ext hfst rfl, hsnd.trans h.queue⟩

end QueueRun

end ControlBus
