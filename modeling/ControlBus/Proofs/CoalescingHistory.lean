-- A coalescing table against the history of its changes: whatever order changes, clearings and
-- random pops come in, the parts of a key in the store make up the record that its changes
-- give when they are replayed one by one.
import ControlBus.Channel.Coalescing
import ControlBus.Channel.Reader
import ControlBus.Proofs.KeyStates
import ControlBus.Proofs.MemoryLaws
import ControlBus.Proofs.RecordMerge
import Mathlib.Data.List.Induction

namespace ControlBus

/-! ## Replaying changes -/

/-- One change of a key, as a producer stages it. -/
inductive StagedChange where
  | set (fields : FieldList)
  | del
deriving DecidableEq

/-- What a change makes of a record. -/
def StagedChange.apply (r : Record) : StagedChange → Record
  | .set fields => r.merge fields
  | .del => []

/-- Apply changes to a record, oldest first. -/
def replay (r : Record) (changes : List StagedChange) : Record :=
  changes.foldl StagedChange.apply r

theorem replay_append (r : Record) (a b : List StagedChange) :
    replay r (a ++ b) = replay (replay r a) b := List.foldl_append

theorem replay_snoc (r : Record) (changes : List StagedChange) (c : StagedChange) :
    replay r (changes ++ [c]) = c.apply (replay r changes) := by
  rw [replay_append]
  rfl

theorem nodup_replay {r : Record} (changes : List StagedChange) (h : (Assoc.keys r).Nodup) :
    (Assoc.keys (replay r changes)).Nodup := by
  induction changes generalizing r with
  | nil => exact h
  | cons c rest ih =>
    cases c with
    | set fields => exact ih (Record.nodup_merge fields h)
    | del => exact ih List.nodup_nil

/-- Changes can be collected apart from the record they are meant for: it loses its fields if
one of them is a deletion, and then what was collected is merged into it. -/
theorem replay_eq_merge (r : Record) (changes : List StagedChange) :
    replay r changes =
      Record.merge (if .del ∈ changes then [] else r) (replay [] changes) := by
  induction changes using List.reverseRecOn with
  | nil => simp [replay]
  | append_singleton changes c ih =>
    cases c with
    | set fields =>
      have hn : (Assoc.keys (replay [] changes)).Nodup := nodup_replay changes List.nodup_nil
      rw [replay_snoc, replay_snoc, StagedChange.apply, StagedChange.apply, ih,
        Record.merge_merge _ fields hn]
      simp
    | del => simp [replay_snoc, StagedChange.apply]

/-! ## The ledger of a key -/

/-- The changes of one key that were not cleared away: those a pop has taken, and those that
still wait, oldest first. -/
structure Ledger where
  landed : List StagedChange := []
  waiting : List StagedChange := []

namespace Ledger

/-- The record that all changes give. -/
def record (l : Ledger) : Record := replay [] (l.landed ++ l.waiting)

def stage (c : StagedChange) (l : Ledger) : Ledger := { l with waiting := l.waiting ++ [c] }

def land (l : Ledger) : Ledger := { landed := l.landed ++ l.waiting, waiting := [] }

def forget (l : Ledger) : Ledger := { l with waiting := [] }

/-- What a pop answers for the key. -/
def item (key : String) (l : Ledger) : WorkItem :=
  if l.waiting.getLast? = some .del then { key, operation := .del }
  else { key, operation := .set, fields := replay [] l.waiting }

/-- A ledger tells what the store holds for its key. -/
structure Agrees (l : Ledger) (v : KeyState) : Prop where
  pending : v.pending = true ↔ l.waiting ≠ []
  marked : v.marked = true ↔ .del ∈ l.waiting
  staged : v.staged = replay [] l.waiting
  visible : v.visible = replay [] l.landed
  written : ∀ fields, .set fields ∈ l.waiting → fields ≠ []

variable {l : Ledger} {v : KeyState}

theorem agrees_empty : ({} : Ledger).Agrees ⟨false, false, [], []⟩ where
  pending := by simp
  marked := by simp
  staged := rfl
  visible := rfl
  written := by simp

theorem Agrees.merged (h : l.Agrees v) : v.merged = l.record := by
  rw [KeyState.merged, record, replay_append, replay_eq_merge, h.staged, h.visible]
  by_cases hd : .del ∈ l.waiting
  · rw [if_pos hd, if_pos (h.marked.mpr hd)]
  · rw [if_neg hd, if_neg fun hm => hd (h.marked.mp hm)]

theorem Agrees.stage_set (h : l.Agrees v) {fields : FieldList} (hf : fields ≠ []) :
    (l.stage (.set fields)).Agrees (v.stage fields) where
  pending := by simp [KeyState.stage, stage]
  marked := by simp [KeyState.stage, stage, h.marked]
  staged := by rw [KeyState.stage, stage, h.staged, replay_snoc]; rfl
  visible := h.visible
  written := by
    intro fs hfs
    rcases List.mem_append.mp hfs with hfs | hfs
    · exact h.written fs hfs
    · cases List.mem_singleton.mp hfs
      exact hf

theorem Agrees.stage_del (h : l.Agrees v) : (l.stage .del).Agrees v.mark where
  pending := by simp [KeyState.mark, stage]
  marked := by simp [KeyState.mark, stage]
  staged := by rw [KeyState.mark, stage, replay_snoc]; rfl
  visible := h.visible
  written := by
    intro fs hfs
    rcases List.mem_append.mp hfs with hfs | hfs
    · exact h.written fs hfs
    · cases List.mem_singleton.mp hfs

theorem Agrees.land (h : l.Agrees v) : l.land.Agrees v.unpend.land where
  pending := by simp [KeyState.unpend, KeyState.land, Ledger.land]
  marked := by simp [KeyState.land, Ledger.land]
  staged := rfl
  visible := h.merged
  written := by simp [Ledger.land]

theorem Agrees.forget (h : l.Agrees v) : l.forget.Agrees v.forget where
  pending := by simp [KeyState.forget, Ledger.forget]
  marked := by simp [KeyState.forget, Ledger.forget]
  staged := by
    cases hp : v.pending with
    | true => simp [KeyState.forget, Ledger.forget, hp, replay]
    | false =>
      have hw : l.waiting = [] := by
        by_contra hne
        simpa [hp] using h.pending.mpr hne
      simp [KeyState.forget, Ledger.forget, hp, h.staged, hw]
  visible := h.visible
  written := by simp [Ledger.forget]

/-- What a pop answers for a pending key tells its changes since the last pop. -/
theorem Agrees.toItem (h : l.Agrees v) (hp : v.pending = true) (key : String) :
    Popped.toItem (key, v.staged) = l.item key := by
  rcases List.eq_nil_or_concat l.waiting with hw | ⟨older, c, hw⟩
  · exact absurd hw (h.pending.mp hp)
  · rw [List.concat_eq_append] at hw
    have hlast : l.waiting.getLast? = some c := by simp [hw]
    rw [Popped.toItem, item, hlast, h.staged]
    cases c with
    | del => simp [hw, replay_snoc, StagedChange.apply]
    | set fields =>
      have hf : fields ≠ [] := h.written fields (by simp [hw])
      have hne : replay [] l.waiting ≠ [] := by
        rw [hw, replay_snoc]
        exact fun he => hf (Record.merge_eq_nil.mp he).2
      simp [hne]

end Ledger

/-! ## The history of a table -/

/-- What happens to a coalescing table. -/
inductive TableEvent where
  | changed (key : String) (c : StagedChange)
  | popped (keys : List String)
  | cleared

namespace Ledger

/-- What an event means for the ledger of a key. -/
def note (k : String) (l : Ledger) : TableEvent → Ledger
  | .changed key c => if k = key then l.stage c else l
  | .popped keys => if k ∈ keys then l.land else l
  | .cleared => l.forget

/-- The ledger of a key after some events of its table. -/
def ofHistory (k : String) (history : List TableEvent) : Ledger := history.foldl (note k) {}

theorem ofHistory_snoc (k : String) (history : List TableEvent) (e : TableEvent) :
    ofHistory k (history ++ [e]) = (ofHistory k history).note k e := by
  simp [ofHistory, List.foldl_append]

end Ledger

/-- A write without fields is no event. -/
def eventsOfSet (key : String) (fields : FieldList) : List TableEvent :=
  if fields.isEmpty then [] else [.changed key (.set fields)]

/-- A store in which no failure is due holds of every key what the ledger tells. -/
structure Replays (t : TableName) (history : List TableEvent) (s : MemoryStore) : Prop where
  ready : s.failuresDue = 0
  valid : s.contents.SetsValid
  agrees : ∀ k, (Ledger.ofHistory k history).Agrees (s.contents.keyState t.layout k)

/-! ## Single operations -/

namespace Replays

variable {t : TableName} {history : List TableEvent} {s : MemoryStore}

/-- One event and one script that change every key in the same way. -/
theorem snoc (h : Replays t history s) (script : Script) (e : TableEvent)
    (hv : (Keyspace.run script s.contents).2.SetsValid)
    (hk : ∀ k, ((Ledger.ofHistory k history).note k e).Agrees
      ((Keyspace.run script s.contents).2.keyState t.layout k)) :
    Replays t (history ++ [e]) (s.afterScript script) where
  ready := h.ready
  valid := hv
  agrees k := by
    rw [Ledger.ofHistory_snoc]
    exact hk k

theorem set (h : Replays t history s) (ha : t.layout.Apart) (key : String) (fields : FieldList) :
    ∃ s', (CoalescingState.set t key fields).run s = (.ok (), s') ∧
      Replays t (history ++ eventsOfSet key fields) s' := by
  cases hf : fields.isEmpty with
  | true =>
    refine ⟨s, by simp [CoalescingState.set, hf, StoreOp.run_pure], ?_⟩
    simpa [eventsOfSet, hf] using h
  | false =>
    have hne : fields ≠ [] := by simpa using hf
    obtain ⟨n, hn⟩ := s.contents.run_stageWrite_fst t.layout key fields wakeToken
    refine ⟨s.afterScript (.stageWrite t.layout key fields wakeToken), ?_, ?_⟩
    · simp only [CoalescingState.set, hf, Bool.false_eq_true, if_false]
      rw [StoreOp.run_bind, MemoryStore.run_evalCount h.ready hn]
      rfl
    · rw [eventsOfSet, if_neg (by simp [hne])]
      refine h.snoc _ _ (h.valid.stageWrite t.layout key fields wakeToken) ?_
      intro k
      rw [Keyspace.keyState_stageWrite h.valid ha, Ledger.note]
      split
      · exact (h.agrees k).stage_set hne
      · exact h.agrees k

theorem del (h : Replays t history s) (ha : t.layout.Apart) (key : String) :
    ∃ s', (CoalescingState.del t key).run s = (.ok (), s') ∧
      Replays t (history ++ [.changed key .del]) s' := by
  obtain ⟨n, hn⟩ := s.contents.run_stageDelete_fst t.layout key wakeToken
  refine ⟨s.afterScript (.stageDelete t.layout key wakeToken), ?_, ?_⟩
  · rw [CoalescingState.del, StoreOp.run_bind, MemoryStore.run_evalCount h.ready hn]
    rfl
  · refine h.snoc _ _ (h.valid.stageDelete t.layout key wakeToken) ?_
    intro k
    rw [Keyspace.keyState_stageDelete h.valid ha, Ledger.note]
    split
    · exact (h.agrees k).stage_del
    · exact h.agrees k

theorem setBatch (h : Replays t history s) (ha : t.layout.Apart)
    (items : List (String × FieldList)) :
    ∃ s', (CoalescingState.setBatch t items).run s = (.ok (), s') ∧
      Replays t (history ++ items.flatMap fun e => eventsOfSet e.1 e.2) s' := by
  induction items generalizing history s with
  | nil => exact ⟨s, rfl, by simpa using h⟩
  | cons e rest ih =>
    obtain ⟨s₁, hrun, h₁⟩ := h.set ha e.1 e.2
    obtain ⟨s₂, hrest, h₂⟩ := ih h₁
    refine ⟨s₂, ?_, by simpa using h₂⟩
    rw [CoalescingState.setBatch, StoreOp.run_bind, hrun]
    exact hrest

theorem delBatch (h : Replays t history s) (ha : t.layout.Apart) (keys : List String) :
    ∃ s', (CoalescingState.delBatch t keys).run s = (.ok (), s') ∧
      Replays t (history ++ keys.map fun k => .changed k .del) s' := by
  induction keys generalizing history s with
  | nil => exact ⟨s, rfl, by simpa using h⟩
  | cons key rest ih =>
    obtain ⟨s₁, hrun, h₁⟩ := h.del ha key
    obtain ⟨s₂, hrest, h₂⟩ := ih h₁
    refine ⟨s₂, ?_, by simpa using h₂⟩
    rw [CoalescingState.delBatch, StoreOp.run_bind, hrun]
    exact hrest

theorem clear (h : Replays t history s) (ha : t.layout.Apart) :
    ∃ n s', (CoalescingState.clear t).run s = (.ok n, s') ∧
      Replays t (history ++ [.cleared]) s' := by
  obtain ⟨hn, hk⟩ := Keyspace.run_coalescedClear h.valid ha
  refine ⟨_, _, MemoryStore.run_evalCount h.ready hn, ?_⟩
  refine h.snoc _ _ (h.valid.coalescedClear t.layout) ?_
  intro k
  rw [hk]
  exact (h.agrees k).forget

/-- A pop answers the items that the ledgers of its keys tell, each key once. -/
theorem pop (h : Replays t history s) (ha : t.layout.Apart) (max : Nat) (c : CoalescingConsumer)
    (hc : c.table = t) :
    ∃ keys c' s', c.pop max s =
        (.ok (keys.map fun k => (Ledger.ofHistory k history).item k), c', s') ∧
      c'.table = t ∧ keys.Nodup ∧ Replays t (history ++ [.popped keys]) s' := by
  subst hc
  by_cases hmax : max = 0
  · refine ⟨[], { c with stats := c.stats.popCalled }, s,
      by simp [CoalescingConsumer.pop, hmax], rfl,
      List.nodup_nil, h.ready, h.valid, fun k => ?_⟩
    simpa [Ledger.ofHistory_snoc, Ledger.note] using h.agrees k
  obtain ⟨ho, hk⟩ := Keyspace.run_coalescedPop h.valid ha max
  obtain ⟨-, hp, -, -⟩ := Keyspace.popMembers_spec h.valid c.table.layout.pendingSet max
  have hn := Keyspace.nodup_popMembers h.valid c.table.layout.pendingSet max
  generalize (s.contents.popMembers c.table.layout.pendingSet max).1 = keys at ho hk hp hn
  have hitems : (keys.map fun k => (k, (s.contents.keyState c.table.layout k).staged)).map
      Popped.toItem = keys.map fun k => (Ledger.ofHistory k history).item k := by
    rw [List.map_map]
    apply List.map_congr_left
    intro k hmem
    have hpending : k ∈ s.contents.members c.table.layout.pendingSet :=
      hp.mem_iff.mpr (List.mem_append_left _ hmem)
    exact (h.agrees k).toItem (decide_eq_true hpending) k
  have hpop := c.pop_ready hmax h.ready ho
  rw [hitems] at hpop
  refine ⟨keys, _, _, hpop, rfl, hn, ?_⟩
  · refine h.snoc _ _ (h.valid.coalescedPop c.table.layout max) ?_
    intro k
    rw [hk, Ledger.note]
    split
    · exact (h.agrees k).land
    · exact h.agrees k

end Replays

/-! ## Runs of a table -/

/-- What producers and the consumer of a table do. -/
inductive TableAct where
  | set (key : String) (fields : FieldList)
  | del (key : String)
  | setBatch (items : List (String × FieldList))
  | delBatch (keys : List String)
  | clear
  | pop (max : Nat)

/-- A coalescing table at work: its store, its consumer, and what has happened so far. -/
structure TableRun where
  store : MemoryStore
  consumer : CoalescingConsumer
  history : List TableEvent := []

namespace TableRun

/-- A run on a store without keys. The numbers of `draws` pick the keys of all pops to come. -/
def start (t : TableName) (announcing : Bool) (draws : List Nat) (board : Switchboard)
    (maxPayload : Nat) (signal : TokenCounter) : TableRun where
  store := { contents := { announcing, draws }, board, maxPayload }
  consumer := { table := t, signal }

/-- A producer's operation, and what it means for the table. -/
def produce {α : Type} (op : StoreOp MemoryStore α) (events : List TableEvent) (r : TableRun) :
    TableRun :=
  { r with store := (op.run r.store).2, history := r.history ++ events }

def pop (max : Nat) (r : TableRun) : Except BusError (List WorkItem) × TableRun :=
  match r.consumer.pop max r.store with
  | (.ok items, consumer, store) =>
    (.ok items, { store, consumer, history := r.history ++ [.popped (items.map (·.key))] })
  | (.error e, consumer, store) => (.error e, { r with store, consumer })

def act (t : TableName) (r : TableRun) : TableAct → TableRun
  | .set key fields => r.produce (CoalescingState.set t key fields) (eventsOfSet key fields)
  | .del key => r.produce (CoalescingState.del t key) [.changed key .del]
  | .setBatch items =>
    r.produce (CoalescingState.setBatch t items) (items.flatMap fun e => eventsOfSet e.1 e.2)
  | .delBatch keys => r.produce (CoalescingState.delBatch t keys) (keys.map (.changed · .del))
  | .clear => r.produce (CoalescingState.clear t) [.cleared]
  | .pop max => (r.pop max).2

def run (t : TableName) (r : TableRun) (acts : List TableAct) : TableRun := acts.foldl (act t) r

/-- The changes of a key, as the run has seen them. -/
def ledger (r : TableRun) (k : String) : Ledger := Ledger.ofHistory k r.history

/-- The consumer belongs to the table, and the store holds what the history tells. -/
structure Faithful (t : TableName) (r : TableRun) : Prop where
  table : r.consumer.table = t
  replays : Replays t r.history r.store

variable {t : TableName} {r : TableRun}

theorem faithful_start (t : TableName) (announcing : Bool) (draws : List Nat)
    (board : Switchboard) (maxPayload : Nat) (signal : TokenCounter) :
    (start t announcing draws board maxPayload signal).Faithful t where
  table := rfl
  replays := {
    ready := rfl
    valid := fun _ => RandomSet.valid_empty
    agrees := fun _ => Ledger.agrees_empty }

theorem Faithful.pop (h : r.Faithful t) (ha : t.layout.Apart) (max : Nat) :
    ∃ keys r', r.pop max = (.ok (keys.map fun k => (r.ledger k).item k), r') ∧ keys.Nodup ∧
      r'.history = r.history ++ [.popped keys] ∧ r'.Faithful t := by
  obtain ⟨keys, c', s', hpop, hc, hn, hs⟩ := h.replays.pop ha max r.consumer h.table
  have hkeys : (keys.map fun k => (r.ledger k).item k).map (·.key) = keys := by
    rw [List.map_map]
    exact List.map_id'' (fun k => by simp only [Function.comp, Ledger.item]; split <;> rfl) keys
  refine ⟨keys, { store := s', consumer := c', history := r.history ++ [.popped keys] }, ?_, hn,
    rfl, hc, hs⟩
  simp only [TableRun.pop, hpop]
  rw [show (keys.map fun k => (Ledger.ofHistory k r.history).item k).map (·.key) = keys from hkeys]
  rfl

theorem Faithful.produce (h : r.Faithful t) {α : Type} {op : StoreOp MemoryStore α}
    {events : List TableEvent} {a : α} {s' : MemoryStore} (hop : op.run r.store = (.ok a, s'))
    (hs : Replays t (r.history ++ events) s') : (r.produce op events).Faithful t where
  table := h.table
  replays := by rw [TableRun.produce, hop]; exact hs

theorem Faithful.act (h : r.Faithful t) (ha : t.layout.Apart) (a : TableAct) :
    (r.act t a).Faithful t := by
  cases a with
  | set key fields =>
    obtain ⟨s', hop, hs⟩ := h.replays.set ha key fields
    exact h.produce hop hs
  | del key =>
    obtain ⟨s', hop, hs⟩ := h.replays.del ha key
    exact h.produce hop hs
  | setBatch items =>
    obtain ⟨s', hop, hs⟩ := h.replays.setBatch ha items
    exact h.produce hop hs
  | delBatch keys =>
    obtain ⟨s', hop, hs⟩ := h.replays.delBatch ha keys
    exact h.produce hop hs
  | clear =>
    obtain ⟨n, s', hop, hs⟩ := h.replays.clear ha
    exact h.produce hop hs
  | pop max =>
    obtain ⟨keys, r', hpop, -, -, hr⟩ := h.pop ha max
    rw [TableRun.act, hpop]
    exact hr

theorem Faithful.run (h : r.Faithful t) (ha : t.layout.Apart) (acts : List TableAct) :
    (r.run t acts).Faithful t := by
  induction acts generalizing r with
  | nil => exact h
  | cons a rest ih => exact ih (h.act ha a)

/-- Right after a key was popped its visible record is what all its changes give. -/
theorem visible_of_popped (h : r.Faithful t) {before : List TableEvent} {keys : List String}
    (hh : r.history = before ++ [.popped keys]) {k : String} (hk : k ∈ keys) :
    r.store.contents.record (t.recordKey k) = (Ledger.ofHistory k before).record := by
  have hv := (h.replays.agrees k).visible
  rw [hh, Ledger.ofHistory_snoc, Ledger.note, if_pos hk] at hv
  exact hv

/-- Whatever producers and the consumer of a table do, and whichever keys the pops pick: what
is staged for a key, merged into what is visible unless it is marked for deletion, is the
record that all its changes give. A pop makes just this record visible, and what it answers
for the key tells the changes since the pop before. -/
theorem parts_of_a_key_replay_its_changes (name : String) (announcing : Bool) (draws : List Nat)
    (board : Switchboard) (maxPayload : Nat) (signal : TokenCounter) (acts : List TableAct)
    (k : String) :
    let t : TableName := { name }
    let r := (start t announcing draws board maxPayload signal).run t acts
    let contents := r.store.contents
    Record.merge (if k ∈ (contents.set t.deleteSet).members then []
        else contents.record (t.recordKey k)) (contents.record (t.stagingKey k)) =
      (r.ledger k).record ∧
    ∀ max, ∃ items r', r.pop max = (.ok items, r') ∧
      ∀ item ∈ items, item.key = k →
        item = (r.ledger k).item k ∧
        (TableReader.get t k).run r'.store =
          (.ok (if (r.ledger k).record = [] then none else some (r.ledger k).record),
            r'.store) := by
  intro t r contents
  have ha : t.layout.Apart := TableName.apart name
  have hr : r.Faithful t := (faithful_start t announcing draws board maxPayload signal).run ha acts
  refine ⟨?_, fun max => ?_⟩
  · rw [ledger, ← (hr.replays.agrees k).merged, ← TableName.layout_stagingKey]
    simp only [KeyState.merged, Keyspace.keyState, decide_eq_true_eq]
    rfl
  · obtain ⟨keys, r', hpop, -, hh, hr'⟩ := hr.pop ha max
    refine ⟨_, r', hpop, ?_⟩
    intro item hitem hk
    obtain ⟨j, hj, rfl⟩ := List.mem_map.mp hitem
    have hjk : j = k := by
      rw [← hk, Ledger.item]
      split <;> rfl
    subst hjk
    refine ⟨rfl, ?_⟩
    have hget : (SharedStore.fields (t.recordKey j) : StoreOp MemoryStore FieldList).run r'.store =
        (.ok (r'.store.contents.record (t.recordKey j)), r'.store) := rfl
    rw [TableReader.get, StoreOp.run_bind, hget, visible_of_popped hr' hh hj]
    simp only [StoreOp.run_pure, List.isEmpty_iff]
    rfl

end TableRun

end ControlBus
