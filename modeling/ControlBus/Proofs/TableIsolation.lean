-- Tables whose store keys meet. Wherever a table may write under a store key at which another
-- table looks, some operations from an empty store on make it show there. So two tables are
-- isolated just if no such key exists, and their names alone tell whether one does.
import ControlBus.Proofs.ScriptRuns
import ControlBus.Proofs.TableSights

namespace ControlBus

/-! ## Single operations -/

/-- A store that is not due to fail and whose sets are in order. -/
structure MemoryStore.Serving (s : MemoryStore) : Prop where
  due : s.failuresDue = 0
  sets : s.contents.SetsValid

theorem MemoryStore.Serving.afterScript {s : MemoryStore} (h : s.Serving) {script : Script}
    (hsets : (s.contents.run script).2.SetsValid) : (s.afterScript script).Serving :=
  ⟨h.due, hsets.of_eq (MemoryStore.set_afterScript script)⟩

namespace Keyspace

variable {k : Keyspace} {l : Layout}

theorem holds_of_list {key : String} (h : k.list key ≠ []) : k.holds key = true := by
  unfold list at h
  unfold holds Assoc.has
  cases hget : Assoc.get? k.lists key with
  | none => simp [hget] at h
  | some entries => rfl

theorem holds_of_members {key : String} (h : k.members key ≠ []) : k.holds key = true := by
  unfold members set at h
  unfold holds Assoc.has
  cases hget : Assoc.get? k.sets key with
  | none => simp [hget] at h
  | some x => simp

theorem record_markPending (key token j : String) :
    (k.markPending l key token).2.record j = k.record j := by
  have hadd := (addMember_frame (s := k) l.pendingSet key j).2
  unfold markPending
  split
  · rename_i k' heq
    rw [heq] at hadd
    exact hadd
  · rename_i k' heq
    rw [heq] at hadd
    exact hadd

theorem members_markPending (h : k.SetsValid) (key token j : String) :
    (k.markPending l key token).2.members j =
      if l.pendingSet = j ∧ key ∉ k.members j then k.members j ++ [key] else k.members j := by
  have hadd := members_addMember h l.pendingSet key j
  unfold markPending
  split
  · rename_i k' heq
    rw [heq] at hadd
    exact hadd
  · rename_i k' heq
    rw [heq] at hadd
    exact hadd

theorem popMembers_singleton (h : k.SetsValid) {set key : String} (hset : k.members set = [key]) :
    (k.popMembers set 1).1 = [key] := by
  obtain ⟨-, hperm, hlength, -⟩ := popMembers_spec h set 1
  rw [hset] at hperm hlength
  obtain ⟨x, hx⟩ := List.length_eq_one_iff.mp hlength
  rw [hx] at hperm ⊢
  have hin : x ∈ [key] := hperm.mem_iff.mpr (by simp)
  rw [List.mem_singleton.mp hin]

/-- A pop of the only pending key, which is not marked: its staged fields are handed out and
merged into its record. -/
theorem run_coalescedPop_singleton (h : k.SetsValid) (hsets : l.pendingSet ≠ l.deleteSet)
    {key : String} (hpending : k.members l.pendingSet = [key])
    (hunmarked : key ∉ k.members l.deleteSet) (hkey : l.stagingKey key ≠ l.recordKey key) :
    (k.run (.coalescedPop l 1)).1 = .records [(key, k.record (l.stagingKey key))] ∧
      (k.run (.coalescedPop l 1)).2.record (l.recordKey key) =
        (k.record (l.recordKey key)).merge (k.record (l.stagingKey key)) := by
  obtain ⟨hvalid, -, -, hothers⟩ := popMembers_spec h l.pendingSet 1
  have hdraw := popMembers_singleton h hpending
  have hunmarked' : key ∉ (k.popMembers l.pendingSet 1).2.members l.deleteSet := by
    rwa [hothers _ hsets]
  simp only [run, hdraw, materializeAll, materialize, takeRecord_fst, record_mergeFields,
    record_takeRecord, record_honourDelete hvalid, hunmarked', false_and, if_false,
    popMembers_frame, hkey, if_true, and_self]

end Keyspace

namespace TableUse

variable {s : MemoryStore} (t : TableName)

theorem after_push (hdue : s.failuresDue = 0) (items : List WorkItem) :
    after t (.push items) s = s.afterScript
      (.pushAndPublish t.queue (items.map WorkItem.encode) t.channel wakeToken) := by
  let script : Script :=
    .pushAndPublish t.queue (items.map WorkItem.encode) t.channel wakeToken
  have hrun : (SharedStore.evalCount script).run s = (.ok _, s.afterScript script) :=
    MemoryStore.run_evalCount hdue rfl
  change ((OrderedQueue.pushBatch t items >>= fun _ => pure ()).run s).2 = _
  rw [StoreOp.run_bind, OrderedQueue.pushBatch, hrun]
  rfl

theorem after_set (hdue : s.failuresDue = 0) (key : String) (fields : FieldList)
    (hfields : fields ≠ []) :
    after t (.set key fields) s = s.afterScript (.stageWrite t.layout key fields wakeToken) := by
  have hrun := CoalescingState.run_set t hdue key fields
  rw [CoalescingState.writeScripts, if_neg (by simpa using hfields),
    MemoryStore.afterScripts_one] at hrun
  exact congrArg Prod.snd hrun

theorem after_clear (hdue : s.failuresDue = 0) :
    after t .clear s = s.afterScript (.coalescedClear t.layout) := by
  have hrun := CoalescingState.run_clear t hdue
  rw [MemoryStore.afterScripts_one] at hrun
  change ((CoalescingState.clear t >>= fun _ => pure ()).run s).2 = _
  rw [StoreOp.run_bind, hrun]
  rfl

theorem list_push (hdue : s.failuresDue = 0) (items : List WorkItem) (j : String) :
    (after t (.push items) s).contents.list j =
      if t.queue = j then s.contents.list j ++ items.map WorkItem.encode
      else s.contents.list j := by
  rw [after_push t hdue, MemoryStore.list_afterScript]
  exact Keyspace.list_pushBack t.queue (items.map WorkItem.encode) j

/-- What is pending and marked in a table is its own, as long as its name is. -/
theorem after_sets {t u : TableName} (hnames : t.name ≠ u.name) (use : TableUse)
    (s : MemoryStore) :
    (after t use s).contents.members u.pendingSet = s.contents.members u.pendingSet ∧
      (after t use s).contents.members u.deleteSet = s.contents.members u.deleteSet := by
  let v : KeyView :=
    { lists := fun _ => False
      sets := fun j => j = u.pendingSet ∨ j = u.deleteSet
      records := fun _ => False
      draws := False }
  have hlayout : t.layout.OutOf v :=
    { pendingSet := fun hset => hset.elim (fun hp => hnames (TableName.pendingSet_inj hp))
        (TableName.pendingSet_ne_deleteSet t u)
      deleteSet := ⟨id, fun hset => hset.elim
        (fun hp => TableName.pendingSet_ne_deleteSet u t hp.symm)
        (fun hd => hnames (TableName.deleteSet_inj hd)), id⟩
      staging := fun _ => id
      record := fun _ => id
      draws := id }
  have hsame : Keyspace.LooksSame v s.contents (after t use s).contents :=
    use.outOf (v := v) id hlayout s
  exact ⟨Keyspace.members_congr (hsame.set (Or.inl rfl)),
    Keyspace.members_congr (hsame.set (Or.inr rfl))⟩

variable (h : s.Serving)

include h

theorem ready_set (key : String) (fields : FieldList) (hfields : fields ≠ []) :
    (after t (.set key fields) s).Serving := by
  rw [after_set t h.due key fields hfields]
  exact h.afterScript (h.sets.stageWrite t.layout key fields wakeToken)

theorem record_set (key : String) (fields : FieldList) (hfields : fields ≠ []) (j : String) :
    (after t (.set key fields) s).contents.record j =
      if t.stagingKey key = j then (s.contents.record j).merge fields
      else s.contents.record j := by
  rw [after_set t h.due key fields hfields, MemoryStore.record_afterScript, ← t.layout_stagingKey]
  exact (Keyspace.record_markPending key wakeToken j).trans (Keyspace.record_mergeFields ..)

theorem members_set (key : String) (fields : FieldList) (hfields : fields ≠ []) (j : String) :
    (after t (.set key fields) s).contents.members j =
      if t.pendingSet = j ∧ key ∉ s.contents.members j then s.contents.members j ++ [key]
      else s.contents.members j := by
  have hframe := fun j => (Keyspace.mergeFields_frame (s := s.contents)
    (t.layout.stagingKey key) fields j).2
  have hmark := Keyspace.members_markPending (l := t.layout) (h.sets.of_eq hframe) key wakeToken j
  rw [Keyspace.members_congr (hframe j)] at hmark
  rw [after_set t h.due key fields hfields]
  exact hmark

theorem ready_clear : (after t .clear s).Serving := by
  rw [after_clear t h.due]
  exact h.afterScript (h.sets.coalescedClear t.layout)

/-- Clearing leaves nothing under the key of the marks, not even a record. -/
theorem record_clear : (after t .clear s).contents.record t.deleteSet = [] := by
  rw [after_clear t h.due, MemoryStore.record_afterScript]
  exact (Keyspace.delete_spec _ _).2.2.trans (if_pos rfl)

end TableUse

/-- A table of which one key waits to be popped, and is not marked for deletion. -/
structure AwaitsOne (t : TableName) (key : String) (s : MemoryStore) : Prop where
  ready : s.Serving
  pending : s.contents.members t.pendingSet = [key]
  unmarked : key ∉ s.contents.members t.deleteSet

namespace AwaitsOne

open TableUse

variable {t : TableName} {key : String} {s : MemoryStore}

/-- A first write makes its key wait. -/
theorem of_set (h : s.Serving) (hpending : s.contents.members t.pendingSet = [])
    (hmarks : s.contents.members t.deleteSet = []) (fields : FieldList) (hfields : fields ≠ []) :
    AwaitsOne t key (after t (.set key fields) s) where
  ready := ready_set t h key fields hfields
  pending := by
    rw [members_set t h key fields hfields, hpending, if_pos ⟨rfl, List.not_mem_nil⟩]
    rfl
  unmarked := by
    rw [members_set t h key fields hfields, hmarks,
      if_neg fun hin => TableName.pendingSet_ne_deleteSet t t hin.1]
    exact List.not_mem_nil

/-- Operations on a table of another name do not change it. -/
theorem after_other {u : TableName} (h : AwaitsOne t key s) (hnames : u.name ≠ t.name)
    (use : TableUse) (hready : (use.after u s).Serving) : AwaitsOne t key (use.after u s) := by
  obtain ⟨hpending, hmarks⟩ := after_sets hnames use s
  exact ⟨hready, hpending.trans h.pending, hmarks ▸ h.unmarked⟩

variable (h : AwaitsOne t key s) (c : CoalescingConsumer)

include h

theorem run_coalescedPop :
    (s.contents.run (.coalescedPop t.layout 1)).1 =
        .records [(key, s.contents.record (t.stagingKey key))] ∧
      (s.contents.run (.coalescedPop t.layout 1)).2.record (t.recordKey key) =
        (s.contents.record (t.recordKey key)).merge (s.contents.record (t.stagingKey key)) := by
  have hrun := Keyspace.run_coalescedPop_singleton h.ready.sets
    (TableName.pendingSet_ne_deleteSet t t) h.pending h.unmarked
    (t.layout_stagingKey key ▸ t.stagingKey_ne_recordKey key)
  rw [t.layout_stagingKey] at hrun
  exact hrun

/-- A pop hands out what is staged for the key. -/
theorem run_pop :
    ((TablePop.state c 1).perform t).run s =
      (.ok [Popped.toItem (key, s.contents.record (t.stagingKey key))],
        s.afterScript (.coalescedPop t.layout 1)) := by
  have hpop := CoalescingConsumer.pop_ready { c with table := t } Nat.one_ne_zero h.ready.due
    h.run_coalescedPop.1
  have hrun : ((TablePop.state c 1).perform t).run s =
    (({ c with table := t }.pop 1 s).1, ({ c with table := t }.pop 1 s).2.2) := rfl
  rw [hrun, hpop]
  rfl

theorem after_pop :
    after t (.pop (.state c 1)) s = s.afterScript (.coalescedPop t.layout 1) := by
  change (((TablePop.state c 1).perform t >>= fun _ => pure ()).run s).2 = _
  rw [StoreOp.run_bind, h.run_pop c]
  rfl

theorem ready_pop : (after t (.pop (.state c 1)) s).Serving := by
  rw [h.after_pop c]
  exact h.ready.afterScript (h.ready.sets.coalescedPop t.layout 1)

/-- A pop merges what is staged for the key into its record. -/
theorem record_pop :
    (after t (.pop (.state c 1)) s).contents.record (t.recordKey key) =
      (s.contents.record (t.recordKey key)).merge (s.contents.record (t.stagingKey key)) := by
  rw [h.after_pop c, MemoryStore.record_afterScript]
  exact h.run_coalescedPop.2

end AwaitsOne

/-! ## What the same sight tells of a store -/

namespace SameSight

variable {u : TableName} {s s' : MemoryStore}

theorem record (h : SameSight u s s') (key : String) :
    s'.contents.record (u.recordKey key) = s.contents.record (u.recordKey key) := by
  have hget := h.get key
  rw [TableReader.run_get, TableReader.run_get] at hget
  generalize s.contents.record (u.recordKey key) = r at hget ⊢
  generalize s'.contents.record (u.recordKey key) = r' at hget ⊢
  cases r <;> cases r' <;> simp_all

theorem holds (h : SameSight u s s') {storeKey : String} (hlists : u.Lists storeKey) :
    s'.contents.holds storeKey = true ↔ s.contents.holds storeKey = true := by
  have hkeys := h.keys
  rw [TableReader.run_keys, TableReader.run_keys, Except.ok.injEq] at hkeys
  obtain ⟨haccepts, key, rfl⟩ := hlists
  have hmem : ∀ k : Keyspace,
      key ∈ (k.keysMatching (u.recordStem ++ "*")).filterMap u.keyOfRecord? ↔
        k.holds (u.recordKey key) = true := by
    intro k
    simp only [List.mem_filterMap, TableName.keyOfRecord?_eq_some, exists_eq_right,
      Keyspace.mem_keysMatching_iff, haccepts, and_true]
  rw [← hmem, ← hmem, hkeys]

/-- If the same key waits in both stores, the next pop tells what is staged for it. -/
theorem staged (h : SameSight u s s') {key : String} (hs : AwaitsOne u key s)
    (hs' : AwaitsOne u key s') :
    Popped.toItem (key, s'.contents.record (u.stagingKey key)) =
      Popped.toItem (key, s.contents.record (u.stagingKey key)) := by
  let c : CoalescingConsumer := { table := u, signal := ⟨"", 0, 0⟩ }
  have hpop : ∀ s, AwaitsOne u key s → handOuts u [.state c 1] (s.facing [] 0) =
      [.ok [Popped.toItem (key, s.contents.record (u.stagingKey key))]] := by
    intro s hs
    have hfacing : AwaitsOne u key (s.facing [] 0) :=
      ⟨⟨rfl, hs.ready.sets.of_eq fun _ => rfl⟩, hs.pending, hs.unmarked⟩
    rw [handOuts, hfacing.run_pop c]
    rfl
  have hsame := h.items [] 0 [.state c 1]
  rw [hpop s hs, hpop s' hs'] at hsame
  simpa using hsame

end SameSight

/-! ## Keys that meet -/

/-- The store after operations, one after the other. -/
def TableUse.afterAll (t : TableName) (uses : List TableUse) (s : MemoryStore) : MemoryStore :=
  uses.foldl (fun s use => use.after t s) s

/-- From a store on, no operation on a table ever shows in the other table, whatever was done with
both before. -/
def NeverShows (t u : TableName) (start : MemoryStore) : Prop :=
  ∀ (us ts : List TableUse) (use : TableUse),
    let s := TableUse.afterAll t ts (TableUse.afterAll u us start)
    SameSight u s (use.after t s)

/-- A store with nothing in it. -/
structure MemoryStore.Blank (s : MemoryStore) : Prop where
  ready : s.Serving
  lists : ∀ j, s.contents.list j = []
  members : ∀ j, s.contents.members j = []
  records : ∀ j, s.contents.record j = []
  keys : ∀ j, s.contents.holds j = false

theorem MemoryStore.Blank.set {s : MemoryStore} (h : s.Blank) (t : TableName) (key : String)
    (fields : FieldList) (hfields : fields ≠ []) :
    AwaitsOne t key (TableUse.after t (.set key fields) s) :=
  .of_set h.ready (h.members _) (h.members _) fields hfields

theorem MemoryStore.Blank.record_set {s : MemoryStore} (h : s.Blank) (t : TableName)
    (key : String) (fields : FieldList) (hfields : fields ≠ []) (j : String) :
    (TableUse.after t (.set key fields) s).contents.record j =
      if t.stagingKey key = j then Record.merge [] fields else [] := by
  rw [TableUse.record_set t h.ready key fields hfields, h.records]

theorem MemoryStore.Blank.empty (bufferSize maxPayload : Nat) (announcing : Bool) :
    (MemoryStore.empty bufferSize maxPayload announcing).Blank where
  ready := ⟨rfl, fun _ => RandomSet.valid_empty⟩
  lists _ := rfl
  members _ := rfl
  records _ := rfl
  keys _ := rfl

namespace NeverShows

variable {t u : TableName} {start : MemoryStore} (h : NeverShows t u start) (hb : start.Blank)

include h hb

/-- One queue for both: a push shows in its length. -/
theorem names : t.name ≠ u.name := by
  intro hname
  have hqueue : t.queue = u.queue := by rw [TableName.queue, hname, TableName.queue]
  let item : WorkItem := { key := "k", operation := .del }
  have hsight : SameSight u start (TableUse.after t (.push [item]) start) := h [] [] _
  have hlength := hsight.queueLength
  change Except.ok ((TableUse.after t (.push [item]) start).contents.list u.queue).length =
    .ok (start.contents.list u.queue).length at hlength
  rw [TableUse.list_push t hb.ready.due, if_pos hqueue, hb.lists] at hlength
  simp at hlength

/-- Staged fields that lie under the other's record: a write shows there. -/
theorem staging_record (j k : String) : t.stagingKey j ≠ u.recordKey k := by
  intro hmeet
  have hsight : SameSight u start (TableUse.after t (.set j [("a", "1")]) start) := h [] [] _
  have hsame := hsight.record k
  rw [TableUse.record_set t hb.ready j _ (by simp), if_pos hmeet, hb.records] at hsame
  cases hsame

/-- A record that lies under the other's record: a pop shows there. -/
theorem record_record (j k : String) : t.recordKey j ≠ u.recordKey k := by
  intro hmeet
  let c : CoalescingConsumer := { table := t, signal := ⟨"", 0, 0⟩ }
  let s := TableUse.after t (.set j [("a", "1")]) start
  have hwaits : AwaitsOne t j s := hb.set t j _ (by simp)
  have hrecord := hb.record_set t j [("a", "1")] (by simp)
  have hsight : SameSight u s (TableUse.after t (.pop (.state c 1)) s) :=
    h [] [.set j [("a", "1")]] _
  have hsame := hsight.record k
  rw [← hmeet, hwaits.record_pop c, hrecord, hrecord, if_neg (t.stagingKey_ne_recordKey j),
    if_pos rfl] at hsame
  cases hsame

/-- Marks that lie under the other's record: clearing shows there. -/
theorem marks_record (k : String) : t.deleteSet ≠ u.recordKey k := by
  intro hmeet
  let c : CoalescingConsumer := { table := u, signal := ⟨"", 0, 0⟩ }
  let s := TableUse.after u (.set k [("a", "1")]) start
  have hwaits : AwaitsOne u k s := hb.set u k _ (by simp)
  have hrecord := hb.record_set u k [("a", "1")] (by simp)
  let s' := TableUse.after u (.pop (.state c 1)) s
  have hsight : SameSight u s' (TableUse.after t .clear s') :=
    h [.set k [("a", "1")], .pop (.state c 1)] [] _
  have hsame := hsight.record k
  rw [← hmeet, TableUse.record_clear t (hwaits.ready_pop c), hmeet, hwaits.record_pop c, hrecord,
    hrecord, if_pos rfl, if_neg (u.stagingKey_ne_recordKey k)] at hsame
  cases hsame

/-- Marks that lie under the other's staged fields: clearing shows in what is popped. -/
theorem marks_staging (k : String) : t.deleteSet ≠ u.stagingKey k := by
  intro hmeet
  let s := TableUse.after u (.set k [("a", "1")]) start
  have hwaits : AwaitsOne u k s := hb.set u k _ (by simp)
  have hcleared := hwaits.after_other (h.names hb) .clear (TableUse.ready_clear t hwaits.ready)
  have hsight : SameSight u s (TableUse.after t .clear s) := h [.set k [("a", "1")]] [] _
  have hstaged := hsight.staged hwaits hcleared
  rw [← hmeet, TableUse.record_clear t hwaits.ready, hmeet, hb.record_set u k _ (by simp),
    if_pos rfl] at hstaged
  cases hstaged

/-- A record that lies under the other's staged fields: a pop shows in what is popped there. -/
theorem record_staging (j k : String) : t.recordKey j ≠ u.stagingKey k := by
  intro hmeet
  have hnames := h.names hb
  let c : CoalescingConsumer := { table := t, signal := ⟨"", 0, 0⟩ }
  let s := TableUse.after u (.set k [("a", "1")]) start
  have hwaits : AwaitsOne u k s := hb.set u k _ (by simp)
  have hrecord := hb.record_set u k [("a", "1")] (by simp)
  -- So far nothing is pending or marked in the table that writes now.
  let s' := TableUse.after t (.set j [("b", "2")]) s
  obtain ⟨hpending, hmarks⟩ := TableUse.after_sets hnames.symm (.set k [("a", "1")]) start
  have hwaits' : AwaitsOne t j s' := .of_set hwaits.ready (hpending.trans (hb.members _))
    (hmarks.trans (hb.members _)) _ (by simp)
  have hrecord' := TableUse.record_set t hwaits.ready j [("b", "2")] (by simp)
  have hwritten : AwaitsOne u k s' := hwaits.after_other hnames _ hwaits'.ready
  have hsight : SameSight u s' (TableUse.after t (.pop (.state c 1)) s') :=
    h [.set k [("a", "1")]] [.set j [("b", "2")]] _
  have hstaged := hsight.staged hwritten
    (hwritten.after_other hnames (.pop (.state c 1)) (hwaits'.ready_pop c))
  rw [← hmeet, hwaits'.record_pop c, hrecord', hrecord', if_neg (t.stagingKey_ne_recordKey j),
    if_pos rfl, hrecord, hrecord, if_pos hmeet.symm,
    if_neg fun hs => t.stagingKey_ne_recordKey j (hs.symm.trans hmeet.symm)] at hstaged
  cases hstaged

/-- A set of pending keys that the other lists: a write shows in its keys. -/
theorem pendingSet_unlisted : ¬ u.Lists t.pendingSet := by
  intro hlists
  have hpending := (hb.set t "k" [("a", "1")] (by simp)).pending
  have hsight : SameSight u start (TableUse.after t (.set "k" [("a", "1")]) start) := h [] [] _
  have hholds := (hsight.holds hlists).mp
    (Keyspace.holds_of_members (by rw [hpending]; simp))
  rw [hb.keys] at hholds
  cases hholds

/-- A queue that the other lists: a push shows in its keys. -/
theorem queue_unlisted : ¬ u.Lists t.queue := by
  intro hlists
  let item : WorkItem := { key := "k", operation := .del }
  have hlist := TableUse.list_push t hb.ready.due [item] t.queue
  rw [if_pos rfl, hb.lists] at hlist
  have hsight : SameSight u start (TableUse.after t (.push [item]) start) := h [] [] _
  have hholds := (hsight.holds hlists).mp
    (Keyspace.holds_of_list (by rw [hlist]; simp))
  rw [hb.keys] at hholds
  cases hholds

theorem clear : t.Clear u where
  names := h.names hb
  record_record := h.record_record hb
  record_staging := h.record_staging hb
  staging_record := h.staging_record hb
  marks_record := h.marks_record hb
  marks_staging := h.marks_staging hb
  pendingSet_unlisted := h.pendingSet_unlisted hb
  queue_unlisted := h.queue_unlisted hb

end NeverShows

/-- Two tables are isolated just if the one writes under no store key at which the other looks. If
so, no operation on the one, in whatever state the store is, changes what readers of the other get,
what is counted as pending and queued there, and what its pops hand out. If not, some operations
from an empty store on lead to one that does. -/
theorem isolated_iff_store_keys_never_meet (t u : TableName) (bufferSize maxPayload : Nat)
    (announcing : Bool) :
    (t.Clear u ↔ ∀ (s : MemoryStore) (use : TableUse), SameSight u s (use.after t s)) ∧
      (t.Clear u ↔ NeverShows t u (.empty bufferSize maxPayload announcing)) := by
  have hshown : NeverShows t u (.empty bufferSize maxPayload announcing) → t.Clear u :=
    fun h => h.clear (.empty bufferSize maxPayload announcing)
  refine ⟨⟨fun h s use => h.sameSight use s, fun h => hshown ?_⟩,
    ⟨fun h us ts use => h.sameSight use _, hshown⟩⟩
  intro us ts use
  exact h _ use

/-- The fields staged for the table `PORT` lie where the table `_PORT` keeps its records. -/
theorem staged_fields_show_as_a_record_of_another_table :
    let t : TableName := { name := "PORT" }
    let u : TableName := { name := "_PORT" }
    let s := MemoryStore.empty 16 64 true
    let s' := TableUse.after t (.set "Eth0" [("mtu", "9100")]) s
    ((TableReader.get u "Eth0").run s).1 = .ok none ∧
      ((TableReader.get u "Eth0").run s').1 = .ok (some [("mtu", "9100")]) := by
  decide +kernel

end ControlBus
