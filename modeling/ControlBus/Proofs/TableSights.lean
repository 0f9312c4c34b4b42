-- Tables side by side in one store in memory. The store keys of a table are its name and a key put
-- together, with nothing between tables but these names. What one table does does not show in the
-- other as long as it writes under no store key at which the other looks.
import ControlBus.Channel.Reader
import ControlBus.Proofs.KeySearch
import ControlBus.Proofs.KeyViews
import ControlBus.Proofs.TableKeys

namespace ControlBus

/-! ## What is done with a table -/

/-- A pop of queued operations or of staged changes, by any consumer. -/
inductive TablePop where
  | queue (c : OrderedConsumer) (max : Nat)
  | state (c : CoalescingConsumer) (max : Nat)

/-- Pop what belongs to a table. -/
def TablePop.perform (t : TableName) : TablePop → StoreOp MemoryStore (List WorkItem)
  | .queue c max => fun s =>
    let (items, _, s) := { c with table := t }.pop max s
    (items, s)
  | .state c max => fun s =>
    let (items, _, s) := { c with table := t }.pop max s
    (items, s)

/-- An operation on a table. -/
inductive TableUse where
  | push (items : List WorkItem)
  | set (key : String) (fields : FieldList)
  | del (key : String)
  | setBatch (items : List (String × FieldList))
  | delBatch (keys : List String)
  | clear
  | pop (p : TablePop)

namespace TableUse

def perform (t : TableName) : TableUse → StoreOp MemoryStore Unit
  | .push items => do let _ ← OrderedQueue.pushBatch t items
  | .set key fields => CoalescingState.set t key fields
  | .del key => CoalescingState.del t key
  | .setBatch items => CoalescingState.setBatch t items
  | .delBatch keys => CoalescingState.delBatch t keys
  | .clear => do let _ ← CoalescingState.clear t
  | .pop p => do let _ ← p.perform t

/-- The store after an operation, also if it failed. -/
def after (t : TableName) (use : TableUse) (s : MemoryStore) : MemoryStore :=
  ((use.perform t).run s).2

end TableUse

/-! ## What a table shows -/

/-- What the pops of a table answer, one after the other. -/
def handOuts (t : TableName) :
    List TablePop → MemoryStore → List (Except BusError (List WorkItem))
  | [], _ => []
  | p :: rest, s =>
    let (items, s) := (p.perform t).run s
    items :: handOuts t rest s

/-- The store with given numbers for the coming draws and with given failures ahead. -/
def MemoryStore.facing (draws : List Nat) (failuresDue : Nat) (s : MemoryStore) : MemoryStore :=
  { s with contents := { s.contents with draws }, failuresDue }

/-- Nobody who reads a table or pops from it can tell two stores apart, if the coming draws and
failures are the same. -/
structure SameSight (t : TableName) (s s' : MemoryStore) : Prop where
  get : ∀ key, ((TableReader.get t key).run s').1 = ((TableReader.get t key).run s).1
  getField : ∀ key field,
    ((TableReader.getField t key field).run s').1 = ((TableReader.getField t key field).run s).1
  keys : ((TableReader.keys t).run s').1 = ((TableReader.keys t).run s).1
  pendingCount :
    ((CoalescingState.pendingCount t).run s').1 = ((CoalescingState.pendingCount t).run s).1
  queueLength : ((SharedStore.listLength t.queue : StoreOp MemoryStore Nat).run s').1 =
    ((SharedStore.listLength t.queue : StoreOp MemoryStore Nat).run s).1
  items : ∀ draws failures pops,
    handOuts t pops (s'.facing draws failures) = handOuts t pops (s.facing draws failures)

namespace TableName

/-- A listing of the keys of a table shows this store key, if anything is stored under it. -/
def Lists (u : TableName) (storeKey : String) : Prop :=
  Text.Glob.accepts (u.recordStem ++ "*") storeKey = true ∧ ∃ key, storeKey = u.recordKey key

/-- What is looked at to read a table and to pop from it. -/
def view (u : TableName) (draws : Prop) : KeyView where
  lists j := j = u.queue ∨ u.Lists j
  sets j := j = u.pendingSet ∨ j = u.deleteSet ∨ u.Lists j
  records j := ∃ key, j = u.stagingKey key ∨ j = u.recordKey key
  draws := draws

/-- A table writes under no store key at which the other looks. -/
structure Clear (t u : TableName) : Prop where
  names : t.name ≠ u.name
  record_record : ∀ j k, t.recordKey j ≠ u.recordKey k
  record_staging : ∀ j k, t.recordKey j ≠ u.stagingKey k
  staging_record : ∀ j k, t.stagingKey j ≠ u.recordKey k
  marks_record : ∀ k, t.deleteSet ≠ u.recordKey k
  marks_staging : ∀ k, t.deleteSet ≠ u.stagingKey k
  pendingSet_unlisted : ¬ u.Lists t.pendingSet
  queue_unlisted : ¬ u.Lists t.queue

variable {t u : TableName} {draws : Prop}

theorem deleteSet_ne_queue (t u : TableName) : t.deleteSet ≠ u.queue := by
  intro h
  have hlast := congrArg (fun text : String => text.toList.getLast?) h
  simp [deleteSet, queue] at hlast

theorem stagingKey_ne_recordKey (t : TableName) (key : String) :
    t.stagingKey key ≠ t.recordKey key := by
  intro h
  have hlength := congrArg String.length h
  simp [stagingKey] at hlength

theorem deleteSet_inj (h : t.deleteSet = u.deleteSet) : t.name = u.name :=
  (String.append_left_inj _).mp h

theorem queue_in_view : (u.view draws).lists u.queue := Or.inl rfl

theorem layout_within_view (u : TableName) : u.layout.Within (u.view True) where
  pendingSet := Or.inl rfl
  deleteSet := Or.inr (Or.inl rfl)
  staging k := ⟨k, Or.inl (u.layout_stagingKey k)⟩
  record k := ⟨k, Or.inr rfl⟩
  draws := trivial

/-! ## Names that tell -/

/-- One of two stems starts with the other, so both have texts in common. -/
def Meet (stem stem' : String) : Prop :=
  stem.toList <+: stem'.toList ∨ stem'.toList <+: stem.toList

instance (stem stem' : String) : Decidable (Meet stem stem') :=
  inferInstanceAs (Decidable (_ ∨ _))

theorem eq_append_iff {text stem : String} :
    (∃ k, text = stem ++ k) ↔ stem.toList <+: text.toList := by
  constructor
  · rintro ⟨k, rfl⟩
    rw [String.toList_append]
    exact List.prefix_append ..
  · rintro ⟨rest, hrest⟩
    refine ⟨String.ofList rest, String.toList_inj.mp ?_⟩
    rw [String.toList_append, String.toList_ofList, hrest]

theorem append_eq_append_iff {stem stem' : String} :
    (∃ j k, stem ++ j = stem' ++ k) ↔ Meet stem stem' := by
  constructor
  · rintro ⟨j, k, h⟩
    have hprefix := List.prefix_append stem'.toList k.toList
    rw [← String.toList_append, ← h, String.toList_append] at hprefix
    exact List.prefix_or_prefix_of_prefix (List.prefix_append ..) hprefix
  · rintro (h | h)
    · obtain ⟨k, hk⟩ := eq_append_iff.mpr h
      exact ⟨k, "", by rw [← hk, String.append_empty]⟩
    · obtain ⟨k, hk⟩ := eq_append_iff.mpr h
      exact ⟨"", k, by rw [hk, String.append_empty]⟩

instance (u : TableName) (storeKey : String) : Decidable (u.Lists storeKey) :=
  decidable_of_iff (Text.Glob.accepts (u.recordStem ++ "*") storeKey = true ∧
    u.recordStem.toList <+: storeKey.toList) (and_congr_right fun _ => eq_append_iff.symm)

/-- Whether the store keys of two tables meet can be told from the names alone. -/
theorem clear_iff :
    t.Clear u ↔ t.name ≠ u.name ∧ ¬ Meet t.recordStem u.recordStem ∧
      ¬ Meet t.recordStem u.layout.stagingStem ∧ ¬ Meet t.layout.stagingStem u.recordStem ∧
      ¬ u.recordStem.toList <+: t.deleteSet.toList ∧
      ¬ u.layout.stagingStem.toList <+: t.deleteSet.toList ∧
      ¬ u.Lists t.pendingSet ∧ ¬ u.Lists t.queue := by
  have hstaging : ∀ (v : TableName) k, v.layout.stagingStem ++ k = v.stagingKey k :=
    fun v k => v.layout_stagingKey k
  rw [← append_eq_append_iff, ← append_eq_append_iff, ← append_eq_append_iff,
    ← eq_append_iff, ← eq_append_iff]
  simp only [not_exists, hstaging]
  constructor
  · intro h
    exact ⟨h.names, h.record_record, h.record_staging, h.staging_record, h.marks_record,
      h.marks_staging, h.pendingSet_unlisted, h.queue_unlisted⟩
  · rintro ⟨hnames, hrecords, hrecord, hstaged, hmarks, hmarks', hpending, hqueue⟩
    exact ⟨hnames, hrecords, hrecord, hstaged, hmarks, hmarks', hpending, hqueue⟩

instance : Decidable (t.Clear u) := decidable_of_iff _ clear_iff.symm

example : ({ name := "PORT" } : TableName).Clear { name := "VLAN" } := by decide +kernel

/-! ## Store keys outside a view -/

namespace Clear

variable (h : t.Clear u)

include h

theorem queue_outOf : ¬ (u.view draws).lists t.queue := by
  rintro (hqueue | hlisted)
  · exact h.names (queue_inj hqueue)
  · exact h.queue_unlisted hlisted

theorem layout_outOf : t.layout.OutOf (u.view False) where
  pendingSet := by
    rintro (hpending | hmarks | hlisted)
    · exact h.names (pendingSet_inj hpending)
    · exact pendingSet_ne_deleteSet t u hmarks
    · exact h.pendingSet_unlisted hlisted
  deleteSet := by
    refine ⟨?_, ?_, ?_⟩
    · rintro (hqueue | ⟨-, k, hrecord⟩)
      · exact deleteSet_ne_queue t u hqueue
      · exact h.marks_record k hrecord
    · rintro (hpending | hmarks | ⟨-, k, hrecord⟩)
      · exact pendingSet_ne_deleteSet u t hpending.symm
      · exact h.names (deleteSet_inj hmarks)
      · exact h.marks_record k hrecord
    · rintro ⟨k, hstaging | hrecord⟩
      · exact h.marks_staging k hstaging
      · exact h.marks_record k hrecord
  staging j := by
    rw [layout_stagingKey]
    rintro ⟨k, hstaging | hrecord⟩
    · exact h.record_record j k ((String.append_right_inj "_").mp hstaging)
    · exact h.staging_record j k hrecord
  record j := by
    rintro ⟨k, hstaging | hrecord⟩
    · exact h.record_staging j k hstaging
    · exact h.record_record j k hrecord
  draws := id

end Clear

end TableName

/-! ## Operations and views -/

namespace TablePop

variable {t : TableName} {v : KeyView}

/-- A pop of at most nothing asks nothing of the store. -/
theorem perform_queue (c : OrderedConsumer) (max : Nat) :
    (queue c max).perform t = if max = 0 then pure [] else do
      return (decodeEntries (← SharedStore.evalEntries (.popFront t.queue max))).1 := by
  funext s
  by_cases hmax : max = 0
  · subst hmax
    rfl
  · rw [if_neg hmax]
    change _ = (SharedStore.evalEntries (.popFront t.queue max) >>= _).run s
    rw [StoreOp.run_bind]
    simp only [perform, OrderedConsumer.pop, hmax, if_false]
    rcases (SharedStore.evalEntries (.popFront t.queue max)).run s with ⟨_ | _, s'⟩ <;> rfl

theorem perform_state (c : CoalescingConsumer) (max : Nat) :
    (state c max).perform t = if max = 0 then pure [] else do
      return (← SharedStore.evalRecords (.coalescedPop t.layout max)).map Popped.toItem := by
  funext s
  by_cases hmax : max = 0
  · subst hmax
    rfl
  · rw [if_neg hmax]
    change _ = (SharedStore.evalRecords (.coalescedPop t.layout max) >>= _).run s
    rw [StoreOp.run_bind]
    simp only [perform, CoalescingConsumer.pop, hmax, if_false]
    rcases (SharedStore.evalRecords (.coalescedPop t.layout max)).run s with ⟨_ | _, s'⟩ <;> rfl

theorem outOf (hqueue : ¬ v.lists t.queue) (hlayout : t.layout.OutOf v) (p : TablePop) :
    (p.perform t).OutOf v := by
  cases p with
  | queue c max =>
    rw [perform_queue]
    split
    · exact .pure []
    · exact StoreOp.OutOf.bind (.reading (.popFront t.queue max) hqueue _) fun _ => .pure _
  | state c max =>
    rw [perform_state]
    split
    · exact .pure []
    · exact StoreOp.OutOf.bind (.reading (.coalescedPop t.layout max) hlayout _) fun _ => .pure _

theorem within (hqueue : v.lists t.queue) (hlayout : t.layout.Within v) (p : TablePop) :
    (p.perform t).Within v := by
  cases p with
  | queue c max =>
    rw [perform_queue]
    split
    · exact .pure []
    · have hscript := StoreOp.Within.reading (.popFront t.queue max)
        (Output.toEntries "list_pop_front") fun _ _ h => h.run_popFront_both hqueue max
      exact hscript.bind fun _ => .pure _
  | state c max =>
    rw [perform_state]
    split
    · exact .pure []
    · have hscript := StoreOp.Within.reading (.coalescedPop t.layout max)
        (Output.toRecords "coalesced_pop") fun _ _ h => h.run_coalescedPop_both hlayout max
      exact hscript.bind fun _ => .pure _

end TablePop

namespace TableUse

variable {t : TableName} {v : KeyView}

theorem set_outOf (h : t.layout.OutOf v) (key : String) (fields : FieldList) :
    (CoalescingState.set t key fields : StoreOp MemoryStore Unit).OutOf v := by
  unfold CoalescingState.set
  split
  · exact .pure ()
  · exact StoreOp.OutOf.bind (.reading (.stageWrite t.layout key fields wakeToken) h _)
      fun _ => .pure ()

theorem del_outOf (h : t.layout.OutOf v) (key : String) :
    (CoalescingState.del t key : StoreOp MemoryStore Unit).OutOf v :=
  StoreOp.OutOf.bind (.reading (.stageDelete t.layout key wakeToken) h _) fun _ => .pure ()

/-- What a table writes is all under its own store keys. -/
theorem outOf (hqueue : ¬ v.lists t.queue) (hlayout : t.layout.OutOf v) (use : TableUse) :
    (use.perform t).OutOf v := by
  cases use with
  | push items =>
    exact StoreOp.OutOf.bind (.reading (.pushAndPublish t.queue _ t.channel wakeToken) hqueue _)
      fun _ => .pure ()
  | set key fields => exact set_outOf hlayout key fields
  | del key => exact del_outOf hlayout key
  | setBatch items =>
    change (CoalescingState.setBatch t items).OutOf v
    induction items with
    | nil => exact .pure ()
    | cons item rest ih => exact (set_outOf hlayout item.1 item.2).bind fun _ => ih
  | delBatch keys =>
    change (CoalescingState.delBatch t keys).OutOf v
    induction keys with
    | nil => exact .pure ()
    | cons key rest ih => exact (del_outOf hlayout key).bind fun _ => ih
  | clear =>
    exact StoreOp.OutOf.bind (.reading (.coalescedClear t.layout) hlayout _) fun _ => .pure ()
  | pop p => exact (TablePop.outOf hqueue hlayout p).bind fun _ => .pure ()

end TableUse

/-! ## What shows in a view -/

namespace TableReader

variable (t : TableName) (s : MemoryStore)

theorem run_get (key : String) :
    ((get t key).run s).1 = .ok (if (s.contents.record (t.recordKey key)).isEmpty then none
      else some (s.contents.record (t.recordKey key))) := rfl

theorem run_getField (key field : String) :
    ((getField t key field).run s).1 =
      .ok ((if (s.contents.record (t.recordKey key)).isEmpty then none
        else some (s.contents.record (t.recordKey key))).bind (Record.value? · field)) := rfl

theorem run_keys :
    ((keys t).run s).1 =
      .ok ((s.contents.keysMatching (t.recordStem ++ "*")).filterMap t.keyOfRecord?) := rfl

end TableReader

namespace TableName

variable {u : TableName}

theorem keyOfRecord?_eq_some {storeKey key : String} :
    u.keyOfRecord? storeKey = some key ↔ storeKey = u.recordKey key := by
  constructor
  · exact eq_append_of_afterStem?
  · rintro rfl
    exact afterStem?_append u.recordStem key

/-- What is stored elsewhere may fit the pattern too, but the listing leaves it out. -/
theorem mem_listing_iff {k : Keyspace} {storeKey : String} :
    storeKey ∈ (k.keysMatching (u.recordStem ++ "*")).filter
        (fun j => (u.keyOfRecord? j).isSome) ↔
      k.holds storeKey = true ∧ u.Lists storeKey := by
  rw [List.mem_filter, Keyspace.mem_keysMatching_iff, Option.isSome_iff_exists, Lists, and_assoc]
  simp only [keyOfRecord?_eq_some]

theorem listing_congr {k k' : Keyspace}
    (h : ∀ j, u.Lists j → k'.holds j = k.holds j) :
    (k'.keysMatching (u.recordStem ++ "*")).filterMap u.keyOfRecord? =
      (k.keysMatching (u.recordStem ++ "*")).filterMap u.keyOfRecord? := by
  have hfilter : ∀ keys : List String, keys.filterMap u.keyOfRecord? =
      (keys.filter fun j => (u.keyOfRecord? j).isSome).filterMap u.keyOfRecord? := by
    intro keys
    rw [List.filterMap_filter]
    congr 1
    funext j
    cases u.keyOfRecord? j <;> rfl
  rw [hfilter, hfilter (k.keysMatching _)]
  congr 1
  refine Keyspace.eq_of_rising ((Keyspace.rising_sorted _).filter _)
    ((Keyspace.rising_sorted _).filter _) fun j => ?_
  rw [mem_listing_iff, mem_listing_iff]
  exact and_congr_left fun hj => by rw [h j hj]

end TableName

theorem handOuts_congr {u : TableName} {s s' : MemoryStore}
    (h : MemoryStore.LooksSame (u.view True) s s') (pops : List TablePop) :
    handOuts u pops s' = handOuts u pops s := by
  induction pops generalizing s s' with
  | nil => rfl
  | cons p rest ih =>
    obtain ⟨hanswer, hleft⟩ := p.within TableName.queue_in_view u.layout_within_view s s' h
    exact congrArg₂ List.cons hanswer (ih hleft)

/-- Stores that look the same in the view of a table are the same to those who use the table. -/
theorem SameSight.of_looksSame {u : TableName} {s s' : MemoryStore}
    (h : Keyspace.LooksSame (u.view False) s.contents s'.contents) : SameSight u s s' where
  get key := by
    rw [TableReader.run_get, TableReader.run_get, h.record ⟨key, Or.inr rfl⟩]
  getField key field := by
    rw [TableReader.run_getField, TableReader.run_getField, h.record ⟨key, Or.inr rfl⟩]
  keys := by
    rw [TableReader.run_keys, TableReader.run_keys]
    refine congrArg Except.ok (TableName.listing_congr fun j hj => ?_)
    obtain ⟨key, hkey⟩ := hj.2
    exact h.holds (Or.inr hj) (Or.inr (Or.inr hj)) ⟨key, Or.inr hkey⟩
  pendingCount := by
    change Except.ok (s'.contents.set u.pendingSet).size = .ok (s.contents.set u.pendingSet).size
    rw [h.set (Or.inl rfl)]
  queueLength := by
    change Except.ok (s'.contents.list u.queue).length = .ok (s.contents.list u.queue).length
    rw [h.list TableName.queue_in_view]
  items draws failures pops := by
    apply handOuts_congr
    exact ⟨⟨h.lists, h.sets, h.records, fun _ => rfl⟩, rfl⟩

/-- Nothing that is done with a table shows in a table at whose store keys it never writes. -/
theorem TableName.Clear.sameSight {t u : TableName} (h : t.Clear u) (use : TableUse)
    (s : MemoryStore) : SameSight u s (use.after t s) :=
  .of_looksSame (use.outOf h.queue_outOf h.layout_outOf s)

end ControlBus
