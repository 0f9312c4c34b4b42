-- The part of a store that somebody looks at. Changes of keys outside that part do not show in it,
-- and a script that stays within it cannot tell two stores apart that look the same there.
import ControlBus.Proofs.MemoryLaws

namespace ControlBus

/-- The lists, sets and records that somebody looks at, and whether the coming random numbers
count too. -/
structure KeyView where
  lists : String → Prop
  sets : String → Prop
  records : String → Prop
  draws : Prop

/-- A coalescing table has no part in a view. -/
structure Layout.OutOf (l : Layout) (v : KeyView) : Prop where
  pendingSet : ¬ v.sets l.pendingSet
  -- Clearing removes whatever lies under the key of the marks.
  deleteSet : ¬ v.lists l.deleteSet ∧ ¬ v.sets l.deleteSet ∧ ¬ v.records l.deleteSet
  staging : ∀ k, ¬ v.records (l.stagingKey k)
  record : ∀ k, ¬ v.records (l.recordKey k)
  draws : ¬ v.draws

/-- A coalescing table lies in a view as a whole. -/
structure Layout.Within (l : Layout) (v : KeyView) : Prop where
  pendingSet : v.sets l.pendingSet
  deleteSet : v.sets l.deleteSet
  staging : ∀ k, v.records (l.stagingKey k)
  record : ∀ k, v.records (l.recordKey k)
  draws : v.draws

/-- A script changes nothing in a view. -/
def Script.OutOf (v : KeyView) : Script → Prop
  | .pushAndPublish list _ _ _ | .popFront list _ => ¬ v.lists list
  | .stageWrite l _ _ _ | .stageDelete l _ _ | .coalescedPop l _ | .coalescedClear l => l.OutOf v

namespace Keyspace

/-- Two stores look the same in a view. -/
structure LooksSame (v : KeyView) (s s' : Keyspace) : Prop where
  lists : ∀ j, v.lists j → Assoc.get? s'.lists j = Assoc.get? s.lists j
  sets : ∀ j, v.sets j → Assoc.get? s'.sets j = Assoc.get? s.sets j
  records : ∀ j, v.records j → Assoc.get? s'.records j = Assoc.get? s.records j
  draws : v.draws → s'.draws = s.draws

/-- Two changes give the same and leave stores that look the same. -/
structure GivesSame {α : Type} (v : KeyView) (r r' : α × Keyspace) : Prop where
  answer : r'.1 = r.1
  left : LooksSame v r.2 r'.2

variable {v : KeyView} {s s' s'' : Keyspace} {key : String} {l : Layout}

namespace LooksSame

theorem refl (s : Keyspace) : LooksSame v s s :=
  ⟨fun _ _ => rfl, fun _ _ => rfl, fun _ _ => rfl, fun _ => rfl⟩

theorem symm (h : LooksSame v s s') : LooksSame v s' s where
  lists j hj := (h.lists j hj).symm
  sets j hj := (h.sets j hj).symm
  records j hj := (h.records j hj).symm
  draws hd := (h.draws hd).symm

theorem trans (h : LooksSame v s s') (h' : LooksSame v s' s'') : LooksSame v s s'' where
  lists j hj := (h'.lists j hj).trans (h.lists j hj)
  sets j hj := (h'.sets j hj).trans (h.sets j hj)
  records j hj := (h'.records j hj).trans (h.records j hj)
  draws hd := (h'.draws hd).trans (h.draws hd)

/-! ## Reading in a view -/

theorem list (h : LooksSame v s s') (hkey : v.lists key) : s'.list key = s.list key := by
  rw [Keyspace.list, h.lists key hkey, Keyspace.list]

theorem set (h : LooksSame v s s') (hkey : v.sets key) : s'.set key = s.set key := by
  rw [Keyspace.set, h.sets key hkey, Keyspace.set]

theorem record (h : LooksSame v s s') (hkey : v.records key) : s'.record key = s.record key := by
  rw [Keyspace.record, h.records key hkey, Keyspace.record]

theorem holds (h : LooksSame v s s') (hl : v.lists key) (hs : v.sets key) (hr : v.records key) :
    s'.holds key = s.holds key := by
  simp only [Keyspace.holds, Assoc.has, h.lists key hl, h.sets key hs, h.records key hr]

/-! ## Changes outside a view -/

theorem owing (outbox : List Announcement) : LooksSame v s { s with outbox } :=
  ⟨fun _ _ => rfl, fun _ _ => rfl, fun _ _ => rfl, fun _ => rfl⟩

theorem announce (channel payload : String) : LooksSame v s (s.announce channel payload) :=
  owing _

theorem touch (key : String) (tag : ChangeTag) : LooksSame v s (s.touch key tag) := by
  unfold Keyspace.touch
  split
  · exact announce _ _
  · exact refl s

theorem withList (hkey : ¬ v.lists key) (entries : List String) :
    LooksSame v s (s.withList key entries) := by
  refine ⟨fun j hj => ?_, fun _ _ => rfl, fun _ _ => rfl, fun _ => rfl⟩
  have hne : key ≠ j := fun hk => hkey (hk ▸ hj)
  unfold Keyspace.withList
  dsimp only
  split
  · exact Assoc.get?_erase_of_ne _ hne
  · exact Assoc.get?_put_of_ne _ _ hne

theorem withSet (hkey : ¬ v.sets key) (members : RandomSet) :
    LooksSame v s (s.withSet key members) := by
  refine ⟨fun _ _ => rfl, fun j hj => ?_, fun _ _ => rfl, fun _ => rfl⟩
  have hne : key ≠ j := fun hk => hkey (hk ▸ hj)
  unfold Keyspace.withSet
  dsimp only
  split
  · exact Assoc.get?_erase_of_ne _ hne
  · exact Assoc.get?_put_of_ne _ _ hne

theorem withDraws (hd : ¬ v.draws) (draws : List Nat) : LooksSame v s { s with draws } :=
  ⟨fun _ _ => rfl, fun _ _ => rfl, fun _ _ => rfl, fun h => absurd h hd⟩

theorem pushBack (hkey : ¬ v.lists key) (entries : List String) :
    LooksSame v s (s.pushBack key entries).2 := by
  unfold Keyspace.pushBack
  split
  · exact refl s
  · exact (withList hkey _).trans (touch key .rpush)

theorem popFront (hkey : ¬ v.lists key) (max : Nat) : LooksSame v s (s.popFront key max).2 := by
  unfold Keyspace.popFront
  dsimp only
  split
  · exact refl s
  · exact (withList hkey _).trans (touch key .lpop)

theorem addMember (hkey : ¬ v.sets key) (member : String) :
    LooksSame v s (s.addMember key member).2 := by
  unfold Keyspace.addMember
  split
  · exact (withSet hkey _).trans (touch key .sadd)
  · exact refl s

theorem removeMember (hkey : ¬ v.sets key) (member : String) :
    LooksSame v s (s.removeMember key member).2 := by
  unfold Keyspace.removeMember
  split
  · exact (withSet hkey _).trans (touch key .srem)
  · exact refl s

theorem popMembers (hkey : ¬ v.sets key) (hd : ¬ v.draws) (max : Nat) :
    LooksSame v s (s.popMembers key max).2 := by
  unfold Keyspace.popMembers
  dsimp only
  split
  · exact refl s
  · exact (withDraws hd _).trans ((withSet hkey _).trans (touch key .spop))

theorem withRecords {records : Assoc String Record}
    (h : ∀ j, v.records j → Assoc.get? records j = Assoc.get? s.records j) :
    LooksSame v s { s with records } :=
  ⟨fun _ _ => rfl, fun _ _ => rfl, h, fun _ => rfl⟩

theorem mergeFields (hkey : ¬ v.records key) (fields : FieldList) :
    LooksSame v s (s.mergeFields key fields) := by
  unfold Keyspace.mergeFields
  split
  · exact refl s
  · refine (withRecords fun j hj => ?_).trans (touch key .hset)
    exact Assoc.get?_put_of_ne _ _ fun hk => hkey (hk ▸ hj)

theorem takeRecord (hkey : ¬ v.records key) : LooksSame v s (s.takeRecord key).2 := by
  unfold Keyspace.takeRecord
  split
  · refine (withRecords fun j hj => ?_).trans (touch key .del)
    exact Assoc.get?_erase_of_ne _ fun hk => hkey (hk ▸ hj)
  · exact refl s

theorem delete (hl : ¬ v.lists key) (hs : ¬ v.sets key) (hr : ¬ v.records key) :
    LooksSame v s (s.delete key).2 := by
  unfold Keyspace.delete
  split
  · refine trans ⟨fun j hj => ?_, fun j hj => ?_, fun j hj => ?_, fun _ => ?_⟩ (touch key .del)
    · exact Assoc.get?_erase_of_ne _ fun hk => hl (hk ▸ hj)
    · exact Assoc.get?_erase_of_ne _ fun hk => hs (hk ▸ hj)
    · exact Assoc.get?_erase_of_ne _ fun hk => hr (hk ▸ hj)
    · rfl
  · exact refl s

theorem honourDelete (h : l.OutOf v) (key : String) : LooksSame v s (s.honourDelete l key) := by
  have hremove := removeMember (s := s) h.deleteSet.2.1 key
  unfold Keyspace.honourDelete
  split
  · rename_i heq
    rw [heq] at hremove
    exact hremove.trans (takeRecord (h.record key))
  · rename_i heq
    rw [heq] at hremove
    exact hremove

theorem materialize (h : l.OutOf v) (key : String) : LooksSame v s (s.materialize l key).2 :=
  (honourDelete h key).trans ((takeRecord (h.staging key)).trans (mergeFields (h.record key) _))

theorem materializeAll (h : l.OutOf v) (keys : List String) :
    LooksSame v s (s.materializeAll l keys).2 := by
  induction keys generalizing s with
  | nil => exact refl s
  | cons key rest ih => exact (materialize h key).trans ih

theorem markPending (h : l.OutOf v) (key token : String) :
    LooksSame v s (s.markPending l key token).2 := by
  have hadd := addMember (s := s) h.pendingSet key
  unfold Keyspace.markPending
  split
  · rename_i heq
    rw [heq] at hadd
    exact hadd.trans (announce l.channel token)
  · rename_i heq
    rw [heq] at hadd
    exact hadd

theorem dropStaged (h : l.OutOf v) (keys : List String) : LooksSame v s (s.dropStaged l keys) := by
  induction keys generalizing s with
  | nil => exact refl s
  | cons key rest ih => exact (takeRecord (h.staging key)).trans ih

theorem run {script : Script} (h : script.OutOf v) : LooksSame v s (s.run script).2 := by
  cases script with
  | pushAndPublish list entries channel payload =>
    exact (pushBack h entries).trans (announce channel payload)
  | popFront list max => exact popFront h max
  | stageWrite l key fields token =>
    exact (mergeFields (h.staging key) fields).trans (markPending h key token)
  | stageDelete l key token =>
    exact (takeRecord (h.staging key)).trans
      ((addMember h.deleteSet.2.1 key).trans (markPending h key token))
  | coalescedPop l max => exact (popMembers h.pendingSet h.draws max).trans (materializeAll h _)
  | coalescedClear l =>
    obtain ⟨hlist, hset, hrecord⟩ := h.deleteSet
    exact (popMembers h.pendingSet h.draws _).trans
      ((dropStaged h _).trans (delete hlist hset hrecord))

/-! ## Changes within a view -/

theorem touch_both (h : LooksSame v s s') (key : String) (tag : ChangeTag) :
    LooksSame v (s.touch key tag) (s'.touch key tag) :=
  (touch key tag).symm.trans (h.trans (touch key tag))

theorem withList_both (h : LooksSame v s s') (key : String) (entries : List String) :
    LooksSame v (s.withList key entries) (s'.withList key entries) := by
  refine ⟨fun j hj => ?_, h.sets, h.records, h.draws⟩
  unfold Keyspace.withList
  dsimp only
  split <;> simp only [Assoc.get?_erase, Assoc.get?_put, h.lists j hj]

theorem withSet_both (h : LooksSame v s s') (key : String) (members : RandomSet) :
    LooksSame v (s.withSet key members) (s'.withSet key members) := by
  refine ⟨h.lists, fun j hj => ?_, h.records, h.draws⟩
  unfold Keyspace.withSet
  dsimp only
  split <;> simp only [Assoc.get?_erase, Assoc.get?_put, h.sets j hj]

theorem withRecords_both (h : LooksSame v s s') {records records' : Assoc String Record}
    (hr : ∀ j, v.records j → Assoc.get? records' j = Assoc.get? records j) :
    LooksSame v { s with records } { s' with records := records' } :=
  ⟨h.lists, h.sets, hr, h.draws⟩

theorem popFront_both (h : LooksSame v s s') (hkey : v.lists key) (max : Nat) :
    GivesSame v (s.popFront key max) (s'.popFront key max) := by
  unfold Keyspace.popFront
  rw [h.list hkey]
  dsimp only
  split
  · exact ⟨rfl, h⟩
  · exact ⟨rfl, (h.withList_both key _).touch_both key .lpop⟩

theorem removeMember_both (h : LooksSame v s s') (hkey : v.sets key) (member : String) :
    GivesSame v (s.removeMember key member) (s'.removeMember key member) := by
  unfold Keyspace.removeMember
  rw [h.set hkey]
  rcases (s.set key).remove member with ⟨_ | _, members⟩
  · exact ⟨rfl, h⟩
  · exact ⟨rfl, (h.withSet_both key members).touch_both key .srem⟩

theorem popMembers_both (h : LooksSame v s s') (hkey : v.sets key) (hd : v.draws) (max : Nat) :
    GivesSame v (s.popMembers key max) (s'.popMembers key max) := by
  have hdrawn : ∀ draws, LooksSame v { s with draws } { s' with draws } := fun draws =>
    ⟨h.lists, h.sets, h.records, fun _ => rfl⟩
  unfold Keyspace.popMembers setSize
  rw [h.set hkey, h.draws hd]
  dsimp only
  split
  · exact ⟨rfl, h⟩
  · exact ⟨rfl, ((hdrawn _).withSet_both key _).touch_both key .spop⟩

theorem mergeFields_both (h : LooksSame v s s') (hkey : v.records key) (fields : FieldList) :
    LooksSame v (s.mergeFields key fields) (s'.mergeFields key fields) := by
  unfold Keyspace.mergeFields
  split
  · exact h
  · refine (h.withRecords_both fun j hj => ?_).touch_both key .hset
    simp only [Assoc.get?_put, h.record hkey, h.records j hj]

theorem takeRecord_both (h : LooksSame v s s') (hkey : v.records key) :
    GivesSame v (s.takeRecord key) (s'.takeRecord key) := by
  unfold Keyspace.takeRecord
  rw [h.records key hkey]
  split
  · refine ⟨rfl, (h.withRecords_both fun j hj => ?_).touch_both key .del⟩
    simp only [Assoc.get?_erase, h.records j hj]
  · exact ⟨rfl, h⟩

theorem honourDelete_both (h : LooksSame v s s') (hl : l.Within v) (key : String) :
    LooksSame v (s.honourDelete l key) (s'.honourDelete l key) := by
  have hremove := h.removeMember_both hl.deleteSet key
  unfold Keyspace.honourDelete
  generalize s.removeMember l.deleteSet key = r at hremove ⊢
  generalize s'.removeMember l.deleteSet key = r' at hremove ⊢
  obtain ⟨marked, k⟩ := r
  obtain ⟨marked', k'⟩ := r'
  obtain ⟨rfl, hleft⟩ := hremove
  cases marked' with
  | true => exact (hleft.takeRecord_both (hl.record key)).left
  | false => exact hleft

theorem materialize_both (h : LooksSame v s s') (hl : l.Within v) (key : String) :
    GivesSame v (s.materialize l key) (s'.materialize l key) := by
  obtain ⟨hstaged, hleft⟩ := (h.honourDelete_both hl key).takeRecord_both (hl.staging key)
  unfold Keyspace.materialize
  dsimp only
  rw [hstaged]
  exact ⟨rfl, hleft.mergeFields_both (hl.record key) _⟩

theorem materializeAll_both (h : LooksSame v s s') (hl : l.Within v) (keys : List String) :
    GivesSame v (s.materializeAll l keys) (s'.materializeAll l keys) := by
  induction keys generalizing s s' with
  | nil => exact ⟨rfl, h⟩
  | cons key rest ih =>
    obtain ⟨hpopped, hleft⟩ := h.materialize_both hl key
    obtain ⟨hmore, hend⟩ := ih hleft
    exact ⟨congrArg₂ List.cons hpopped hmore, hend⟩

theorem run_popFront_both (h : LooksSame v s s') (hkey : v.lists key) (max : Nat) :
    GivesSame v (s.run (.popFront key max)) (s'.run (.popFront key max)) := by
  obtain ⟨hpopped, hleft⟩ := h.popFront_both hkey max
  exact ⟨congrArg Output.entries hpopped, hleft⟩

theorem run_coalescedPop_both (h : LooksSame v s s') (hl : l.Within v) (max : Nat) :
    GivesSame v (s.run (.coalescedPop l max)) (s'.run (.coalescedPop l max)) := by
  obtain ⟨hkeys, hleft⟩ := h.popMembers_both hl.pendingSet hl.draws max
  have hall := hleft.materializeAll_both hl (s.popMembers l.pendingSet max).1
  refine ⟨?_, ?_⟩
  · simp only [Keyspace.run, hkeys, hall.answer]
  · simp only [Keyspace.run, hkeys]
    exact hall.left

end LooksSame

end Keyspace

/-! ## Operations on a store in memory -/

namespace MemoryStore

/-- Two stores look the same in a view, and as many failures are due in both. -/
structure LooksSame (v : KeyView) (s s' : MemoryStore) : Prop where
  contents : Keyspace.LooksSame v s.contents s'.contents
  failuresDue : s'.failuresDue = s.failuresDue

/-- Two runs answer the same and leave stores that look the same. -/
structure GivesSame {α : Type} (v : KeyView) (r r' : α × MemoryStore) : Prop where
  answer : r'.1 = r.1
  left : LooksSame v r.2 r'.2

end MemoryStore

namespace StoreOp

/-- An operation changes nothing in a view, whatever it answers. -/
def OutOf {α : Type} (v : KeyView) (op : StoreOp MemoryStore α) : Prop :=
  ∀ s, Keyspace.LooksSame v s.contents (op.run s).2.contents

/-- An operation cannot tell apart two stores that look the same in a view. -/
def Within {α : Type} (v : KeyView) (op : StoreOp MemoryStore α) : Prop :=
  ∀ s s', MemoryStore.LooksSame v s s' → MemoryStore.GivesSame v (op.run s) (op.run s')

variable {v : KeyView} {α β : Type} {op : StoreOp MemoryStore α}
  {next : α → StoreOp MemoryStore β}

theorem OutOf.pure (a : α) : OutOf v (Pure.pure a) := fun s => .refl s.contents

theorem OutOf.bind (h : OutOf v op) (hnext : ∀ a, OutOf v (next a)) : OutOf v (op >>= next) := by
  intro s
  have hfirst := h s
  rw [run_bind]
  split
  · rename_i a s' heq
    rw [heq] at hfirst
    exact hfirst.trans (hnext a s')
  · rename_i e s' heq
    rw [heq] at hfirst
    exact hfirst

theorem OutOf.reading (script : Script) (h : script.OutOf v)
    (read : Output → Except BusError α) :
    OutOf v (do liftM (read (← SharedStore.eval script))) := by
  intro s
  rw [MemoryStore.run_reading]
  split
  · exact .refl s.contents
  · exact (Keyspace.LooksSame.run h).trans (.owing [])

theorem Within.pure (a : α) : Within v (Pure.pure a) := fun _ _ h => ⟨rfl, h⟩

theorem Within.bind (h : Within v op) (hnext : ∀ a, Within v (next a)) :
    Within v (op >>= next) := by
  intro s s' hs
  have hfirst := h s s' hs
  rw [run_bind, run_bind]
  generalize op.run s = r at hfirst ⊢
  generalize op.run s' = r' at hfirst ⊢
  obtain ⟨answer, k⟩ := r
  obtain ⟨answer', k'⟩ := r'
  obtain ⟨rfl, hleft⟩ := hfirst
  cases answer' with
  | ok a => exact hnext a k k' hleft
  | error e => exact ⟨rfl, hleft⟩

theorem Within.reading (script : Script) (read : Output → Except BusError α)
    (h : ∀ k k', Keyspace.LooksSame v k k' →
      Keyspace.GivesSame v (k.run script) (k'.run script)) :
    Within v (do liftM (read (← SharedStore.eval script))) := by
  intro s s' hs
  have hrun := h _ _ hs.contents
  rw [MemoryStore.run_reading, MemoryStore.run_reading, hs.failuresDue]
  cases s.failuresDue with
  | succ n => exact ⟨rfl, hs.contents, rfl⟩
  | zero =>
    refine ⟨congrArg read hrun.answer, ?_, hs.failuresDue⟩
    exact (Keyspace.LooksSame.owing []).symm.trans (hrun.left.trans (.owing []))

end StoreOp

end ControlBus
