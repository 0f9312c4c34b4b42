-- What a store in memory keeps. Whatever is done with it, no empty list, set or record stays
-- behind, no record has a field twice, and nothing is owed between two operations. So its answers
-- tell where something is stored.
import ControlBus.Proofs.KeyChanges
import ControlBus.Proofs.RecordMerge

namespace ControlBus

namespace Keyspace

/-! ## Names of fields -/

/-- No record has two fields of one name. -/
def NamesDistinct (s : Keyspace) : Prop := ∀ key, (Assoc.keys (s.record key)).Nodup

variable {s s' : Keyspace}

namespace NamesDistinct

theorem of_record (h : s.NamesDistinct) (hsame : ∀ key, s'.record key = s.record key) :
    s'.NamesDistinct := fun key => hsame key ▸ h key

theorem mergeFields (h : s.NamesDistinct) (key : String) (fields : FieldList) :
    (s.mergeFields key fields).NamesDistinct := by
  intro j
  rw [record_mergeFields]
  split
  · exact Record.nodup_merge fields (h j)
  · exact h j

theorem takeRecord (h : s.NamesDistinct) (key : String) :
    (s.takeRecord key).2.NamesDistinct := by
  intro j
  rw [record_takeRecord]
  split
  · exact List.nodup_nil
  · exact h j

theorem delete (h : s.NamesDistinct) (key : String) : (s.delete key).2.NamesDistinct := by
  intro j
  rw [(delete_spec key j).2.2]
  split
  · exact List.nodup_nil
  · exact h j

/-! ## Scripts -/

theorem honourDelete (h : s.NamesDistinct) (l : Layout) (key : String) :
    (s.honourDelete l key).NamesDistinct := by
  have hremove := h.of_record fun j => (removeMember_frame l.deleteSet key j).2
  unfold Keyspace.honourDelete
  split
  · rename_i marked heq
    rw [heq] at hremove
    exact hremove.takeRecord (l.recordKey key)
  · rename_i unmarked heq
    rw [heq] at hremove
    exact hremove

theorem materializeAll (h : s.NamesDistinct) (l : Layout) (keys : List String) :
    (s.materializeAll l keys).2.NamesDistinct := by
  induction keys generalizing s with
  | nil => exact h
  | cons key rest ih =>
    have hstaged := (h.honourDelete l key).takeRecord (l.stagingKey key)
    exact ih (hstaged.mergeFields (l.recordKey key) _)

theorem dropStaged (h : s.NamesDistinct) (l : Layout) (keys : List String) :
    (s.dropStaged l keys).NamesDistinct := by
  induction keys generalizing s with
  | nil => exact h
  | cons key rest ih => exact ih (h.takeRecord (l.stagingKey key))

theorem run (h : s.NamesDistinct) (script : Script) : (s.run script).2.NamesDistinct := by
  cases script with
  | pushAndPublish list entries channel payload =>
    exact h.of_record fun j => (pushBack_frame list entries j).2
  | popFront list max => exact h.of_record fun j => (popFront_frame list max j).2
  | stageWrite l key fields token =>
    exact (h.mergeFields (l.stagingKey key) fields).of_record (record_markPending key token)
  | stageDelete l key token =>
    have htake := h.takeRecord (l.stagingKey key)
    have hmark := htake.of_record fun j => (addMember_frame l.deleteSet key j).2
    exact hmark.of_record (record_markPending key token)
  | coalescedPop l max =>
    have hpop := h.of_record fun j => (popMembers_frame l.pendingSet max j).2
    exact hpop.materializeAll l _
  | coalescedClear l =>
    have hpop := h.of_record fun j =>
      (popMembers_frame l.pendingSet (s.setSize l.pendingSet) j).2
    exact (hpop.dropStaged l _).delete l.deleteSet

theorem change (h : s.NamesDistinct) (c : Command) : (c.change s).2.NamesDistinct := by
  cases c with
  | pushBack list entries => exact h.of_record fun j => (pushBack_frame list entries j).2
  | addMembers set members => exact h.of_record (record_addMembers set members)
  | mergeFields key fields => exact h.mergeFields key fields
  | delete key => exact h.delete key
  | eval script => exact h.run script
  | listLength list => exact h
  | setSize set => exact h
  | record key => exact h

end NamesDistinct

/-! ## Whether anything is stored -/

/-- There are entries, members or fields under a key. -/
def Filled (s : Keyspace) (key : String) : Prop :=
  s.list key ≠ [] ∨ s.members key ≠ [] ∨ s.record key ≠ []

theorem delete_fst (key : String) : (s.delete key).1 = s.holds key := by
  unfold delete
  split
  · rename_i hholds
    exact hholds.symm
  · rename_i hnot
    exact (eq_false_of_ne_true hnot).symm

namespace Tidy

theorem list_eq_nil_iff (h : s.Tidy) (key : String) :
    s.list key = [] ↔ Assoc.has s.lists key = false := by
  have hlists := h.lists key
  rw [list, Assoc.has]
  cases hget : Assoc.get? s.lists key with
  | none => simp
  | some entries =>
    rw [hget] at hlists
    simpa using hlists

theorem members_eq_nil_iff (h : s.Tidy) (key : String) :
    s.members key = [] ↔ Assoc.has s.sets key = false := by
  have hmembers := h.members key
  rw [Keyspace.members, set, Assoc.has]
  cases hget : Assoc.get? s.sets key with
  | none => simp
  | some x => simpa using hmembers x hget

theorem record_eq_nil_iff (h : s.Tidy) (key : String) :
    s.record key = [] ↔ Assoc.has s.records key = false := by
  rw [← not_iff_not, ← Ne, ← h.has_record, Bool.not_eq_false]

end Tidy

/-- Every stored container holds something and is in order. -/
structure WellKept (s : Keyspace) : Prop where
  lists : ∀ key entries, Assoc.get? s.lists key = some entries → entries ≠ []
  sets : ∀ key x, Assoc.get? s.sets key = some x → x.members ≠ [] ∧ x.Valid
  records : ∀ key fields, Assoc.get? s.records key = some fields →
    fields ≠ [] ∧ (Assoc.keys fields).Nodup

theorem Tidy.wellKept (h : s.Tidy) (hnames : s.NamesDistinct) : s.WellKept where
  lists key entries hget hnone := h.lists key (hnone ▸ hget)
  sets key x hget := by
    have hvalid := h.sets key
    rw [set, hget] at hvalid
    exact ⟨h.members key x hget, hvalid⟩
  records key fields hget := by
    have hnodup := hnames key
    rw [record, hget] at hnodup
    exact ⟨fun hnone => h.records key (hnone ▸ hget), hnodup⟩

end Keyspace

/-! ## Runs -/

variable {m : MemoryStore}

/-- A use changes the records as a command does, or it changes none. -/
theorem StoreUse.record_run (u : StoreUse) (hquiet : m.contents.outbox = []) :
    (∃ c : Command, ∀ key, (u.run m).contents.record key = (c.change m.contents).2.record key) ∨
      ∀ key, (u.run m).contents.record key = m.contents.record key := by
  cases u with
  | command c =>
    cases c with
    | eval script =>
      cases hdue : m.failuresDue with
      | zero =>
        have hrun := congrArg Prod.snd ((Command.eval script).run_perform hdue hquiet)
        exact Or.inl ⟨.eval script, fun key => by rw [run, hrun]; rfl⟩
      | succ n => exact Or.inr fun key => by rw [run, Command.run_eval_due script hdue]
    | pushBack list entries => exact Or.inl ⟨.pushBack list entries, fun _ => rfl⟩
    | addMembers set members => exact Or.inl ⟨.addMembers set members, fun _ => rfl⟩
    | mergeFields key fields => exact Or.inl ⟨.mergeFields key fields, fun _ => rfl⟩
    | delete key => exact Or.inl ⟨.delete key, fun _ => rfl⟩
    | listLength list => exact Or.inr fun _ => rfl
    | setSize set => exact Or.inr fun _ => rfl
    | record key => exact Or.inr fun _ => rfl
  | keys pattern => exact Or.inr fun _ => rfl
  | subscribe channels patterns => exact Or.inr fun _ => rfl
  | publish channel payload =>
    right
    intro key
    rw [run, MemoryStore.publish]
    cases SharedStore.checkSize payload.utf8ByteSize m.maxPayload <;> rfl

namespace MemoryStore

theorem Settled.namesDistinct_act (h : m.Settled) (hnames : m.contents.NamesDistinct)
    (a : StoreAct) : (m.act a).contents.NamesDistinct := by
  cases a with
  | use u =>
    rcases u.record_run h.quiet with ⟨c, hc⟩ | hsame
    · exact (hnames.change c).of_record hc
    · exact hnames.of_record hsame
  | injectFailures n => exact hnames
  | read n id => exact hnames
  | abandon id => exact hnames

theorem Settled.namesDistinct_after (h : m.Settled) (hnames : m.contents.NamesDistinct)
    (acts : List StoreAct) : (m.after acts).contents.NamesDistinct := by
  induction acts generalizing m with
  | nil => exact hnames
  | cons a rest ih => exact ih (h.act a) (h.namesDistinct_act hnames a)

/-- The answers about a key tell whether there is a list, a set or a record under it, and whether
there is anything. -/
structure Tells (m : MemoryStore) (key : String) : Prop where
  fields : ((SharedStore.fields key : StoreOp MemoryStore FieldList).run m).1 = .ok [] ↔
    Assoc.has m.contents.records key = false
  length : ((SharedStore.listLength key : StoreOp MemoryStore Nat).run m).1 = .ok 0 ↔
    Assoc.has m.contents.lists key = false
  size : ((SharedStore.setSize key : StoreOp MemoryStore Nat).run m).1 = .ok 0 ↔
    Assoc.has m.contents.sets key = false
  keys : ∀ pattern, ∃ keys,
    ((SharedStore.keys pattern : StoreOp MemoryStore (List String)).run m).1 = .ok keys ∧
      (key ∈ keys ↔ m.contents.Filled key ∧ Text.Glob.accepts pattern key = true)
  delete : ∃ b, ((SharedStore.delete key : StoreOp MemoryStore Bool).run m).1 = .ok b ∧
    (b = true ↔ m.contents.Filled key)

theorem tells_of_tidy (h : m.contents.Tidy) (key : String) : m.Tells key where
  fields := by
    change (.ok (m.contents.record key) : Except BusError FieldList) = .ok [] ↔ _
    rw [Except.ok.injEq, h.record_eq_nil_iff]
  length := by
    change (.ok (m.contents.list key).length : Except BusError Nat) = .ok 0 ↔ _
    rw [Except.ok.injEq, List.length_eq_zero_iff, h.list_eq_nil_iff]
  size := by
    change (.ok (m.contents.members key).length : Except BusError Nat) = .ok 0 ↔ _
    rw [Except.ok.injEq, List.length_eq_zero_iff, h.members_eq_nil_iff]
  keys pattern := by
    refine ⟨_, rfl, ?_⟩
    rw [Keyspace.mem_keysMatching_iff, h.holds_iff]
    exact Iff.rfl
  delete := by
    refine ⟨_, rfl, ?_⟩
    change (m.contents.delete key).1 = true ↔ _
    rw [Keyspace.delete_fst, h.holds_iff]
    exact Iff.rfl

/-- Whatever is done with a store, from its start on: no list, set or record in it is empty, every
set has its index in order, no record has two fields of one name, and nothing is left to be
announced. What it answers about a key is therefore empty, zero or no just if there is nothing to
tell of. -/
theorem nothing_empty_is_kept (config : StoreConfig) (draws : List Nat) (acts : List StoreAct) :
    let m := (config.drawingStore draws).after acts
    m.contents.WellKept ∧ m.contents.outbox = [] ∧ ∀ key, m.Tells key := by
  intro m
  have hstart := Settled.start config draws
  have hsettled : m.Settled := hstart.after acts
  have hnames : m.contents.NamesDistinct :=
    hstart.namesDistinct_after (fun _ => List.nodup_nil) acts
  exact ⟨hsettled.tidy.wellKept hnames, hsettled.quiet, tells_of_tidy hsettled.tidy⟩

end MemoryStore

end ControlBus
