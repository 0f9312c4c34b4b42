-- A coalescing table key by key. Each script changes what the store holds for a key in one way,
-- whatever else lies in the store.
import ControlBus.Proofs.KeyspaceLaws
import ControlBus.Proofs.TableKeys

namespace ControlBus

/-- What the store holds for one key of a coalescing table. -/
structure KeyState where
  /-- Whether the key waits to be popped. -/
  pending : Bool
  /-- Whether the key is marked for deletion. -/
  marked : Bool
  staged : Record
  visible : Record

namespace KeyState

def stage (fields : FieldList) (v : KeyState) : KeyState :=
  { v with pending := true, staged := v.staged.merge fields }

def mark (v : KeyState) : KeyState := { v with pending := true, marked := true, staged := [] }

/-- The record that a pop makes visible. -/
def merged (v : KeyState) : Record := Record.merge (if v.marked then [] else v.visible) v.staged

/-- What a pop does with the parts of a key. -/
def land (v : KeyState) : KeyState := { v with marked := false, staged := [], visible := v.merged }

def unpend (v : KeyState) : KeyState := { v with pending := false }

/-- What clearing does: staged fields go with the place in the pending set. -/
def forget (v : KeyState) : KeyState :=
  { v with pending := false, marked := false, staged := if v.pending then [] else v.staged }

end KeyState

namespace Keyspace

variable {s : Keyspace} {l : Layout}

def keyState (l : Layout) (k : String) (s : Keyspace) : KeyState where
  pending := decide (k ∈ s.members l.pendingSet)
  marked := decide (k ∈ s.members l.deleteSet)
  staged := s.record (l.stagingKey k)
  visible := s.record (l.recordKey k)

/-! ## Single changes -/

theorem keyState_announce (channel payload k : String) :
    (s.announce channel payload).keyState l k = s.keyState l k := rfl

theorem keyState_mergeStaged (ha : l.Apart) (key : String) (fields : FieldList) (k : String) :
    (s.mergeFields (l.stagingKey key) fields).keyState l k =
      if k = key then { s.keyState l k with staged := (s.keyState l k).staged.merge fields }
      else s.keyState l k := by
  have hm : ∀ j, (s.mergeFields (l.stagingKey key) fields).members j = s.members j :=
    fun j => members_congr (mergeFields_frame _ _ _).2
  simp only [keyState, hm, record_mergeFields, Layout.stagingKey_inj, ha.staging_record key k,
    if_false]
  by_cases hk : k = key
  · simp [hk]
  · simp [hk, Ne.symm hk]

theorem keyState_takeStaged (ha : l.Apart) (key k : String) :
    (s.takeRecord (l.stagingKey key)).2.keyState l k =
      if k = key then { s.keyState l k with staged := [] } else s.keyState l k := by
  have hm : ∀ j, (s.takeRecord (l.stagingKey key)).2.members j = s.members j :=
    fun j => members_congr (takeRecord_frame _ _).2
  simp only [keyState, hm, record_takeRecord, Layout.stagingKey_inj, ha.staging_record key k,
    if_false]
  by_cases hk : k = key
  · simp [hk]
  · simp [hk, Ne.symm hk]

theorem keyState_addPending (h : s.SetsValid) (ha : l.Apart) (key k : String) :
    (s.addMember l.pendingSet key).2.keyState l k =
      if k = key then { s.keyState l k with pending := true } else s.keyState l k := by
  simp only [keyState, mem_addMember h, addMember_frame]
  by_cases hk : k = key
  · simp [hk, ha.sets.symm]
  · simp [hk]

theorem keyState_addMark (h : s.SetsValid) (ha : l.Apart) (key k : String) :
    (s.addMember l.deleteSet key).2.keyState l k =
      if k = key then { s.keyState l k with marked := true } else s.keyState l k := by
  simp only [keyState, mem_addMember h, addMember_frame]
  by_cases hk : k = key
  · simp [hk, ha.sets]
  · simp [hk]

theorem keyState_markPending (h : s.SetsValid) (ha : l.Apart) (key token k : String) :
    (s.markPending l key token).2.keyState l k =
      if k = key then { s.keyState l k with pending := true } else s.keyState l k := by
  rw [← keyState_addPending h ha]
  unfold markPending
  split
  · rename_i s' hs
    rw [keyState_announce, hs]
  · rename_i s' hs
    rw [hs]

theorem SetsValid.markPending (h : s.SetsValid) (l : Layout) (key token : String) :
    (s.markPending l key token).2.SetsValid := by
  have hv := h.addMember l.pendingSet key
  unfold Keyspace.markPending
  split
  · rename_i s' hs
    rw [hs] at hv
    exact hv.of_eq fun j => rfl
  · rename_i s' hs
    rwa [hs] at hv

theorem markPending_fst (s : Keyspace) (l : Layout) (key token : String) :
    ∃ n, (s.markPending l key token).1 = .count n := by
  unfold markPending
  split
  · exact ⟨1, rfl⟩
  · exact ⟨0, rfl⟩

/-! ## Staging -/

theorem run_stageWrite_fst (s : Keyspace) (l : Layout) (key : String) (fields : FieldList)
    (token : String) : ∃ n, (run (.stageWrite l key fields token) s).1 = .count n :=
  markPending_fst _ l key token

theorem run_stageDelete_fst (s : Keyspace) (l : Layout) (key token : String) :
    ∃ n, (run (.stageDelete l key token) s).1 = .count n :=
  markPending_fst _ l key token

theorem SetsValid.stageWrite (h : s.SetsValid) (l : Layout) (key : String) (fields : FieldList)
    (token : String) : (run (.stageWrite l key fields token) s).2.SetsValid :=
  (h.of_eq fun _ => (mergeFields_frame _ fields _).2).markPending l key token

theorem keyState_stageWrite (h : s.SetsValid) (ha : l.Apart) (key : String) (fields : FieldList)
    (token k : String) :
    (run (.stageWrite l key fields token) s).2.keyState l k =
      if k = key then (s.keyState l k).stage fields else s.keyState l k := by
  have h' : (s.mergeFields (l.stagingKey key) fields).SetsValid :=
    h.of_eq fun _ => (mergeFields_frame _ fields _).2
  simp only [run]
  rw [keyState_markPending h' ha, keyState_mergeStaged ha]
  by_cases hk : k = key <;> simp [hk, KeyState.stage]

theorem SetsValid.stageDelete (h : s.SetsValid) (l : Layout) (key token : String) :
    (run (.stageDelete l key token) s).2.SetsValid :=
  ((h.of_eq fun _ => (takeRecord_frame _ _).2).addMember l.deleteSet key).markPending l key token

theorem keyState_stageDelete (h : s.SetsValid) (ha : l.Apart) (key token k : String) :
    (run (.stageDelete l key token) s).2.keyState l k =
      if k = key then (s.keyState l k).mark else s.keyState l k := by
  have h' : (s.takeRecord (l.stagingKey key)).2.SetsValid :=
    h.of_eq fun _ => (takeRecord_frame _ _).2
  simp only [run]
  rw [keyState_markPending (h'.addMember _ _) ha, keyState_addMark h' ha, keyState_takeStaged ha]
  by_cases hk : k = key <;> simp [hk, KeyState.mark]

/-! ## Popping -/

theorem record_honourDelete (h : s.SetsValid) (key j : String) :
    (s.honourDelete l key).record j =
      if key ∈ s.members l.deleteSet ∧ l.recordKey key = j then [] else s.record j := by
  have hf := removeMember_fst h l.deleteSet key
  have hr := (removeMember_frame (s := s) l.deleteSet key j).2
  unfold honourDelete
  split
  · rename_i s' hs
    rw [hs] at hf hr
    rw [record_takeRecord, hr]
    have hin : key ∈ s.members l.deleteSet := by simpa using hf
    simp [hin]
  · rename_i s' hs
    rw [hs] at hf hr
    have hnot : key ∉ s.members l.deleteSet := by simpa using hf
    rw [hr, if_neg fun hc => hnot hc.1]

theorem set_honourDelete (key j : String) :
    (s.honourDelete l key).set j = (s.removeMember l.deleteSet key).2.set j := by
  unfold honourDelete
  split
  · rename_i s' hs
    rw [hs, (takeRecord_frame _ _).2]
  · rename_i s' hs
    rw [hs]

theorem SetsValid.honourDelete (h : s.SetsValid) (l : Layout) (key : String) :
    (s.honourDelete l key).SetsValid :=
  (h.removeMember l.deleteSet key).of_eq (set_honourDelete key)

theorem mem_honourDelete (h : s.SetsValid) (key j x : String) :
    x ∈ (s.honourDelete l key).members j ↔ x ∈ s.members j ∧ ¬ (j = l.deleteSet ∧ x = key) := by
  rw [members_congr (set_honourDelete key j), mem_removeMember h]

theorem SetsValid.materialize (h : s.SetsValid) (l : Layout) (key : String) :
    (s.materialize l key).2.SetsValid :=
  (h.honourDelete l key).of_eq fun _ =>
    (mergeFields_frame _ _ _).2.trans (takeRecord_frame _ _).2

theorem materialize_fst (h : s.SetsValid) (ha : l.Apart) (key : String) :
    (s.materialize l key).1 = (key, (s.keyState l key).staged) := by
  have hne : ¬ (key ∈ s.members l.deleteSet ∧ l.recordKey key = l.stagingKey key) := fun hc =>
    ha.staging_record key key hc.2.symm
  simp only [materialize, takeRecord_fst, record_honourDelete h, hne, if_false, keyState]

theorem keyState_materialize (h : s.SetsValid) (ha : l.Apart) (key k : String) :
    (s.materialize l key).2.keyState l k =
      if k = key then (s.keyState l k).land else s.keyState l k := by
  have hset : ∀ j, (s.materialize l key).2.members j = (s.honourDelete l key).members j :=
    fun j => members_congr ((mergeFields_frame _ _ _).2.trans (takeRecord_frame _ _).2)
  have hrecord : ∀ j, (s.materialize l key).2.record j =
      if l.recordKey key = j then
        Record.merge (if key ∈ s.members l.deleteSet then [] else s.record j)
          (s.record (l.stagingKey key))
      else if l.stagingKey key = j then [] else s.record j := by
    intro j
    have hne : ¬ (key ∈ s.members l.deleteSet ∧ l.recordKey key = l.stagingKey key) := fun hc =>
      ha.staging_record key key hc.2.symm
    simp only [materialize, takeRecord_fst, record_mergeFields, record_takeRecord,
      record_honourDelete h, hne, if_false]
    by_cases hj : l.recordKey key = j
    · subst hj
      simp [ha.staging_record key key]
    · simp [hj]
  simp only [keyState, hset, hrecord, mem_honourDelete h, Layout.stagingKey_inj,
    Layout.recordKey_inj, ha.staging_record key k, (ha.staging_record k key).symm, if_false]
  by_cases hk : k = key
  · subst hk
    simp [ha.sets, KeyState.land, KeyState.merged]
  · simp [hk, Ne.symm hk]

theorem SetsValid.materializeAll (h : s.SetsValid) (l : Layout) (keys : List String) :
    (s.materializeAll l keys).2.SetsValid := by
  induction keys generalizing s with
  | nil => exact h
  | cons key rest ih => exact ih (h.materialize l key)

theorem materializeAll_fst (h : s.SetsValid) (ha : l.Apart) {keys : List String}
    (hn : keys.Nodup) :
    (s.materializeAll l keys).1 = keys.map fun k => (k, (s.keyState l k).staged) := by
  induction keys generalizing s with
  | nil => rfl
  | cons key rest ih =>
    obtain ⟨hnot, hrest⟩ := List.nodup_cons.mp hn
    simp only [materializeAll, List.map_cons, materialize_fst h ha,
      ih (h.materialize l key) hrest, List.cons.injEq, true_and]
    apply List.map_congr_left
    intro k hk
    rw [keyState_materialize h ha, if_neg fun he : k = key => hnot (he ▸ hk)]

theorem keyState_materializeAll (h : s.SetsValid) (ha : l.Apart) {keys : List String}
    (hn : keys.Nodup) (k : String) :
    (s.materializeAll l keys).2.keyState l k =
      if k ∈ keys then (s.keyState l k).land else s.keyState l k := by
  induction keys generalizing s with
  | nil => rfl
  | cons key rest ih =>
    obtain ⟨hnot, hrest⟩ := List.nodup_cons.mp hn
    simp only [materializeAll, ih (h.materialize l key) hrest, keyState_materialize h ha,
      List.mem_cons]
    by_cases hk : k = key
    · subst hk
      simp [hnot]
    · simp [hk]

theorem keyState_popPending (h : s.SetsValid) (ha : l.Apart) (max : Nat) (k : String) :
    (s.popMembers l.pendingSet max).2.keyState l k =
      if k ∈ (s.popMembers l.pendingSet max).1 then (s.keyState l k).unpend
      else s.keyState l k := by
  have hother := (popMembers_spec h l.pendingSet max).2.2.2
  simp only [keyState, mem_popMembers h, popMembers_frame, hother _ ha.sets]
  split
  · rename_i hk
    simp [hk, KeyState.unpend]
  · rename_i hk
    simp [hk]

theorem nodup_popMembers (h : s.SetsValid) (key : String) (max : Nat) :
    (s.popMembers key max).1.Nodup := by
  obtain ⟨-, hp, -, -⟩ := popMembers_spec h key max
  exact (List.nodup_append.mp (hp.nodup_iff.mp (h.nodup key))).1

theorem SetsValid.coalescedPop (h : s.SetsValid) (l : Layout) (max : Nat) :
    (run (.coalescedPop l max) s).2.SetsValid :=
  (popMembers_spec h l.pendingSet max).1.materializeAll l _

/-- A pop answers the staged fields of the keys it took, and moves them into the visible
records. -/
theorem run_coalescedPop (h : s.SetsValid) (ha : l.Apart) (max : Nat) :
    (run (.coalescedPop l max) s).1 =
        .records ((s.popMembers l.pendingSet max).1.map fun k => (k, (s.keyState l k).staged)) ∧
      ∀ k, (run (.coalescedPop l max) s).2.keyState l k =
        if k ∈ (s.popMembers l.pendingSet max).1 then (s.keyState l k).unpend.land
        else s.keyState l k := by
  have hv := (popMembers_spec h l.pendingSet max).1
  have hn := nodup_popMembers h l.pendingSet max
  refine ⟨?_, fun k => ?_⟩
  · simp only [run, materializeAll_fst hv ha hn, keyState, popMembers_frame]
  · simp only [run]
    rw [keyState_materializeAll hv ha hn, keyState_popPending h ha]
    split <;> rfl

/-! ## Clearing -/

theorem dropStaged_frame (l : Layout) (keys : List String) (j : String) :
    (s.dropStaged l keys).list j = s.list j ∧ (s.dropStaged l keys).set j = s.set j := by
  unfold dropStaged
  induction keys generalizing s with
  | nil => exact ⟨rfl, rfl⟩
  | cons key rest ih =>
    obtain ⟨hl, hs⟩ := takeRecord_frame (s := s) (l.stagingKey key) j
    obtain ⟨hl', hs'⟩ := ih (s := (s.takeRecord (l.stagingKey key)).2)
    exact ⟨hl'.trans hl, hs'.trans hs⟩

theorem keyState_dropStaged (ha : l.Apart) (keys : List String) (k : String) :
    (s.dropStaged l keys).keyState l k =
      if k ∈ keys then { s.keyState l k with staged := [] } else s.keyState l k := by
  unfold dropStaged
  induction keys generalizing s with
  | nil => rfl
  | cons key rest ih =>
    simp only [List.foldl_cons, ih, keyState_takeStaged ha, List.mem_cons]
    by_cases hk : k = key <;> by_cases hr : k ∈ rest <;> simp [hk, hr]

theorem keyState_deleteMarks (ha : l.Apart) (k : String) :
    (s.delete l.deleteSet).2.keyState l k = { s.keyState l k with marked := false } := by
  have hs := delete_spec (s := s) l.deleteSet
  have hp : (s.delete l.deleteSet).2.members l.pendingSet = s.members l.pendingSet :=
    members_congr ((hs _).2.1.trans (if_neg ha.sets.symm))
  have hd : (s.delete l.deleteSet).2.members l.deleteSet = [] := by
    rw [members, (hs _).2.1, if_pos rfl]
  simp only [keyState, hp, hd, (hs _).2.2, ha.marks_staging, ha.marks_record, if_false]
  simp

theorem SetsValid.delete (h : s.SetsValid) (key : String) : (s.delete key).2.SetsValid := by
  intro j
  rw [(delete_spec key j).2.1]
  split
  · exact RandomSet.valid_empty
  · exact h j

theorem SetsValid.coalescedClear (h : s.SetsValid) (l : Layout) :
    (run (.coalescedClear l) s).2.SetsValid :=
  ((popMembers_spec h l.pendingSet _).1.of_eq fun j =>
    (dropStaged_frame l _ j).2).delete l.deleteSet

/-- Clearing takes all pending keys. -/
theorem popMembers_all (h : s.SetsValid) (key : String) :
    (s.members key).Perm (s.popMembers key (s.setSize key)).1 := by
  obtain ⟨-, hp, hl, -⟩ := popMembers_spec h key (s.setSize key)
  have hnil : (s.popMembers key (s.setSize key)).2.members key = [] := by
    have hlen := hp.length_eq
    have hmin : min (s.setSize key) (s.members key).length = (s.members key).length :=
      Nat.min_self _
    rw [List.length_append, hl, hmin] at hlen
    exact List.eq_nil_of_length_eq_zero (by omega)
  rwa [hnil, List.append_nil] at hp

theorem run_coalescedClear (h : s.SetsValid) (ha : l.Apart) :
    (run (.coalescedClear l) s).1 = .count (s.members l.pendingSet).length ∧
      ∀ k, (run (.coalescedClear l) s).2.keyState l k = (s.keyState l k).forget := by
  have hall := popMembers_all h l.pendingSet
  refine ⟨?_, fun k => ?_⟩
  · simp only [run, hall.length_eq]
  · simp only [run]
    rw [keyState_deleteMarks ha, keyState_dropStaged ha, keyState_popPending h ha]
    simp only [← hall.mem_iff]
    by_cases hk : k ∈ s.members l.pendingSet <;>
      simp [hk, KeyState.unpend, KeyState.forget, keyState]

end Keyspace

end ControlBus
