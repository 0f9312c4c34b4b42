-- What clearing the pending work of a table removes. It removes staged fields by their names and
-- the marks by theirs, whatever lies there. With one separator some records are called like these.
import ControlBus.Proofs.StoreRuns
import ControlBus.Proofs.TableIsolation

namespace ControlBus

/-! ## Records that are called like something else -/

/-- A text that can be shifted by one character is that character over and over. -/
theorem shifted_iff {c : Char} {x : List Char} : x ++ [c] = c :: x ↔ ∀ d ∈ x, d = c := by
  induction x with
  | nil => simp
  | cons d x ih =>
    rw [List.cons_append, List.cons.injEq, List.forall_mem_cons, ← ih]
    constructor
    · rintro ⟨rfl, h⟩
      exact ⟨rfl, h⟩
    · rintro ⟨rfl, h⟩
      exact ⟨rfl, h⟩

namespace TableName

variable {t : TableName}

theorem recordKey_eq_deleteSet_iff {key : String} :
    t.recordKey key = t.deleteSet ↔ t.separator = '_' ∧ key = "DEL_SET" := by
  have hmarks : t.deleteSet = t.name ++ ("_" ++ "DEL_SET") := rfl
  have hrecord : t.recordKey key = t.name ++ (String.singleton t.separator ++ key) := by
    rw [recordKey, recordStem, ← String.append_assoc]
    rfl
  rw [hmarks, hrecord, String.append_right_inj, ← String.toList_inj]
  simp [← String.toList_inj]

theorem recordKey_eq_stagingKey_iff {j k : String} :
    t.recordKey j = t.stagingKey k ↔
      t.separator = '_' ∧ (∀ c ∈ t.name.toList, c = '_') ∧ j = "_" ++ k := by
  have hlists : t.recordKey j = t.stagingKey k ↔
      t.name.toList ++ t.separator :: j.toList =
        '_' :: (t.name.toList ++ t.separator :: k.toList) := by
    rw [← String.toList_inj]
    simp [stagingKey, recordKey, recordStem]
  have hkey : j = "_" ++ k ↔ j.toList = '_' :: k.toList := by
    rw [← String.toList_inj]
    simp
  -- below the underscores of the name the two texts differ by the key's first character
  have hrest : t.name.toList ++ '_' :: '_' :: k.toList =
      '_' :: (t.name.toList ++ '_' :: k.toList) ↔ ∀ c ∈ t.name.toList, c = '_' := by
    have hleft : t.name.toList ++ '_' :: '_' :: k.toList =
        (t.name.toList ++ ['_']) ++ '_' :: k.toList := by simp
    rw [hleft, ← List.cons_append, List.append_left_inj, shifted_iff]
  rw [hlists, hkey]
  constructor
  · intro h
    have hfirst : t.separator :: j.toList = '_' :: (t.separator :: k.toList) := by
      by_contra hne
      exact append_ne_shifted hne t.name.toList h
    obtain ⟨hseparator, hj⟩ := List.cons.inj hfirst
    rw [hj, hseparator] at h
    exact ⟨hseparator, hrest.mp h, hseparator ▸ hj⟩
  · rintro ⟨hseparator, hname, hj⟩
    rw [hseparator, hj]
    exact hrest.mpr hname

/-- Clearing removes the record of a key, because it is called like the set of marks or like the
staged fields of a pending key. -/
def Struck (t : TableName) (pending : List String) (key : String) : Prop :=
  t.separator = '_' ∧
    (key = "DEL_SET" ∨ (∀ c ∈ t.name.toList, c = '_') ∧ ∃ k ∈ pending, key = "_" ++ k)

instance (pending : List String) (key : String) : Decidable (t.Struck pending key) :=
  inferInstanceAs (Decidable (_ ∧ (_ ∨ _ ∧ _)))

theorem struck_iff {pending : List String} {key : String} :
    t.Struck pending key ↔
      t.deleteSet = t.recordKey key ∨ t.recordKey key ∈ pending.map t.layout.stagingKey := by
  have hstaged : t.recordKey key ∈ pending.map t.layout.stagingKey ↔
      ∃ k ∈ pending, t.recordKey key = t.stagingKey k := by
    simp only [List.mem_map, layout_stagingKey, eq_comm]
  rw [hstaged, eq_comm, recordKey_eq_deleteSet_iff]
  simp only [recordKey_eq_stagingKey_iff, Struck]
  constructor
  · rintro ⟨hseparator, hkey | ⟨hname, k, hk, hkey⟩⟩
    · exact Or.inl ⟨hseparator, hkey⟩
    · exact Or.inr ⟨k, hk, hseparator, hname, hkey⟩
  · rintro (⟨hseparator, hkey⟩ | ⟨k, hk, hseparator, hname, hkey⟩)
    · exact ⟨hseparator, Or.inl hkey⟩
    · exact ⟨hseparator, Or.inr ⟨hname, k, hk, hkey⟩⟩

end TableName

/-! ## One clearing -/

namespace Keyspace

variable {s : Keyspace} {l : Layout}

theorem record_dropStaged (keys : List String) (j : String) :
    (s.dropStaged l keys).record j =
      if j ∈ keys.map l.stagingKey then [] else s.record j := by
  unfold dropStaged
  induction keys generalizing s with
  | nil => rfl
  | cons key rest ih =>
    rw [List.foldl_cons, ih, record_takeRecord, List.map_cons]
    by_cases hrest : j ∈ rest.map l.stagingKey
    · simp [hrest]
    · by_cases hkey : l.stagingKey key = j
      · simp [hkey]
      · simp [hkey, Ne.symm hkey]

theorem members_delete (key j : String) :
    (s.delete key).2.members j = if key = j then [] else s.members j := by
  rw [members, (delete_spec key j).2.1]
  split <;> rfl

/-- What clearing does to every list, set and record. -/
theorem run_coalescedClear_at (h : s.SetsValid) (l : Layout) (j : String) :
    (s.run (.coalescedClear l)).2.list j = (if l.deleteSet = j then [] else s.list j) ∧
      (s.run (.coalescedClear l)).2.members j =
        (if l.deleteSet = j ∨ l.pendingSet = j then [] else s.members j) ∧
      (s.run (.coalescedClear l)).2.record j =
        if l.deleteSet = j ∨ j ∈ (s.members l.pendingSet).map l.stagingKey then []
        else s.record j := by
  have hdrawn := popMembers_all h l.pendingSet
  obtain ⟨-, hsplit, -, hothers⟩ := popMembers_spec h l.pendingSet (s.setSize l.pendingSet)
  have hnone :
      (s.popMembers l.pendingSet (s.setSize l.pendingSet)).2.members l.pendingSet = [] := by
    have hlength := hsplit.length_eq
    rw [List.length_append, ← hdrawn.length_eq] at hlength
    exact List.eq_nil_of_length_eq_zero (by omega)
  have hmem : j ∈ (s.popMembers l.pendingSet (s.setSize l.pendingSet)).1.map l.stagingKey ↔
      j ∈ (s.members l.pendingSet).map l.stagingKey := (hdrawn.map l.stagingKey).symm.mem_iff
  simp only [run]
  refine ⟨?_, ?_, ?_⟩
  · rw [(delete_spec l.deleteSet j).1, (dropStaged_frame l _ j).1, (popMembers_frame _ _ j).1]
  · rw [members_delete, members_congr (dropStaged_frame l _ j).2]
    by_cases hmarks : l.deleteSet = j
    · simp [hmarks]
    · by_cases hpending : l.pendingSet = j
      · subst hpending
        simpa [hmarks] using hnone
      · simpa [hmarks, hpending] using hothers j hpending
  · rw [(delete_spec l.deleteSet j).2.2, record_dropStaged, (popMembers_frame _ _ j).2]
    by_cases hmarks : l.deleteSet = j
    · simp [hmarks]
    · simp only [hmarks, if_false, false_or, hmem]

end Keyspace

/-- All pending work of a table is gone, and of what can be seen of the table only the records that
clearing strikes. -/
structure Cleared (t : TableName) (m m' : MemoryStore) : Prop where
  pending : m'.contents.members t.pendingSet = []
  marks : m'.contents.members t.deleteSet = []
  staged : ∀ key ∈ m.contents.members t.pendingSet, m'.contents.record (t.stagingKey key) = []
  queue : m'.contents.list t.queue = m.contents.list t.queue
  visible : ∀ key, ((TableReader.get t key).run m').1 =
    if t.Struck (m.contents.members t.pendingSet) key then .ok none
    else ((TableReader.get t key).run m).1

theorem Cleared.afterScript {m : MemoryStore} (h : m.contents.SetsValid) (t : TableName) :
    Cleared t m (m.afterScript (.coalescedClear t.layout)) := by
  have hat := Keyspace.run_coalescedClear_at h t.layout
  have hmembers (j : String) : (m.afterScript (.coalescedClear t.layout)).contents.members j =
      if t.deleteSet = j ∨ t.pendingSet = j then [] else m.contents.members j :=
    (Keyspace.members_congr (MemoryStore.set_afterScript _ j)).trans (hat j).2.1
  refine ⟨?_, ?_, ?_, ?_, ?_⟩
  · rw [hmembers, if_pos (Or.inr rfl)]
  · rw [hmembers, if_pos (Or.inl rfl)]
  · intro key hkey
    have hstaged : t.stagingKey key ∈
        (m.contents.members t.layout.pendingSet).map t.layout.stagingKey :=
      List.mem_map.mpr ⟨key, hkey, t.layout_stagingKey key⟩
    rw [MemoryStore.record_afterScript, (hat (t.stagingKey key)).2.2, if_pos (Or.inr hstaged)]
  · have hapart : t.layout.deleteSet ≠ t.queue := TableName.deleteSet_ne_queue t t
    rw [MemoryStore.list_afterScript, (hat t.queue).1, if_neg hapart]
  · intro key
    have hrecord := (hat (t.recordKey key)).2.2
    rw [TableReader.run_get, TableReader.run_get, MemoryStore.record_afterScript]
    by_cases hstruck : t.Struck (m.contents.members t.pendingSet) key
    · rw [if_pos hstruck, hrecord.trans (if_pos (TableName.struck_iff.mp hstruck))]
      rfl
    · rw [if_neg hstruck, hrecord.trans (if_neg (mt TableName.struck_iff.mpr hstruck))]

/-- In every state that a store in memory can reach, clearing answers how many keys were pending and
forgets them, their staged fields and all marks. The queue stays, and every record of the table can
be read as before, but for those with the separator `_` whose names belong to what is removed. A
clearing that fails leaves everything. -/
theorem clearing_spares_all_records_not_struck (config : StoreConfig) (draws : List Nat)
    (acts : List StoreAct) (t : TableName) :
    let m := (config.drawingStore draws).after acts
    match m.failuresDue with
    | 0 => ((CoalescingState.clear t).run m).1 = .ok (m.contents.members t.pendingSet).length ∧
        Cleared t m ((CoalescingState.clear t).run m).2
    | n + 1 => (CoalescingState.clear t).run m =
        (.error (.scriptFailed "coalesced_clear" "injected failure"),
          { m with failuresDue := n }) := by
  intro m
  have hvalid : m.contents.SetsValid :=
    ((MemoryStore.Settled.start config draws).after acts).tidy.sets
  cases hdue : m.failuresDue with
  | zero =>
    have hrun := CoalescingState.run_clear t hdue
    rw [MemoryStore.afterScripts_one] at hrun
    rw [hrun]
    refine ⟨?_, Cleared.afterScript hvalid t⟩
    rw [← (Keyspace.popMembers_all hvalid t.pendingSet).length_eq]
  | succ n =>
    refine (MemoryStore.run_reading (.coalescedClear t.layout)
      (Output.toCount "coalesced_clear") m).trans ?_
    rw [hdue]
    rfl

/-- With the separator `_` the visible record of the key `DEL_SET` is called like the set of marks.
Clearing, with nothing pending, takes it. -/
theorem clearing_strikes_a_record_called_like_the_marks :
    let t : TableName := { name := "T", separator := '_' }
    let m := (({} : StoreConfig).drawingStore []).after
      [.use (.command (.eval (.stageWrite t.layout "DEL_SET" [("f", "1")] wakeToken))),
        .use (.command (.eval (.coalescedPop t.layout 1)))]
    ((TableReader.get t "DEL_SET").run m).1 = .ok (some [("f", "1")]) ∧
      ((CoalescingState.clear t).run m).1 = .ok 0 ∧
      ((TableReader.get t "DEL_SET").run ((CoalescingState.clear t).run m).2).1 = .ok none := by
  decide +kernel

end ControlBus
