-- What each change of the contents does to every list, set and record, the untouched ones
-- included. Later laws cite these and never open the changes themselves.
import ControlBus.Proofs.RandomSetLaws
import ControlBus.Store.Keyspace

namespace ControlBus.Keyspace

variable (s : Keyspace)

/-- Every stored set keeps its index in order. -/
def SetsValid : Prop := ∀ key, (s.set key).Valid

/-- The members of a set. -/
def members (key : String) : List String := (s.set key).members

variable {s}

theorem SetsValid.nodup (h : s.SetsValid) (key : String) : (s.members key).Nodup := (h key).nodup

/-! ## Notifications touch nothing -/

@[simp] theorem announce_frame (channel payload j : String) :
    (s.announce channel payload).list j = s.list j ∧
      (s.announce channel payload).set j = s.set j ∧
      (s.announce channel payload).record j = s.record j := ⟨rfl, rfl, rfl⟩

@[simp] theorem touch_frame (key : String) (tag : ChangeTag) (j : String) :
    (s.touch key tag).list j = s.list j ∧ (s.touch key tag).set j = s.set j ∧
      (s.touch key tag).record j = s.record j := by
  unfold touch
  split <;> simp

/-! ## Stored containers -/

@[simp] theorem withList_frame (key : String) (entries : List String) (j : String) :
    (s.withList key entries).set j = s.set j ∧ (s.withList key entries).record j = s.record j :=
  ⟨rfl, rfl⟩

@[simp] theorem withSet_frame (key : String) (x : RandomSet) (j : String) :
    (s.withSet key x).list j = s.list j ∧ (s.withSet key x).record j = s.record j := ⟨rfl, rfl⟩

theorem list_withList (key : String) (entries : List String) (j : String) :
    (s.withList key entries).list j = if key = j then entries else s.list j := by
  unfold withList list
  by_cases he : entries.isEmpty
  · simp only [he, if_true, Assoc.get?_erase]
    split
    · simp [List.isEmpty_iff.mp he]
    · rfl
  · simp only [he, Bool.false_eq_true, if_false, Assoc.get?_put]
    split <;> rfl

theorem set_withSet (key : String) (x : RandomSet) (j : String) :
    (s.withSet key x).set j = if key = j then (if x.isEmpty then {} else x) else s.set j := by
  unfold withSet set
  by_cases he : x.isEmpty
  · simp only [he, if_true, Assoc.get?_erase]
    split <;> rfl
  · simp only [he, Bool.false_eq_true, if_false, Assoc.get?_put]
    split <;> rfl

theorem members_withSet (key : String) (x : RandomSet) (j : String) :
    (s.withSet key x).members j = if key = j then x.members else s.members j := by
  unfold members
  rw [set_withSet]
  by_cases hk : key = j
  · by_cases he : x.isEmpty
    · simp [hk, he, List.isEmpty_iff.mp he]
    · simp [hk, he]
  · simp [hk]

theorem SetsValid.withSet (h : s.SetsValid) (key : String) {x : RandomSet} (hx : x.Valid) :
    (s.withSet key x).SetsValid := by
  intro j
  rw [set_withSet]
  split
  · split
    · exact RandomSet.valid_empty
    · exact hx
  · exact h j

theorem SetsValid.of_eq {s' : Keyspace} (h : s.SetsValid) (hs : ∀ j, s'.set j = s.set j) :
    s'.SetsValid := fun j => hs j ▸ h j

theorem members_congr {s' : Keyspace} {j : String} (h : s'.set j = s.set j) :
    s'.members j = s.members j := by
  unfold members
  rw [h]

/-! ## Lists -/

@[simp] theorem pushBack_frame (key : String) (entries : List String) (j : String) :
    (s.pushBack key entries).2.set j = s.set j ∧
      (s.pushBack key entries).2.record j = s.record j := by
  unfold pushBack
  split <;> simp

theorem pushBack_fst (key : String) (entries : List String) :
    (s.pushBack key entries).1 = (s.list key).length + entries.length := by
  unfold pushBack
  split
  · rename_i he
    simp [listLength, List.isEmpty_iff.mp he]
  · simp

theorem list_pushBack (key : String) (entries : List String) (j : String) :
    (s.pushBack key entries).2.list j = if key = j then s.list j ++ entries else s.list j := by
  unfold pushBack
  split
  · rename_i he
    simp [List.isEmpty_iff.mp he]
  · simp only [touch_frame, list_withList]
    split
    · rename_i hk
      rw [hk]
    · rfl

@[simp] theorem popFront_frame (key : String) (max : Nat) (j : String) :
    (s.popFront key max).2.set j = s.set j ∧ (s.popFront key max).2.record j = s.record j := by
  unfold popFront
  dsimp only
  split <;> simp

theorem popFront_fst (key : String) (max : Nat) :
    (s.popFront key max).1 = (s.list key).take max := by
  unfold popFront
  dsimp only
  split
  · rename_i he
    simp [List.isEmpty_iff.mp he]
  · rfl

theorem list_popFront (key : String) (max : Nat) (j : String) :
    (s.popFront key max).2.list j = if key = j then (s.list j).drop max else s.list j := by
  unfold popFront
  dsimp only
  split
  · rename_i he
    by_cases hk : key = j
    · subst hk
      rcases List.take_eq_nil_iff.mp (List.isEmpty_iff.mp he) with hm | hl
      · simp [hm]
      · simp [hl]
    · simp [hk]
  · simp only [touch_frame, list_withList]
    split
    · rename_i hk
      rw [hk]
    · rfl

/-! ## Sets -/

@[simp] theorem addMember_frame (key m j : String) :
    (s.addMember key m).2.list j = s.list j ∧ (s.addMember key m).2.record j = s.record j := by
  unfold addMember
  split <;> simp

theorem addMember_fst (h : s.SetsValid) (key m : String) :
    (s.addMember key m).1 = decide (m ∉ s.members key) := by
  have hi := RandomSet.insert_fst (h key) m
  unfold addMember members
  split
  · rename_i x hx
    rw [← hi, hx]
  · rename_i x hx
    rw [← hi, hx]

theorem members_addMember (h : s.SetsValid) (key m j : String) :
    (s.addMember key m).2.members j =
      if key = j ∧ m ∉ s.members j then s.members j ++ [m] else s.members j := by
  have hi := RandomSet.insert_fst (h key) m
  have hm := RandomSet.members_insert (h key) m
  unfold addMember
  split
  · rename_i x hx
    rw [hx] at hi hm
    have hnot : m ∉ (s.set key).members := by simpa using hi
    rw [if_neg hnot] at hm
    rw [members_congr (touch_frame key .sadd j).2.1, members_withSet]
    by_cases hk : key = j
    · subst hk
      simpa [members, hnot] using hm
    · simp [hk]
  · rename_i x hx
    rw [hx] at hi
    have hin : m ∈ (s.set key).members := by simpa using hi
    by_cases hk : key = j
    · subst hk
      simp [members, hin]
    · simp [hk]

theorem mem_addMember (h : s.SetsValid) (key m j x : String) :
    x ∈ (s.addMember key m).2.members j ↔ x ∈ s.members j ∨ (j = key ∧ x = m) := by
  rw [members_addMember h]
  split <;> grind

theorem SetsValid.addMember (h : s.SetsValid) (key m : String) :
    (s.addMember key m).2.SetsValid := by
  have hv := RandomSet.valid_insert (h key) m
  unfold Keyspace.addMember
  split
  · rename_i x hx
    rw [hx] at hv
    exact (h.withSet key hv).of_eq fun j => (touch_frame key .sadd j).2.1
  · exact h

@[simp] theorem removeMember_frame (key m j : String) :
    (s.removeMember key m).2.list j = s.list j ∧
      (s.removeMember key m).2.record j = s.record j := by
  unfold removeMember
  split <;> simp

theorem removeMember_fst (h : s.SetsValid) (key m : String) :
    (s.removeMember key m).1 = decide (m ∈ s.members key) := by
  have hi := RandomSet.remove_fst (h key) m
  unfold removeMember members
  split
  · rename_i x hx
    rw [← hi, hx]
  · rename_i x hx
    rw [← hi, hx]

theorem mem_removeMember (h : s.SetsValid) (key m j x : String) :
    x ∈ (s.removeMember key m).2.members j ↔ x ∈ s.members j ∧ ¬ (j = key ∧ x = m) := by
  have hi := RandomSet.remove_fst (h key) m
  have hm := RandomSet.mem_remove (h key) m x
  unfold removeMember
  split
  · rename_i r hr
    rw [hr] at hm
    rw [members_congr (touch_frame key .srem j).2.1, members_withSet]
    unfold members
    grind
  · rename_i r hr
    rw [hr] at hi
    have hnot : m ∉ (s.set key).members := by simpa using hi
    unfold members
    grind

theorem SetsValid.removeMember (h : s.SetsValid) (key m : String) :
    (s.removeMember key m).2.SetsValid := by
  have hv := RandomSet.valid_remove (h key) m
  unfold Keyspace.removeMember
  split
  · rename_i x hx
    rw [hx] at hv
    exact (h.withSet key hv).of_eq fun j => (touch_frame key .srem j).2.1
  · exact h

@[simp] theorem popMembers_frame (key : String) (max : Nat) (j : String) :
    (s.popMembers key max).2.list j = s.list j ∧
      (s.popMembers key max).2.record j = s.record j := by
  unfold popMembers
  dsimp only
  split
  · exact ⟨rfl, rfl⟩
  · exact ⟨(touch_frame key .spop j).1, (touch_frame key .spop j).2.2⟩

/-- A draw takes as many members as it may, each once, and leaves the others. -/
theorem popMembers_spec (h : s.SetsValid) (key : String) (max : Nat) :
    (s.popMembers key max).2.SetsValid ∧
      (s.members key).Perm ((s.popMembers key max).1 ++ (s.popMembers key max).2.members key) ∧
      (s.popMembers key max).1.length = min max (s.members key).length ∧
      ∀ j, key ≠ j → (s.popMembers key max).2.members j = s.members j := by
  obtain ⟨hv, hp, hl⟩ := RandomSet.drawMany_spec (min max (s.setSize key)) s.draws (h key)
  have hsize : s.setSize key = (s.members key).length := rfl
  have hmin : min (min max (s.setSize key)) (s.set key).size = min max (s.members key).length := by
    rw [hsize, show (s.set key).size = (s.members key).length from rfl]
    omega
  rw [hmin] at hl
  unfold popMembers
  dsimp only
  split
  · rename_i he
    rw [List.isEmpty_iff.mp he] at hl
    exact ⟨h, by simp, hl, fun _ _ => rfl⟩
  · refine ⟨?_, ?_, hl, ?_⟩
    · refine (SetsValid.withSet (s := { s with draws := _ }) h key hv).of_eq ?_
      intro j
      exact (touch_frame key .spop j).2.1
    · rw [members_congr (touch_frame key .spop key).2.1, members_withSet, if_pos rfl]
      exact hp
    · intro j hj
      rw [members_congr (touch_frame key .spop j).2.1, members_withSet, if_neg hj]
      rfl

theorem mem_popMembers (h : s.SetsValid) (key : String) (max : Nat) (x : String) :
    x ∈ (s.popMembers key max).2.members key ↔
      x ∈ s.members key ∧ x ∉ (s.popMembers key max).1 := by
  obtain ⟨-, hp, -, -⟩ := popMembers_spec h key max
  have hn := hp.nodup_iff.mp (h.nodup key)
  rw [hp.mem_iff, List.mem_append]
  have hd := (List.nodup_append.mp hn).2.2
  grind

/-! ## Records -/

@[simp] theorem mergeFields_frame (key : String) (fields : FieldList) (j : String) :
    (s.mergeFields key fields).list j = s.list j ∧ (s.mergeFields key fields).set j = s.set j := by
  unfold mergeFields
  split
  · exact ⟨rfl, rfl⟩
  · simp [list, set, touch]
    split <;> simp [announce]

theorem record_mergeFields (key : String) (fields : FieldList) (j : String) :
    (s.mergeFields key fields).record j =
      if key = j then (s.record j).merge fields else s.record j := by
  unfold mergeFields
  split
  · rename_i he
    simp [List.isEmpty_iff.mp he]
  · rw [(touch_frame key .hset j).2.2, record, Assoc.get?_put]
    split
    · rename_i hk
      rw [hk]
      rfl
    · rfl

@[simp] theorem takeRecord_frame (key j : String) :
    (s.takeRecord key).2.list j = s.list j ∧ (s.takeRecord key).2.set j = s.set j := by
  unfold takeRecord
  split
  · simp [list, set, touch]
    split <;> simp [announce]
  · exact ⟨rfl, rfl⟩

theorem takeRecord_fst (key : String) : (s.takeRecord key).1 = s.record key := by
  unfold takeRecord record
  split <;> simp [*]

theorem record_takeRecord (key j : String) :
    (s.takeRecord key).2.record j = if key = j then [] else s.record j := by
  unfold takeRecord
  split
  · rw [(touch_frame key .del j).2.2, record, Assoc.get?_erase]
    split <;> rfl
  · rename_i hnone
    split
    · rename_i hk
      rw [← hk, record, hnone]
      rfl
    · rfl

/-! ## Removal of a key of any kind -/

theorem delete_spec (key j : String) :
    (s.delete key).2.list j = (if key = j then [] else s.list j) ∧
      (s.delete key).2.set j = (if key = j then {} else s.set j) ∧
      (s.delete key).2.record j = (if key = j then [] else s.record j) := by
  unfold delete
  split
  · simp only [touch_frame]
    simp only [list, set, record, Assoc.get?_erase]
    refine ⟨?_, ?_, ?_⟩ <;> split <;> rfl
  · rename_i hnot
    have hnone : s.list key = [] ∧ s.set key = {} ∧ s.record key = [] := by
      simp only [holds, Assoc.has, Bool.or_eq_true, not_or, Bool.not_eq_true,
        Option.isSome_eq_false_iff, Option.isNone_iff_eq_none] at hnot
      simp [list, set, record, hnot]
    refine ⟨?_, ?_, ?_⟩ <;> split <;> grind

end ControlBus.Keyspace
