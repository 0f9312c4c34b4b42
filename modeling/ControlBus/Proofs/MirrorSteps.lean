-- Every operation of the store in a database follows its counterpart in memory: it has the same
-- result, leaves rows that picture the same contents, and issues the same announcements.
import ControlBus.Proofs.Mirror

namespace ControlBus

open RelationalStore

variable {k : Keyspace}

namespace Follows

/-! ## Lists -/

theorem withList_withList (key : String) {a b : List String} (ha : a ≠ []) (hb : b ≠ []) :
    (k.withList key a).withList key b = k.withList key b := by
  simp [Keyspace.withList, ha, hb, Assoc.put_put_self]

theorem appendAll (ht : k.Tidy) (key entry : String) (rest : List String) :
    Follows k (appendAll key (entry :: rest))
      ((), k.withList key (k.list key ++ entry :: rest)) := by
  induction rest generalizing k entry with
  | nil =>
    have htidy := ht.withList key (k.list key ++ [entry])
    refine sendThen (k.withList key (k.list key ++ [entry])) rfl rfl rfl htidy
      (List.prefix_refl _) ?_
    intro r order n hr _
    exact ⟨hr.appendEntry key entry, Follows.pure htidy ()⟩
  | cons entry' rest ih =>
    have hnext := ih (ht.withList key (k.list key ++ [entry])) entry'
    rw [Keyspace.list_withList, if_pos rfl, withList_withList key (by simp) (by simp),
      List.append_assoc] at hnext
    refine sendThen (k.withList key (k.list key ++ [entry])) rfl rfl rfl hnext.tidy hnext.grows ?_
    intro r order n hr _
    exact ⟨hr.appendEntry key entry, hnext⟩

theorem countEntries (ht : k.Tidy) (key : String) :
    Follows k (send (.countEntries key)) (k.listLength key, k) := by
  refine ask rfl ht ?_
  intro r order n hr
  have hlength : (r.entriesOf key).length = k.listLength key := by
    rw [Keyspace.listLength, ← hr.lists, Rows.list, List.length_map]
  simp only [Rows.answer, hlength]

theorem pushBack (ht : k.Tidy) (key : String) (entries : List String) :
    Follows k (pushBack key entries) (k.pushBack key entries) := by
  cases entries with
  | nil => exact countEntries ht key
  | cons entry rest =>
    have happend := appendAll ht key entry rest
    have htouch := touch happend.tidy key .rpush
    have hcount := countEntries htouch.tidy key
    have hlength : ((k.withList key (k.list key ++ entry :: rest)).touch key .rpush).listLength key
        = (k.list key ++ entry :: rest).length := by
      rw [Keyspace.listLength, (Keyspace.touch_frame key .rpush key).1, Keyspace.list_withList,
        if_pos rfl]
    rw [hlength] at hcount
    exact happend.bind (htouch.bind hcount)

/-- The cap on a number of rows does not show while what there is to take fits the database. -/
theorem take_limitOf {max : Nat} {entries : List String}
    (hmax : min max entries.length ≤ Text.maxSigned64) :
    entries.take (limitOf max) = entries.take max := by
  rw [List.take_eq_take_iff, limitOf]
  omega

theorem drop_limitOf {max : Nat} {entries : List String}
    (hmax : min max entries.length ≤ Text.maxSigned64) :
    entries.drop (limitOf max) = entries.drop max := by
  have hsplit := List.take_append_drop (limitOf max) entries
  rw [take_limitOf hmax] at hsplit
  exact List.append_cancel_left (hsplit.trans (List.take_append_drop max entries).symm)

/-- Entries are taken as they lie in the list, as long as their number fits the database. -/
theorem popFront (ht : k.Tidy) (key : String) {max : Nat}
    (hmax : min max (k.listLength key) ≤ Text.maxSigned64) :
    Follows k (popFront key max) (k.popFront key max) := by
  have hread : ∀ r (order : RowOrder) n, Pictures k r → order.Orderly →
      (Rows.entriesBySeq (Rows.answer order n (.popEntries key (limitOf max)) r).1).map (·.value) =
        (k.list key).take max := by
    intro r order n hr ho
    rw [Rows.popEntries_answer hr.valid key _ (ho.entries n), hr.lists, take_limitOf hmax]
  have hleft : ∀ r (order : RowOrder) n, Pictures k r →
      Pictures (k.withList key ((k.list key).drop max))
        (Rows.answer order n (.popEntries key (limitOf max)) r).2 := by
    intro r order n hr
    rw [← drop_limitOf hmax]
    exact hr.popEntries key (limitOf max)
  by_cases hnone : (k.list key).take max = []
  · have hpop : k.popFront key max = ([], k) := by simp [Keyspace.popFront, hnone]
    have hwhole : (k.list key).drop max = k.list key := by
      simpa [hnone] using List.take_append_drop max (k.list key)
    rw [hwhole] at hleft
    rw [hpop]
    refine sendThen k rfl rfl rfl ht (List.prefix_refl _) ?_
    intro r order n hr ho
    have hrows := (hread r order n hr ho).trans hnone
    refine ⟨(hleft r order n hr).of_withList ht, ?_⟩
    rw [map_mergeSort_eq_nil.mp hrows, hrows]
    exact Follows.pure ht []
  · have hpop : k.popFront key max = ((k.list key).take max,
        (k.withList key ((k.list key).drop max)).touch key .lpop) := by
      simp [Keyspace.popFront, hnone]
    have hanswer := touchThen (ht.withList key ((k.list key).drop max)) key .lpop
      ((k.list key).take max)
    rw [hpop]
    refine sendThen (k.withList key ((k.list key).drop max)) rfl rfl rfl hanswer.tidy
      hanswer.grows ?_
    intro r order n hr ho
    have hrows := hread r order n hr ho
    have hsome := mt map_mergeSort_eq_nil.mpr (hrows ▸ hnone)
    refine ⟨hleft r order n hr, ?_⟩
    rw [if_pos (by simpa using hsome), hrows]
    exact hanswer

/-! ## Sets -/

theorem addMember (ht : k.Tidy) (key m : String) :
    Follows k (addMember key m) (k.addMember key m) := by
  have hfst := RandomSet.insert_fst (ht.sets key) m
  have hvalid := RandomSet.valid_insert (ht.sets key) m
  have hpictures : ∀ r (order : RowOrder) n, Pictures k r →
      Pictures (k.withSet key ((k.set key).insert m).2)
        (Rows.answer order n (.addMember key m) r).2 :=
    fun _ _ _ hr => hr.addMember key m
  have hin : ∀ r, Pictures k r → (r.sets.contains { key, member := m } = true ↔
      m ∈ (k.set key).members) := by
    intro r hr
    rw [List.contains_iff_mem]
    exact hr.members key m
  rcases hinsert : (k.set key).insert m with ⟨new, x⟩
  rw [hinsert] at hfst hvalid hpictures
  by_cases hm : m ∈ (k.set key).members
  · obtain rfl : new = false := by simpa [hm] using hfst
    have hadd : k.addMember key m = (false, k) := by simp only [Keyspace.addMember, hinsert]
    rw [hadd]
    refine sendThen k rfl rfl rfl ht (List.prefix_refl _) ?_
    intro r order n hr _
    simp only [Rows.answer, (hin r hr).mpr hm, if_true]
    exact ⟨hr, Follows.pure ht false⟩
  · obtain rfl : new = true := by simpa [hm] using hfst
    have hadd : k.addMember key m = (true, (k.withSet key x).touch key .sadd) := by
      simp only [Keyspace.addMember, hinsert]
    have hanswer := touchThen (ht.withSet key hvalid) key .sadd true
    rw [hadd]
    refine sendThen (k.withSet key x) rfl rfl rfl hanswer.tidy hanswer.grows ?_
    intro r order n hr _
    have hnew : ¬ r.sets.contains { key, member := m } = true := fun hc => hm ((hin r hr).mp hc)
    refine ⟨hpictures r order n hr, ?_⟩
    simp only [Rows.answer, hnew, Bool.false_eq_true, if_false]
    exact hanswer

theorem addMembers (ht : k.Tidy) (key : String) (members : List String) :
    Follows k (addMembers key members) (Keyspace.addMembers key members k) := by
  induction members generalizing k with
  | nil => exact Follows.pure ht 0
  | cons m rest ih =>
    have hadd := addMember ht key m
    have hrest := ih hadd.tidy
    have hsum : ∀ n b : Nat, n + b = b + n := Nat.add_comm
    simp only [Keyspace.addMembers]
    rw [hsum]
    exact hadd.bind (hrest.bind (Follows.pure hrest.tidy _))

theorem removeMember (ht : k.Tidy) (key m : String) :
    Follows k (removeMember key m) (k.removeMember key m) := by
  have hfst := RandomSet.remove_fst (ht.sets key) m
  have hvalid := RandomSet.valid_remove (ht.sets key) m
  have hpictures : ∀ r (order : RowOrder) n, Pictures k r →
      Pictures (k.withSet key ((k.set key).remove m).2)
        (Rows.answer order n (.removeMember key m) r).2 :=
    fun _ _ _ hr => hr.removeMember key m
  have hin : ∀ r, Pictures k r →
      (0 < r.sets.count { key, member := m } ↔ m ∈ (k.set key).members) := by
    intro r hr
    rw [List.count_pos_iff]
    exact hr.members key m
  rcases hremove : (k.set key).remove m with ⟨there, x⟩
  rw [hremove] at hfst hvalid hpictures
  by_cases hm : m ∈ (k.set key).members
  · obtain rfl : there = true := by simpa [hm] using hfst
    have hrm : k.removeMember key m = (true, (k.withSet key x).touch key .srem) := by
      simp only [Keyspace.removeMember, hremove]
    have hanswer := touchThen (ht.withSet key hvalid) key .srem true
    rw [hrm]
    refine sendThen (k.withSet key x) rfl rfl rfl hanswer.tidy hanswer.grows ?_
    intro r order n hr _
    refine ⟨hpictures r order n hr, ?_⟩
    simp only [Rows.answer, (hin r hr).mpr hm, if_true, decide_true]
    exact hanswer
  · obtain rfl : there = false := by simpa [hm] using hfst
    have hrm : k.removeMember key m = (false, k) := by
      simp only [Keyspace.removeMember, hremove]
    obtain rfl : k.set key = x := by
      have hsame := RandomSet.remove_of_not_mem (ht.sets key) hm
      rwa [hremove, eq_comm] at hsame
    rw [hrm]
    refine sendThen k rfl rfl rfl ht (List.prefix_refl _) ?_
    intro r order n hr _
    have hnone : ¬ 0 < r.sets.count { key, member := m } := fun h => hm ((hin r hr).mp h)
    refine ⟨(hpictures r order n hr).of_withSet ht, ?_⟩
    simp only [Rows.answer, hnone, if_false, decide_false]
    exact Follows.pure ht false

/-! ## Records -/

theorem writeFields (ht : k.Tidy) (key : String) (f : String × String) (rest : FieldList) :
    Follows k (writeFields key (f :: rest))
      ((), k.withRecord key ((k.record key).merge (f :: rest))) := by
  induction rest generalizing k f with
  | nil =>
    have htidy := ht.withRecord key (Assoc.put_ne_nil (k.record key) f.1 f.2)
    refine sendThen (k.withRecord key (Assoc.put (k.record key) f.1 f.2)) rfl rfl rfl htidy
      (List.prefix_refl _) ?_
    intro r order n hr _
    exact ⟨hr.writeField key f.1 f.2, Follows.pure htidy ()⟩
  | cons g rest ih =>
    have hnext := ih (ht.withRecord key (Assoc.put_ne_nil (k.record key) f.1 f.2)) g
    rw [Keyspace.record_withRecord, if_pos rfl, Keyspace.withRecord_withRecord] at hnext
    refine sendThen (k.withRecord key (Assoc.put (k.record key) f.1 f.2)) rfl rfl rfl hnext.tidy
      hnext.grows ?_
    intro r order n hr _
    exact ⟨hr.writeField key f.1 f.2, hnext⟩

theorem mergeFields (ht : k.Tidy) (key : String) (fields : FieldList) :
    Follows k (mergeFields key fields) ((), k.mergeFields key fields) := by
  cases fields with
  | nil => exact Follows.pure ht ()
  | cons f rest =>
    have hwrite := writeFields ht key f rest
    exact hwrite.bind (touch hwrite.tidy key .hset)

theorem takeRecord (ht : k.Tidy) (key : String) :
    Follows k (takeRecord key) (k.takeRecord key) := by
  have hread : ∀ r (order : RowOrder) n, Pictures k r → order.Orderly →
      (Rows.fieldsBySeq (Rows.answer order n (.takeFields key) r).1).map
        (fun f => (f.field, f.value)) = k.record key := by
    intro r order n hr ho
    rw [Rows.takeFields_answer hr.valid key (ho.fields n), hr.records]
  cases hget : Assoc.get? k.records key with
  | none =>
    have hrecord : k.record key = [] := by simp [Keyspace.record, hget]
    have htake : k.takeRecord key = ([], k) := by simp only [Keyspace.takeRecord, hget]
    rw [htake]
    refine sendThen k rfl rfl rfl ht (List.prefix_refl _) ?_
    intro r order n hr ho
    have hrows := (hread r order n hr ho).trans hrecord
    refine ⟨(hr.dropFields key).of_withoutRecord ht hrecord, ?_⟩
    rw [map_mergeSort_eq_nil.mp hrows, hrows]
    exact Follows.pure ht []
  | some fields =>
    have hrecord : k.record key = fields := by simp [Keyspace.record, hget]
    have hne : fields ≠ [] := by
      rintro rfl
      exact ht.records key hget
    have htake : k.takeRecord key = (fields, (k.withoutRecord key).touch key .del) := by
      simp only [Keyspace.takeRecord, hget, Keyspace.withoutRecord]
    have hanswer := touchThen (ht.withoutRecord key) key .del fields
    rw [htake]
    refine sendThen (k.withoutRecord key) rfl rfl rfl hanswer.tidy hanswer.grows ?_
    intro r order n hr ho
    have hrows := (hread r order n hr ho).trans hrecord
    have hsome := mt map_mergeSort_eq_nil.mpr (hrows ▸ hne)
    refine ⟨hr.dropFields key, ?_⟩
    rw [if_pos (by simpa using hsome), hrows]
    exact hanswer

/-! ## Removal of a key of any kind -/

theorem countEntries_deleted {r : Rows} (hr : Pictures k r) (key : String) :
    r.lists.countP (·.key = key) = (k.list key).length := by
  rw [Rows.countP_lists hr.valid, hr.lists]

theorem countMembers_deleted {r : Rows} (hr : Pictures k r) (key : String) :
    r.sets.countP (·.key = key) = (k.members key).length := by
  rw [Rows.countP_sets, (hr.perm_membersOf key).length_eq]

theorem countFields_deleted {r : Rows} (hr : Pictures k r) (key : String) :
    r.fields.countP (·.key = key) = (k.record key).length := by
  rw [Rows.countP_fields hr.valid, hr.records]

theorem delete (ht : k.Tidy) (key : String) : Follows k (delete key) (k.delete key) := by
  by_cases hsome : k.holds key
  · have hdelete : k.delete key = (true,
        (((k.withoutList key).withoutSet key).withoutRecord key).touch key .del) := by
      simp only [Keyspace.delete, hsome, if_true]
      rfl
    have hanswer :=
      touchThen (((ht.withoutList key).withoutSet key).withoutRecord key) key .del true
    rw [hdelete]
    refine sendThen (k.withoutList key) rfl rfl rfl hanswer.tidy hanswer.grows ?_
    intro r order n hr _
    refine ⟨hr.dropEntries key, ?_⟩
    refine sendThen ((k.withoutList key).withoutSet key) rfl rfl rfl hanswer.tidy hanswer.grows ?_
    intro r' order' n' hr' _
    refine ⟨hr'.dropMembers key, ?_⟩
    refine sendThen (((k.withoutList key).withoutSet key).withoutRecord key) rfl rfl rfl
      hanswer.tidy hanswer.grows ?_
    intro r'' order'' n'' hr'' _
    refine ⟨hr''.dropFields key, ?_⟩
    have hcount : 0 < r.lists.countP (·.key = key) + r'.sets.countP (·.key = key) +
        r''.fields.countP (·.key = key) := by
      rw [countEntries_deleted hr, countMembers_deleted hr', countFields_deleted hr'']
      have hholds := (ht.holds_iff key).mp hsome
      simp only [← List.length_pos_iff] at hholds
      show 0 < (k.list key).length + (k.members key).length + (k.record key).length
      omega
    simp only [Rows.answer, hcount, if_true, decide_true]
    exact hanswer
  · have hdelete : k.delete key = (false, k) := by
      simp only [Keyspace.delete, hsome, if_false, Bool.false_eq_true]
    have hnone := mt (ht.holds_iff key).mpr hsome
    simp only [not_or, not_not] at hnone
    obtain ⟨hlist, hmembers, hrecord⟩ := hnone
    rw [hdelete]
    refine sendThen k rfl rfl rfl ht (List.prefix_refl _) ?_
    intro r order n hr _
    refine ⟨(hr.dropEntries key).of_withoutList ht hlist, ?_⟩
    refine sendThen k rfl rfl rfl ht (List.prefix_refl _) ?_
    intro r' order' n' hr' _
    refine ⟨(hr'.dropMembers key).of_withoutSet ht hmembers, ?_⟩
    refine sendThen k rfl rfl rfl ht (List.prefix_refl _) ?_
    intro r'' order'' n'' hr'' _
    refine ⟨(hr''.dropFields key).of_withoutRecord ht hrecord, ?_⟩
    have hcount : ¬ 0 < r.lists.countP (·.key = key) + r'.sets.countP (·.key = key) +
        r''.fields.countP (·.key = key) := by
      rw [countEntries_deleted hr, countMembers_deleted hr', countFields_deleted hr'', hlist,
        hmembers, hrecord]
      exact Nat.lt_irrefl 0
    simp only [Rows.answer, hcount, if_false, decide_false]
    exact Follows.pure ht false

/-! ## Steps of scripts -/

theorem markPending (ht : k.Tidy) (l : Layout) (key token : String) :
    Follows k (markPending l key token) (k.markPending l key token) := by
  have hadd := addMember ht l.pendingSet key
  unfold Keyspace.markPending
  rcases hnew : k.addMember l.pendingSet key with ⟨new, k'⟩
  rw [hnew] at hadd
  refine hadd.bind ?_
  cases new with
  | true =>
    have hnotify := notify hadd.tidy l.channel token
    exact hnotify.bind (Follows.pure hnotify.tidy (Output.count 1))
  | false => exact Follows.pure hadd.tidy (Output.count 0)

theorem materialize (ht : k.Tidy) (l : Layout) (key : String) :
    Follows k (materialize l key) (k.materialize l key) := by
  have hremove := removeMember ht l.deleteSet key
  have hmove : ∀ j : Keyspace, j.Tidy → Follows j (do
      let staged ← RelationalStore.takeRecord (l.stagingKey key)
      RelationalStore.mergeFields (l.recordKey key) staged
      return (key, staged)) ((key, (j.takeRecord (l.stagingKey key)).1),
        (j.takeRecord (l.stagingKey key)).2.mergeFields (l.recordKey key)
          (j.takeRecord (l.stagingKey key)).1) := by
    intro j hj
    have htake := takeRecord hj (l.stagingKey key)
    have hmerge := mergeFields htake.tidy (l.recordKey key) (j.takeRecord (l.stagingKey key)).1
    exact htake.bind (hmerge.bind (Follows.pure hmerge.tidy _))
  unfold Keyspace.materialize Keyspace.honourDelete
  rcases hmarked : k.removeMember l.deleteSet key with ⟨marked, k'⟩
  rw [hmarked] at hremove
  refine hremove.bind ?_
  cases marked with
  | true =>
    have htake := takeRecord hremove.tidy (l.recordKey key)
    exact htake.bind (hmove _ htake.tidy)
  | false => exact hmove k' hremove.tidy

theorem materializeAll (ht : k.Tidy) (l : Layout) (keys : List String) :
    Follows k (materializeAll l keys) (k.materializeAll l keys) := by
  induction keys generalizing k with
  | nil => exact Follows.pure ht []
  | cons key rest ih =>
    have hone := materialize ht l key
    have hrest := ih hone.tidy
    exact hone.bind (hrest.bind (Follows.pure hrest.tidy _))

theorem dropStaged (ht : k.Tidy) (l : Layout) (keys : List String) :
    Follows k (dropStaged l keys) ((), k.dropStaged l keys) := by
  induction keys generalizing k with
  | nil => exact Follows.pure ht ()
  | cons key rest ih =>
    have htake := takeRecord ht (l.stagingKey key)
    exact htake.bind (ih htake.tidy)

end Follows

end ControlBus
